import ProxySwiss.StreamObject
import ProxySwiss.Destination

/-!
# The SOCKS5 server session

One object serves one client: it reads the greeting, selects the method
without authentication, reads the CONNECT request into a destination of its
user, and on a second call writes a response of ten bytes.
-/

set_option autoImplicit false

namespace ProxySwiss.ServerSessionSocks5
open Memory CallbackObject StreamObject

inductive Callback where
  | authReadReqHandler
  | authReadReqMethodsHandler
  | authWriteRespHandler
  | connReadReqHandler
  | connReadReqAddrIpv4Handler
  | connReadReqAddrDomainnameHandler
  | connReadReqAddrDomainnameStrHandler
  | connReadReqAddrIpv6Handler
  | writeConnectResponseHandler
  deriving DecidableEq, Repr

inductive UserHandler where
  | readReq
  | writeResp
  deriving DecidableEq, Repr

inductive Event where
  | call (h : UserHandler) (err : ErrorCode)
  | assertFailed
  deriving DecidableEq, Repr

/-- `userDst` is the variable of the user that `puserDst` points to when it is
not null. -/
structure Session where
  puserDst : Bool := false
  userDst : Destination := {}
  userReadReqHandler : Bool := false
  userWriteRespHandler : Bool := false
  readAuthHdr : Buffer 2 := default
  readAuthMethods : Bytes := []
  writeAuthResp : Buffer 2 := default
  readConnHdr : Buffer 4 := default
  readAddr : Buffer 270 := default
  writeConnResp : Buffer 10 := default

abbrev Effect := Session × List (Action (Op UInt8 Callback) Event)

def assertThat (holds : Bool) (r : Effect) : Effect :=
  if holds then r else (r.1,.emit .assertFailed::r.2)

def callAndClearHandler (s : Session) (h : UserHandler) (err : ErrorCode) : Effect :=
  match h with
  | .readReq =>
    if s.userReadReqHandler then
      ({ s with userReadReqHandler := false },[.emit (.call .readReq err)])
    else (s,[.emit .assertFailed])
  | .writeResp =>
    if s.userWriteRespHandler then
      ({ s with userWriteRespHandler := false },[.emit (.call .writeResp err)])
    else (s,[.emit .assertFailed])

def authReadReq (s : Session) : Effect :=
  (s,[.start (.read 2 .authReadReqHandler)])

def readConnectRequest (s : Session) : Effect :=
  assertThat (!s.userReadReqHandler) <| assertThat (!s.puserDst) <|
    authReadReq { s with puserDst := true, userReadReqHandler := true }

def authReadReqMethods (s : Session) : Effect :=
  let nmethods := s.readAuthHdr[1].toNat
  ({ s with readAuthMethods := List.replicate nmethods 0 },
    [.start (.read nmethods .authReadReqMethodsHandler)])

def authReadReqHandler (s : Session) (err : ErrorCode) : Effect :=
  if err.failed then callAndClearHandler s .readReq err
  else if s.readAuthHdr[0] ≠ 5 then
    callAndClearHandler s .readReq (makeErrorCode .protocolViolation)
  else if s.readAuthHdr[1] = 0 then
    callAndClearHandler s .readReq (makeErrorCode .protocolViolation)
  else authReadReqMethods s

def authWriteResp (s : Session) : Effect :=
  let s := { s with writeAuthResp := ⟨[5,0],rfl⟩ }
  (s,[.start (.write s.writeAuthResp.bytes .authWriteRespHandler)])

def authReadReqMethodsHandler (s : Session) (err : ErrorCode) : Effect :=
  let methodsCopy := s.readAuthMethods
  let s := { s with readAuthMethods := [] }
  if err.failed then callAndClearHandler s .readReq err
  else if 0 ∉ methodsCopy then
    callAndClearHandler s .readReq (makeErrorCode .protocolViolation)
  else authWriteResp s

def connReadReq (s : Session) : Effect :=
  (s,[.start (.read 4 .connReadReqHandler)])

def authWriteRespHandler (s : Session) (err : ErrorCode) : Effect :=
  if err.failed then callAndClearHandler s .readReq err
  else connReadReq s

def connReadReqAddrIpv4 (s : Session) : Effect :=
  (s,[.start (.read 6 .connReadReqAddrIpv4Handler)])

def connReadReqAddrDomainname (s : Session) : Effect :=
  (s,[.start (.read 1 .connReadReqAddrDomainnameHandler)])

def connReadReqAddrDomainnameStr (s : Session) : Effect :=
  let strLen := s.readAddr[0].toNat
  (s,[.start (.read (strLen+2) .connReadReqAddrDomainnameStrHandler)])

def connReadReqAddrIpv6 (s : Session) : Effect :=
  (s,[.start (.read 18 .connReadReqAddrIpv6Handler)])

def connReadReqHandler (s : Session) (err : ErrorCode) : Effect :=
  if err.failed then callAndClearHandler s .readReq err
  else if s.readConnHdr[0] ≠ 5 then
    callAndClearHandler s .readReq (makeErrorCode .protocolViolation)
  else if s.readConnHdr[1] ≠ 1 then
    callAndClearHandler s .readReq (makeErrorCode .unsupportedCommand)
  else if s.readConnHdr[3] = 1 then connReadReqAddrIpv4 s
  else if s.readConnHdr[3] = 3 then connReadReqAddrDomainname s
  else if s.readConnHdr[3] = 4 then connReadReqAddrIpv6 s
  else callAndClearHandler s .readReq (makeErrorCode .protocolViolation)

/-- The three address handlers end alike: `asserted` is the check of the form
of the destination, and the pointer is cleared after the user was called. -/
def deliver (s : Session) (asserted : Bool) : Effect :=
  let (s,as) := callAndClearHandler s .readReq .noError
  assertThat asserted ({ s with puserDst := false },as)

def connReadReqAddrIpv4Handler (s : Session) (err : ErrorCode) : Effect :=
  if err.failed then callAndClearHandler s .readReq err
  else
    let addr32 := s.readAddr.uint32At 0
    let port16 := s.readAddr.uint16At 4
    let dst : Destination := ⟨[],.v4 (htonl addr32),htons port16⟩
    deliver { s with userDst := dst } (!dst.usingHostname)

def connReadReqAddrDomainnameHandler (s : Session) (err : ErrorCode) : Effect :=
  if err.failed then callAndClearHandler s .readReq err
  else connReadReqAddrDomainnameStr s

def connReadReqAddrDomainnameStrHandler (s : Session) (err : ErrorCode) : Effect :=
  if err.failed then callAndClearHandler s .readReq err
  else
    let strLen := s.readAddr[0].toNat
    let dst := { s.userDst with
      hostname := s.readAddr.slice 1 strLen
      port := htons (s.readAddr.uint16At (strLen+1)) }
    deliver { s with userDst := dst } dst.usingHostname

def addrArr (b : Buffer 270) : Buffer 16 := (Buffer.zero 16).fill (b.slice 0 16)

/-- The port is stored as it was received. -/
def connReadReqAddrIpv6Handler (s : Session) (err : ErrorCode) : Effect :=
  if err.failed then callAndClearHandler s .readReq err
  else
    let dst : Destination := ⟨[],.v6 (addrArr s.readAddr),s.readAddr.uint16At 16⟩
    deliver { s with userDst := dst } (!dst.usingHostname)

/-- The case of `eHostUnreachable` has no `return` and falls through. -/
def majorCodeToRep : MajorCode → UInt8
  | .succeeded => 0
  | .hostUnreachable => 5
  | .connectionRefused => 5
  | .badAddressType => 7
  | .unknownError => 1

def writeConnectResponse (s : Session) (connResp : ConnectResponse) : Effect :=
  let s := { s with
    userWriteRespHandler := true
    writeConnResp := ⟨[5,majorCodeToRep connResp.major,0,1,0,0,0,0,0,0],rfl⟩ }
  (s,[.start (.write s.writeConnResp.bytes .writeConnectResponseHandler)])

def writeConnectResponseHandler (s : Session) (err : ErrorCode) : Effect :=
  if err.failed then callAndClearHandler s .writeResp err
  else callAndClearHandler s .writeResp .noError

def store (s : Session) (data : Bytes) : Callback → Session
  | .authReadReqHandler => { s with readAuthHdr := s.readAuthHdr.fill data }
  | .authReadReqMethodsHandler =>
    { s with readAuthMethods := data ++ s.readAuthMethods.drop data.length }
  | .connReadReqHandler => { s with readConnHdr := s.readConnHdr.fill data }
  | .connReadReqAddrIpv4Handler => { s with readAddr := s.readAddr.fill data }
  | .connReadReqAddrDomainnameHandler => { s with readAddr := s.readAddr.fill data }
  | .connReadReqAddrDomainnameStrHandler => { s with readAddr := s.readAddr.fillAt 1 data }
  | .connReadReqAddrIpv6Handler => { s with readAddr := s.readAddr.fill data }
  | .authWriteRespHandler | .writeConnectResponseHandler => s

def run (k : Callback) (s : Session) (err : ErrorCode) : Effect :=
  match k with
  | .authReadReqHandler => authReadReqHandler s err
  | .authReadReqMethodsHandler => authReadReqMethodsHandler s err
  | .authWriteRespHandler => authWriteRespHandler s err
  | .connReadReqHandler => connReadReqHandler s err
  | .connReadReqAddrIpv4Handler => connReadReqAddrIpv4Handler s err
  | .connReadReqAddrDomainnameHandler => connReadReqAddrDomainnameHandler s err
  | .connReadReqAddrDomainnameStrHandler => connReadReqAddrDomainnameStrHandler s err
  | .connReadReqAddrIpv6Handler => connReadReqAddrIpv6Handler s err
  | .writeConnectResponseHandler => writeConnectResponseHandler s err

theorem call_idle (s : Session) (h : UserHandler) (err : ErrorCode) :
    started (callAndClearHandler s h err).2 = [] := by
  cases h <;> simp only [callAndClearHandler] <;> split <;> rfl

theorem deliver_idle (s : Session) (asserted : Bool) : started (deliver s asserted).2 = [] := by
  have h := call_idle s .readReq .noError
  cases asserted <;> simpa [deliver, assertThat] using h

theorem run_single (k : Callback) (s : Session) (err : ErrorCode) :
    (started (run k s err).2).length ≤ 1 := by
  cases k <;>
    simp only [run, authReadReqHandler, authReadReqMethodsHandler, authWriteRespHandler,
      connReadReqHandler, connReadReqAddrIpv4Handler, connReadReqAddrDomainnameHandler,
      connReadReqAddrDomainnameStrHandler, connReadReqAddrIpv6Handler,
      writeConnectResponseHandler] <;>
    split_ifs <;>
    first
      | simp [call_idle]
      | simp [deliver_idle]
      | exact Nat.le_refl _

/-- The server as an object of its socket. -/
def server : Object Session Callback UInt8 ErrorCode Event where
  done op res s := run op.callback (store s res.data op.callback) (res.code .noError)
  single _ _ _ := run_single _ _ _

end ProxySwiss.ServerSessionSocks5
