import ProxySwiss.StreamObject
import ProxySwiss.Destination
import ProxySwiss.BinWriter

/-!
# The SOCKS5 client session

One object serves one hop: it negotiates authentication, writes the CONNECT
request, and on a second call reads the response. Each definition is one
method of the source; a method ends by starting an operation or by calling a
user handler, and what it does after that call is in the state it returns.
-/

set_option autoImplicit false

namespace ProxySwiss.ClientSessionSocks5
open Memory CallbackObject StreamObject

inductive Callback where
  | authWriteReqHandler
  | authReadRespHandler
  | authWriteCredsHandler
  | authReadCredsReplyHandler
  | connWriteReqHandler
  | connReadRespHandler
  | connReadRespAddrIpv4Handler
  | connReadRespAddrDomainnameHandler
  | connReadRespAddrDomainnameStrHandler
  | connReadRespAddrIpv6Handler
  deriving DecidableEq, Repr

inductive UserHandler where
  | writeReq
  | readResp
  deriving DecidableEq, Repr

inductive Event where
  | call (h : UserHandler) (err : ErrorCode)
  | assertFailed
  deriving DecidableEq, Repr

/-- The handlers are kept as whether they are set. `connResp` is the variable
of the user that `puserConnResp` points to when it is not null. -/
structure Session where
  creds : Credentials := {}
  userWriteReqHandler : Bool := false
  userReadRespHandler : Bool := false
  userDst : Destination := {}
  puserConnResp : Bool := false
  connResp : ConnectResponse := {}
  writeBuf : Bytes := []
  authReadPacket : Buffer 2 := default
  connReadPacketHeader : Buffer 4 := default
  connReadPacketAddr : Buffer 270 := default

abbrev Effect := Session × List (Action (Op UInt8 Callback) Event)

def assertThat (holds : Bool) (r : Effect) : Effect :=
  if holds then r else (r.1,.emit .assertFailed::r.2)

/-- An empty handler fails the assertion and is not called. -/
def callAndClearHandler (s : Session) (h : UserHandler) (err : ErrorCode) : Effect :=
  match h with
  | .writeReq =>
    if s.userWriteReqHandler then
      ({ s with userWriteReqHandler := false },[.emit (.call .writeReq err)])
    else (s,[.emit .assertFailed])
  | .readResp =>
    if s.userReadRespHandler then
      ({ s with userReadRespHandler := false },[.emit (.call .readResp err)])
    else (s,[.emit .assertFailed])

def authWriteReq (s : Session) : Effect :=
  let (_,binw) := (BinWriter.ofString []).writeUint8 5
  let (_,binw) := binw.writeUint8 1
  let (_,binw) := if s.creds.empty then binw.writeUint8 0 else binw.writeUint8 2
  ({ s with writeBuf := binw.buf },[.start (.write binw.buf .authWriteReqHandler)])

def authReadResp (s : Session) : Effect :=
  (s,[.start (.read 2 .authReadRespHandler)])

def authWriteReqHandler (s : Session) (err : ErrorCode) : Effect :=
  let s := { s with writeBuf := [] }
  if err.failed then callAndClearHandler s .writeReq err
  else authReadResp s

def authWriteCreds (s : Session) : Effect :=
  let (_,binw) := (BinWriter.ofString []).writeUint8 0x05
  let (_,binw) := binw.writeUint8 (UInt8.ofNat s.creds.username.length)
  let (_,binw) := binw.writeRaw s.creds.username (UInt32.ofNat s.creds.username.length)
  let (_,binw) := binw.writeUint8 (UInt8.ofNat s.creds.password.length)
  let (_,binw) := binw.writeRaw s.creds.password (UInt32.ofNat s.creds.password.length)
  ({ s with writeBuf := binw.buf },[.start (.write binw.buf .authWriteCredsHandler)])

def connWriteReq (s : Session) : Effect :=
  let (_,binw) := (BinWriter.ofString []).writeUint8 0x05
  let (_,binw) := binw.writeUint8 0x01
  let (_,binw) := binw.writeUint8 0x00
  let (_,binw) :=
    if s.userDst.usingHostname then
      let (_,binw) := binw.writeUint8 0x03
      let (_,binw) := binw.writeUint8 (UInt8.ofNat s.userDst.hostname.length)
      binw.writeRaw s.userDst.hostname (UInt32.ofNat s.userDst.hostname.length)
    else
      match s.userDst.ipAddress with
      | .v4 ulong =>
        let (_,binw) := binw.writeUint8 0x01
        binw.writeUint32 (htonl ulong)
      | .v6 bytes =>
        let (_,binw) := binw.writeUint8 0x04
        binw.writeRaw bytes.bytes 16
  let (_,binw) := binw.writeUint16 (htons s.userDst.port)
  ({ s with writeBuf := binw.buf },[.start (.write binw.buf .connWriteReqHandler)])

def authReadRespHandler (s : Session) (err : ErrorCode) : Effect :=
  if err.failed then callAndClearHandler s .writeReq err
  else if s.authReadPacket[0] ≠ 5 then
    callAndClearHandler s .writeReq (makeErrorCode .protocolViolation)
  else if s.authReadPacket[1] = 0xff then
    callAndClearHandler s .writeReq (makeErrorCode .badAuthMethod)
  else if s.creds.empty then
    if s.authReadPacket[1] ≠ 0 then
      callAndClearHandler s .writeReq (makeErrorCode .protocolViolation)
    else connWriteReq s
  else
    if s.authReadPacket[1] ≠ 2 then
      callAndClearHandler s .writeReq (makeErrorCode .protocolViolation)
    else authWriteCreds s

def authReadCredsReply (s : Session) : Effect :=
  (s,[.start (.read 2 .authReadCredsReplyHandler)])

def authWriteCredsHandler (s : Session) (err : ErrorCode) : Effect :=
  let s := { s with writeBuf := [] }
  if err.failed then callAndClearHandler s .writeReq err
  else authReadCredsReply s

def authReadCredsReplyHandler (s : Session) (err : ErrorCode) : Effect :=
  if err.failed then callAndClearHandler s .writeReq err
  else if s.authReadPacket[0] ≠ 5 then
    callAndClearHandler s .writeReq (makeErrorCode .protocolViolation)
  else if s.authReadPacket[1] ≠ 0 then
    callAndClearHandler s .writeReq (makeErrorCode .authFailed)
  else connWriteReq s

def connWriteReqHandler (s : Session) (err : ErrorCode) : Effect :=
  let s := { s with writeBuf := [] }
  if err.failed then callAndClearHandler s .writeReq err
  else callAndClearHandler s .writeReq .noError

def writeConnectRequest (s : Session) (dst : Destination) : Effect :=
  if s.creds.username.length > 255 ∨ s.creds.password.length > 255 then
    (s,[.emit (.call .writeReq (makeErrorCode .credsTooLong))])
  else if dst.usingHostname ∧ dst.hostname.length > 255 then
    (s,[.emit (.call .writeReq (makeErrorCode .hostnameTooLong))])
  else authWriteReq { s with userDst := dst, userWriteReqHandler := true }

def connReadResp (s : Session) : Effect :=
  (s,[.start (.read 4 .connReadRespHandler)])

def readConnectResponse (s : Session) : Effect :=
  assertThat (!s.userReadRespHandler) <| assertThat (!s.puserConnResp) <|
    connReadResp { s with puserConnResp := true, userReadRespHandler := true }

def connReadRespAddrIpv4 (s : Session) : Effect :=
  (s,[.start (.read 6 .connReadRespAddrIpv4Handler)])

def connReadRespAddrDomainname (s : Session) : Effect :=
  (s,[.start (.read 1 .connReadRespAddrDomainnameHandler)])

def connReadRespAddrDomainnameStr (s : Session) : Effect :=
  let strLen := s.connReadPacketAddr[0].toNat
  (s,[.start (.read (strLen+2) .connReadRespAddrDomainnameStrHandler)])

def connReadRespAddrIpv6 (s : Session) : Effect :=
  (s,[.start (.read 18 .connReadRespAddrIpv6Handler)])

def connReadRespHandler (s : Session) (err : ErrorCode) : Effect :=
  if err.failed then callAndClearHandler s .readResp err
  else if s.connReadPacketHeader[0] ≠ 5 then
    callAndClearHandler s .readResp (makeErrorCode .protocolViolation)
  else if s.connReadPacketHeader[1] > 8 then
    callAndClearHandler s .readResp (makeErrorCode .protocolViolation)
  else if s.connReadPacketHeader[3] = 1 then connReadRespAddrIpv4 s
  else if s.connReadPacketHeader[3] = 3 then connReadRespAddrDomainname s
  else if s.connReadPacketHeader[3] = 4 then connReadRespAddrIpv6 s
  else callAndClearHandler s .readResp (makeErrorCode .protocolViolation)

/-- Some values of `rep` map to the abstract unknown error. -/
def socks5RepToMajorCode (rep : UInt8) : MajorCode :=
  if rep = 0 then .succeeded
  else if rep = 1 then .unknownError
  else if rep = 2 then .unknownError
  else if rep = 3 then .unknownError
  else if rep = 4 then .hostUnreachable
  else if rep = 5 then .connectionRefused
  else if rep = 6 then .unknownError
  else if rep = 7 then .unknownError
  else if rep = 8 then .badAddressType
  else .unknownError

/-- Only the branch of success clears the pointer. -/
def connReadRespAddrComplete (s : Session) (err : ErrorCode) : Effect :=
  if err.failed then callAndClearHandler s .readResp err
  else if s.connReadPacketHeader[1] ≠ 0 then
    let s := { s with connResp := ⟨socks5RepToMajorCode s.connReadPacketHeader[1]⟩ }
    callAndClearHandler s .readResp .noError
  else
    let s := { s with connResp := ⟨.succeeded⟩ }
    let (s,as) := callAndClearHandler s .readResp .noError
    ({ s with puserConnResp := false },as)

def connReadRespAddrIpv4Handler (s : Session) (err : ErrorCode) : Effect :=
  connReadRespAddrComplete s err

def connReadRespAddrDomainnameHandler (s : Session) (err : ErrorCode) : Effect :=
  if err.failed then callAndClearHandler s .readResp err
  else connReadRespAddrDomainnameStr s

def connReadRespAddrDomainnameStrHandler (s : Session) (err : ErrorCode) : Effect :=
  connReadRespAddrComplete s err

def connReadRespAddrIpv6Handler (s : Session) (err : ErrorCode) : Effect :=
  connReadRespAddrComplete s err

/-- The bytes of a read are in the array it was started on before its callback
runs; a write names no array. -/
def store (s : Session) (data : Bytes) : Callback → Session
  | .authReadRespHandler => { s with authReadPacket := s.authReadPacket.fill data }
  | .authReadCredsReplyHandler => { s with authReadPacket := s.authReadPacket.fill data }
  | .connReadRespHandler => { s with connReadPacketHeader := s.connReadPacketHeader.fill data }
  | .connReadRespAddrIpv4Handler =>
    { s with connReadPacketAddr := s.connReadPacketAddr.fill data }
  | .connReadRespAddrDomainnameHandler =>
    { s with connReadPacketAddr := s.connReadPacketAddr.fill data }
  | .connReadRespAddrDomainnameStrHandler =>
    { s with connReadPacketAddr := s.connReadPacketAddr.fillAt 1 data }
  | .connReadRespAddrIpv6Handler =>
    { s with connReadPacketAddr := s.connReadPacketAddr.fill data }
  | .authWriteReqHandler | .authWriteCredsHandler | .connWriteReqHandler => s

def run (k : Callback) (s : Session) (err : ErrorCode) : Effect :=
  match k with
  | .authWriteReqHandler => authWriteReqHandler s err
  | .authReadRespHandler => authReadRespHandler s err
  | .authWriteCredsHandler => authWriteCredsHandler s err
  | .authReadCredsReplyHandler => authReadCredsReplyHandler s err
  | .connWriteReqHandler => connWriteReqHandler s err
  | .connReadRespHandler => connReadRespHandler s err
  | .connReadRespAddrIpv4Handler => connReadRespAddrIpv4Handler s err
  | .connReadRespAddrDomainnameHandler => connReadRespAddrDomainnameHandler s err
  | .connReadRespAddrDomainnameStrHandler => connReadRespAddrDomainnameStrHandler s err
  | .connReadRespAddrIpv6Handler => connReadRespAddrIpv6Handler s err

theorem call_single (s : Session) (h : UserHandler) (err : ErrorCode) :
    started (callAndClearHandler s h err).2 = [] := by
  cases h <;> simp only [callAndClearHandler] <;> split <;> rfl

theorem run_single (k : Callback) (s : Session) (err : ErrorCode) :
    (started (run k s err).2).length ≤ 1 := by
  cases k <;>
    simp only [run, authWriteReqHandler, authReadRespHandler, authWriteCredsHandler,
      authReadCredsReplyHandler, connWriteReqHandler, connReadRespHandler,
      connReadRespAddrIpv4Handler, connReadRespAddrDomainnameHandler,
      connReadRespAddrDomainnameStrHandler, connReadRespAddrIpv6Handler,
      connReadRespAddrComplete] <;>
    split_ifs <;>
    first
      | exact Nat.le_of_eq (congrArg List.length (call_single ..)) |>.trans (Nat.zero_le _)
      | exact Nat.le_refl _

/-- The client as an object of its socket. -/
def client : Object Session Callback UInt8 ErrorCode Event where
  done op res s := run op.callback (store s res.data op.callback) (res.code .noError)
  single _ _ _ := run_single _ _ _

end ProxySwiss.ClientSessionSocks5
