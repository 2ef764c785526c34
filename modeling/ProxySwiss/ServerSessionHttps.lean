import ProxySwiss.StreamObject
import ProxySwiss.Destination
import ProxySwiss.UrlParser

/-!
# The HTTPS server session

The request of a client is a CONNECT line and header lines up to the first
empty one. Lines are read one octet at a time, so that nothing behind the
request is taken. `fuel` bounds the rounds of the loop over an address.
-/

set_option autoImplicit false

namespace ProxySwiss.ServerSessionHttps
open Memory CallbackObject StreamObject Text UrlParser

inductive LineHandler where
  | handleReadFirstLine
  | handleReadAnotherLine
  deriving DecidableEq, Repr

inductive Callback where
  | handleRead (handler : LineHandler)
  | writeConnectResponseHandler
  deriving DecidableEq, Repr

inductive UserHandler where
  | readReq
  | writeResp
  deriving DecidableEq, Repr

inductive Event where
  | call (h : UserHandler) (err : ErrorCode)
  | assertFailed
  deriving DecidableEq, Repr

inductive HttpVersion where
  | http10
  | http11
  deriving DecidableEq, Repr

structure Session where
  puserDst : Bool := false
  userDst : Destination := {}
  userReadReqHandler : Bool := false
  line : Bytes := []
  parsedDst : Destination := {}
  httpVer : HttpVersion := .http10

abbrev Effect := Session × List (Action (Op UInt8 Callback) Event)

def assertThat (holds : Bool) (r : Effect) : Effect :=
  if holds then r else (r.1,.emit .assertFailed::r.2)

def callAndClearHandler (s : Session) (err : ErrorCode) : Effect :=
  if s.userReadReqHandler then
    ({ s with userReadReqHandler := false },[.emit (.call .readReq err)])
  else (s,[.emit .assertFailed])

def kMaxLineLen : ℕ := 2048

/-- `read_next` of the operation that reads up to a line feed: `handler` is
called when the line is complete, else one more octet is read. -/
def readNext (k : LineHandler) (handler : Session → Effect) (s : Session) : Effect :=
  if s.line.length = kMaxLineLen then handler s
  else if s.line.getLast? = some 0x0a then handler s
  else ({ s with line := s.line ++ [0] },[.start (.read 1 (.handleRead k))])

/-- An empty line is not complete, so no handler is called here. -/
def readLine (k : LineHandler) (s : Session) : Effect :=
  readNext k (fun s => (s,[])) { s with line := [] }

def readFirstLine (s : Session) : Effect := readLine .handleReadFirstLine s
def readAnotherLine (s : Session) : Effect := readLine .handleReadAnotherLine s

def readConnectRequest (s : Session) : Effect :=
  assertThat (!s.userReadReqHandler) <| assertThat (!s.puserDst) <|
    readFirstLine { s with puserDst := true, userReadReqHandler := true }

/-- `none` when the line does not end in a line feed. -/
def trimLine (line : Bytes) : Option Bytes :=
  if line.getLast? = some 0x0a then
    if line.length ≥ 2 ∧ line.dropLast.getLast? = some 0x0d then
      some (line.take (line.length-2))
    else some (line.take (line.length-1))
  else none

/-- The last check of an address expects the other family. -/
def destinationFromUrlParser (dst : Destination) (host : HostAddress) (port : UInt16) :
    Destination × Bool :=
  match host with
  | .ipAddr (.v4 addr) => (⟨[],.v4 (htonl addr),port⟩,true)
  | .ipAddr (.v6 bytes) => (⟨[],.v6 bytes,port⟩,false)
  | .hostname name =>
    let dst := { dst with hostname := name, port := port }
    (dst,dst.usingHostname)

structure FirstLine where
  err : ErrorCode
  dst : Destination
  httpVer : HttpVersion
  asserted : Bool := true

def httpVersion (text : Bytes) : Option HttpVersion :=
  if text = ascii "HTTP/1.0" then some .http10
  else if text = ascii "HTTP/1.1" then some .http11
  else none

/-- Only the format host:port is allowed. -/
def destinationOf (dst : Destination) (httpVer : HttpVersion) (up : UrlParser UInt8) :
    FirstLine :=
  if up.scheme ≠ none then ⟨makeErrorCode .protocolViolation,dst,httpVer,true⟩
  else if up.username ≠ none ∨ up.password ≠ none then
    ⟨makeErrorCode .protocolViolation,dst,httpVer,true⟩
  else match up.port with
  | none => ⟨makeErrorCode .protocolViolation,dst,httpVer,true⟩
  | some port =>
    let (dst,asserted) := destinationFromUrlParser dst up.host port
    ⟨.noError,dst,httpVer,asserted⟩

def parseFirstLine (fuel : ℕ) (line : Bytes) (dst : Destination) (httpVer : HttpVersion) :
    Option FirstLine :=
  match strSplit line (ascii " ") with
  | [method,target,version] =>
    if method ≠ ascii "CONNECT" then some ⟨makeErrorCode .protocolViolation,dst,httpVer,true⟩
    else match httpVersion version with
    | none => some ⟨makeErrorCode .protocolViolation,dst,httpVer,true⟩
    | some httpVer => (parse fuel target).map fun r => match r with
      | none => ⟨makeErrorCode .protocolViolation,dst,httpVer,true⟩
      | some up => destinationOf dst httpVer up
  | _ => some ⟨makeErrorCode .protocolViolation,dst,httpVer,true⟩

def verifyHeaderLine (line : Bytes) : ErrorCode :=
  match strSplit line (ascii ": ") with
  | [name,value] =>
    if name = [] ∨ value = [] then makeErrorCode .protocolViolation else .noError
  | _ => makeErrorCode .protocolViolation

/-- A parser that does not return leaves the object as it is, without a call. -/
def handleReadFirstLine (fuel : ℕ) (s : Session) (err : ErrorCode) : Effect :=
  if err.failed then callAndClearHandler s err
  else match trimLine s.line with
  | none => callAndClearHandler s (makeErrorCode .lineTooLong)
  | some line =>
    let s := { s with line := line }
    match parseFirstLine fuel line s.parsedDst s.httpVer with
    | none => (s,[])
    | some p =>
      let s := { s with parsedDst := p.dst, httpVer := p.httpVer }
      assertThat p.asserted <|
        if p.err.failed then callAndClearHandler s p.err else readAnotherLine s

/-- What a header line is found to be is not what the condition asks for. -/
def handleReadAnotherLine (s : Session) (err : ErrorCode) : Effect :=
  if err.failed then callAndClearHandler s err
  else match trimLine s.line with
  | none => callAndClearHandler s (makeErrorCode .lineTooLong)
  | some line =>
    let s := { s with line := line }
    if line ≠ [] then
      let verifyErr := verifyHeaderLine line
      if err.failed then callAndClearHandler s verifyErr else readAnotherLine s
    else
      let (s,as) := callAndClearHandler { s with userDst := s.parsedDst } .noError
      ({ s with puserDst := false },as)

def callLineHandler (fuel : ℕ) (k : LineHandler) (s : Session) (err : ErrorCode) : Effect :=
  match k with
  | .handleReadFirstLine => handleReadFirstLine fuel s err
  | .handleReadAnotherLine => handleReadAnotherLine s err

def handleRead (fuel : ℕ) (k : LineHandler) (s : Session) (err : ErrorCode) : Effect :=
  if err.failed then callLineHandler fuel k s err
  else readNext k (fun s => callLineHandler fuel k s .noError) s

def majorToHttpCode (mc : MajorCode) : Option (ℕ × Bytes) :=
  match mc with
  | .succeeded => some (200,ascii "Connection established")
  | _ => none

def writeConnectResponse (s : Session) (connResp : ConnectResponse) : Effect :=
  let banner := ascii (if s.httpVer = .http10 then "HTTP/1.0" else "HTTP/1.1")
  let (code,description) := (majorToHttpCode connResp.major).getD (502,ascii "Bad Gateway")
  let s := { s with
    line := banner ++ ascii " " ++ strFromUint code ++ ascii " " ++ description ++
      ascii "\r\nContent-Length: 0\r\n\r\n" }
  (s,[.start (.write s.line .writeConnectResponseHandler)])

/-- The octet is read into the last place of the line. -/
def store (s : Session) (data : Bytes) : Callback → Session
  | .handleRead _ => if data = [] then s else { s with line := s.line.dropLast ++ data }
  | .writeConnectResponseHandler => s

def run (fuel : ℕ) (k : Callback) (s : Session) (err : ErrorCode) : Effect :=
  match k with
  | .handleRead k => handleRead fuel k s err
  | .writeConnectResponseHandler => (s,[.emit (.call .writeResp err)])

@[simp] theorem started_assertThat (holds : Bool) (r : Effect) :
    started (assertThat holds r).2 = started r.2 := by
  cases holds <;> rfl

@[simp] theorem started_call (s : Session) (err : ErrorCode) :
    started (callAndClearHandler s err).2 = [] := by
  unfold callAndClearHandler
  split <;> rfl

theorem readNext_single (k : LineHandler) (handler : Session → Effect) (s : Session)
    (h : ∀ s, (started (handler s).2).length ≤ 1) :
    (started (readNext k handler s).2).length ≤ 1 := by
  unfold readNext
  split_ifs
  · exact h s
  · exact h s
  · exact Nat.le_refl _

theorem readLine_single (k : LineHandler) (s : Session) :
    (started (readLine k s).2).length ≤ 1 :=
  readNext_single k _ _ fun _ => Nat.zero_le _

theorem callLineHandler_single (fuel : ℕ) (k : LineHandler) (s : Session) (err : ErrorCode) :
    (started (callLineHandler fuel k s err).2).length ≤ 1 := by
  cases k with
  | handleReadFirstLine =>
    simp only [callLineHandler, handleReadFirstLine]
    split_ifs
    · simp
    · split
      · simp
      · split
        · simp
        · split_ifs
          · simp
          · rw [started_assertThat]
            exact readLine_single _ _
  | handleReadAnotherLine =>
    simp only [callLineHandler, handleReadAnotherLine]
    split_ifs
    · simp
    · split
      · simp
      · split_ifs
        · exact readLine_single _ _
        · simp

theorem run_single (fuel : ℕ) (k : Callback) (s : Session) (err : ErrorCode) :
    (started (run fuel k s err).2).length ≤ 1 := by
  cases k with
  | handleRead k =>
    simp only [run, handleRead]
    split_ifs
    · exact callLineHandler_single fuel k s err
    · exact readNext_single k _ s fun s => callLineHandler_single fuel k s _
  | writeConnectResponseHandler => simp [run]

def server (fuel : ℕ) : Object Session Callback UInt8 ErrorCode Event where
  done op res s := run fuel op.callback (store s res.data op.callback) (res.code .noError)
  single _ _ _ := run_single _ _ _ _

end ProxySwiss.ServerSessionHttps
