import ProxySwiss.Output
import ProxySwiss.Text

/-!
# The session

A session reads a connect request from its input, has its output connect,
gives the response to the input, and makes the tunnel when both went well.
The input and the output are objects of their own: an operation of the input
completes with any outcome, and the output is embedded as it is.
-/

set_option autoImplicit false
set_option linter.dupNamespace false

namespace ProxySwiss
open Memory CallbackObject
open Text (strFromUint)

inductive ServerProxyType where
  | socks5
  | https
  deriving DecidableEq, Repr

/-- With a tunnel the destination is configured, and no one is asked. -/
inductive InputConfig where
  | tunnel (destination : Destination)
  | proxyServer (type : ServerProxyType)

structure Config where
  input : InputConfig
  output : OutputConfig

/-- `srvSess` is the server session of an input that has one. -/
structure Input where
  cfgInput : InputConfig
  srvSess : Option ServerProxyType

def Input.create (cfg : InputConfig) : Input :=
  match cfg with
  | .tunnel _ => ⟨cfg,none⟩
  | .proxyServer type => ⟨cfg,some type⟩

namespace Session

/-- `log` and `history` are those that the session was given by the server;
`printed` is the output of the program. -/
structure Session where
  cfg : Config
  input : Input
  output : Output
  inputSock : Bool := true
  outputSock : Bool := false
  dst : Destination := {}
  outputConnRes : Output.ConnectResult := {}
  inputReadBuf : Option (Buffer 4096) := none
  outputReadBuf : Option (Buffer 4096) := none
  printProxyErrors : Bool := false
  log : List Bytes := []
  history : List Bytes := []
  printed : List (Option ProxyClientInfo × ErrorCode) := []

inductive Op where
  | readConnectRequest
  | writeConnectResponse (connResp : ConnectResponse)
  | output (op : Output.Op)

/-- `dst` is what the reader of a request has left in the destination. -/
structure Completion where
  err : ErrorCode := .noError
  dst : Destination := {}
  outcome : Output.Outcome := {}

inductive Event where
  | requestRead (err : ErrorCode)
  | connectResult (cr : Output.ConnectResult)
  | respond (connResp : ConnectResponse)
  | responseWritten (err : ErrorCode)
  | beginInputRead
  | beginOutputRead
  | indexOutOfRange
  | assertFailed
  | badFunctionCall
  deriving DecidableEq, Repr

abbrev Effect := Session × List (Action Op Event)

def create (cfg : Config) : Session :=
  { cfg := cfg, input := Input.create cfg.input, output := Output.create cfg.output }

def assertThat (holds : Bool) (r : Effect) : Effect :=
  if holds then r else (r.1,.emit .assertFailed::r.2)

def emit (e : Event) (r : Effect) : Effect := (r.1,.emit e::r.2)

def closeAll (s : Session) : Session := { s with inputSock := false, outputSock := false }

def allocReadBuffers (s : Session) : Session :=
  { s with inputReadBuf := some default, outputReadBuf := some default }

/-- The reads that the tunnel begins with are reported, not started here. -/
def makeTunnel (s : Session) : Effect :=
  (allocReadBuffers s,[.emit .beginInputRead,.emit .beginOutputRead])

def handleWriteConnectResponse (s : Session) (err : ErrorCode) : Effect :=
  emit (.responseWritten err) <|
    if err.failed then (closeAll s,[])
    else if !s.outputConnRes.success then (closeAll s,[])
    else makeTunnel s

/-- `input::write_connect_response`; a tunnel calls the handler at once. -/
def writeConnectResponse (s : Session) (connResp : ConnectResponse) : Effect :=
  emit (.respond connResp) <|
    match s.input.cfgInput with
    | .tunnel _ => assertThat s.input.srvSess.isNone (handleWriteConnectResponse s .noError)
    | .proxyServer _ =>
      assertThat s.input.srvSess.isSome (s,[.start (.writeConnectResponse connResp)])

section AddressText

/-! `addressText` is the text of an address as the network library writes it. -/

variable (addressText : Address → Bytes)

def idStr (dst : Destination) : Bytes :=
  (if dst.usingHostname then dst.hostname else addressText dst.ipAddress) ++ [0x3a] ++
    strFromUint dst.port.toNat

def remember (s : Session) : Session :=
  let id := idStr addressText s.dst
  if id ∈ s.history then s
  else { s with log := s.log ++ [id], history := s.history ++ [id] }

/-- The proxy that failed is looked up only for an error of the proxy itself. -/
def printProxyError (s : Session) (connRes : Output.ConnectResult) : Session × List Event :=
  if s.printProxyErrors ∧ connRes.err.category = .proxyBasic then
    if connRes.chainFailIndex ≠ Output.kNoIndex then
      match s.cfg.output.proxyChain[connRes.chainFailIndex]? with
      | some info => ({ s with printed := s.printed ++ [(some info,connRes.err)] },[])
      | none => (s,[.indexOutOfRange])
    else ({ s with printed := s.printed ++ [(none,connRes.err)] },[])
  else (s,[])

/-- The response for a connect that did not succeed. -/
def failureResponse (connRes : Output.ConnectResult) : ConnectResponse :=
  if connRes.err.failed then
    ⟨(ConnectResponse.errorCodeToMajor connRes.err).getD .unknownError⟩
  else connRes.connResp

def handleConnectOutput (s : Session) (connRes : Output.ConnectResult) : Effect :=
  let s := { s with outputConnRes := connRes }
  emit (.connectResult connRes) <|
    if connRes.success then writeConnectResponse (remember addressText s) ⟨.succeeded⟩
    else
      let (s,es) := if connRes.err.failed then printProxyError s connRes else (s,[])
      let (s,as) := writeConnectResponse s (failureResponse connRes)
      (s,es.map .emit ++ as)

/-- What the output does, with its handler bound to the session. A connect
opens the socket. -/
def runOutput (s : Session) : List (Action Output.Op Output.Event) → Effect
  | [] => (s,[])
  | .start op::as =>
    let s := match op with
      | .asyncConnect _ _ _ => { s with outputSock := true }
      | _ => s
    let (s,bs) := runOutput s as
    (s,.start (.output op)::bs)
  | .emit (.connected cr)::as =>
    let (s,bs) := handleConnectOutput addressText s cr
    let (s,cs) := runOutput s as
    (s,bs ++ cs)
  | .emit .assertFailed::as => emit .assertFailed (runOutput s as)
  | .emit .badFunctionCall::as => emit .badFunctionCall (runOutput s as)

def handleReadConnectRequest (s : Session) (err : ErrorCode) : Effect :=
  emit (.requestRead err) <|
    if err.failed then (closeAll s,[])
    else
      let (out,as) := s.output.connectThroughChain s.dst
      runOutput addressText { s with output := out } as

/-- `input::read_connect_request`, called with the destination of the session. -/
def start (s : Session) : Effect :=
  match s.input.cfgInput with
  | .tunnel destination =>
    assertThat s.input.srvSess.isNone
      (handleReadConnectRequest addressText { s with dst := destination } .noError)
  | .proxyServer _ => assertThat s.input.srvSess.isSome (s,[.start .readConnectRequest])

def done (op : Op) (res : Completion) (s : Session) : Effect :=
  match op with
  | .readConnectRequest => handleReadConnectRequest addressText { s with dst := res.dst } res.err
  | .writeConnectResponse _ => handleWriteConnectResponse s res.err
  | .output op =>
    let (out,as) := Output.done op res.outcome s.output
    runOutput addressText { s with output := out } as

/-- How often a list of the output's actions reaches beyond the output. -/
def reach (as : List (Action Output.Op Output.Event)) : ℕ :=
  as.countP fun a => match a with
    | .emit .assertFailed => false
    | .emit .badFunctionCall => false
    | _ => true

@[simp] theorem reach_assertThat (holds : Bool) (r : Output.Effect) :
    reach (Output.assertThat holds r).2 = reach r.2 := by
  cases holds <;> simp [Output.assertThat, reach]

@[simp] theorem reach_call (s : Output) (cr : Output.ConnectResult) :
    reach (s.callAndClearHandler cr).2 ≤ 1 := by
  unfold Output.callAndClearHandler
  split <;> simp [reach]

theorem reach_connectNext (s : Output) (err : ErrorCode) (index : ℕ) :
    reach (s.connectNext err index).2 ≤ 1 := by
  unfold Output.connectNext
  split
  · exact reach_call _ _
  · split
    · exact reach_call _ _
    · exact (reach_assertThat _ _).trans_le List.countP_le_length

theorem reach_connectThroughChain (s : Output) (dst : Destination) :
    reach (s.connectThroughChain dst).2 ≤ 1 := by
  simp only [Output.connectThroughChain, reach_assertThat]
  split_ifs <;> exact List.countP_le_length

theorem reach_done (op : Output.Op) (r : Output.Outcome) (s : Output) :
    reach (Output.done op r s).2 ≤ 1 := by
  cases op with
  | asyncResolve _ port index =>
    simp only [Output.done, Output.handleResolve]
    split_ifs
    · exact reach_call _ _
    · exact List.countP_le_length
  | asyncConnect _ _ index => exact reach_connectNext s r.err index
  | writeConnectRequest _ _ index =>
    simp only [Output.done, Output.handleWriteConnectRequest]
    split_ifs
    · exact reach_call _ _
    · exact List.countP_le_length
  | readConnectResponse _ index =>
    simp only [Output.done, Output.handleReadConnectResponse]
    split_ifs <;> first | exact reach_connectNext _ _ _ | exact reach_call _ _

@[simp] theorem started_assertThat (holds : Bool) (r : Effect) :
    started (assertThat holds r).2 = started r.2 := by
  cases holds <;> rfl

@[simp] theorem started_emitThat (e : Event) (r : Effect) :
    started (emit e r).2 = started r.2 := rfl

theorem responseWritten_idle (s : Session) (err : ErrorCode) :
    started (handleWriteConnectResponse s err).2 = [] := by
  simp only [handleWriteConnectResponse, started_emitThat]
  split_ifs <;> rfl

theorem respond_single (s : Session) (r : ConnectResponse) :
    (started (writeConnectResponse s r).2).length ≤ 1 := by
  simp only [writeConnectResponse, started_emitThat]
  split
  · simp [responseWritten_idle]
  · simp

theorem connected_single (s : Session) (cr : Output.ConnectResult) :
    (started (handleConnectOutput addressText s cr).2).length ≤ 1 := by
  simp only [handleConnectOutput, started_emitThat]
  split
  · exact respond_single _ _
  · rw [started_append, started_emits]
    exact respond_single _ _

theorem runOutput_single (s : Session) (as : List (Action Output.Op Output.Event)) :
    (started (runOutput addressText s as).2).length ≤ reach as := by
  induction as generalizing s with
  | nil => exact Nat.le_refl 0
  | cons a as ih =>
    cases a with
    | start op =>
      have := ih (match op with
        | .asyncConnect _ _ _ => { s with outputSock := true }
        | _ => s)
      simp only [runOutput, started_start, List.length_cons, reach, List.countP_cons_of_pos]
      exact Nat.succ_le_succ this
    | emit e =>
      cases e with
      | connected cr =>
        have h1 := connected_single addressText s cr
        have h2 := ih (handleConnectOutput addressText s cr).1
        simp only [runOutput, started_append, List.length_append, reach, List.countP_cons_of_pos]
        simp only [reach] at h2
        omega
      | assertFailed => exact ih s
      | badFunctionCall => exact ih s

theorem request_single (s : Session) (err : ErrorCode) :
    (started (handleReadConnectRequest addressText s err).2).length ≤ 1 := by
  simp only [handleReadConnectRequest, started_emitThat]
  split_ifs
  · simp
  · exact (runOutput_single addressText _ _).trans (reach_connectThroughChain _ _)

theorem done_single (op : Op) (res : Completion) (s : Session) :
    (started (done addressText op res s).2).length ≤ 1 := by
  cases op with
  | readConnectRequest => exact request_single addressText _ _
  | writeConnectResponse r => simp [done, responseWritten_idle]
  | output op => exact (runOutput_single addressText _ _).trans (reach_done _ _ _)

/-- The session as an object of its input and of what its output waits for. -/
def session : Sequential Session Op Completion Event where
  done := done addressText
  single := done_single addressText

end AddressText

end Session
end ProxySwiss
