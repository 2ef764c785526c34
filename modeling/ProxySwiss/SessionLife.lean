import ProxySwiss.AfterCall
import ProxySwiss.Ownership
import ProxySwiss.SessionTunnel

/-!
# The life of a session

A session is put together with its output, the client sessions of its chain and
the server session of its input, and every operation that is outstanding for
one of them is listed. The server owns the session until it accepts the next
connection. From then on the owners are the handlers that are bound to the
session: those that are stored, those that an operation carries, and the copies
that are being called. The handlers of a hop are bound to the output, which is
a part of the session, and own nothing. Calls are nested as in the source.
-/

set_option autoImplicit false

namespace ProxySwiss.SessionLife
open Memory TransitionSystem CallbackObject Ownership
open Session (Session)

/-- What the input has created for a proxy server. -/
inductive ServerSession where
  | socks5 (s : ServerSessionSocks5.Session)
  | https (s : ServerSessionHttps.Session)

def createServerSession : ServerProxyType → ServerSession
  | .socks5 => .socks5 {}
  | .https => .https {}

/-- `index` is bound to the handler that a hop will call. -/
inductive Op where
  | output (op : Output.Op)
  | hop (i index : ℕ) (op : StreamObject.Op UInt8 ClientSessionSocks5.Callback)
  | socks5 (op : StreamObject.Op UInt8 ServerSessionSocks5.Callback)
  | https (op : StreamObject.Op UInt8 ServerSessionHttps.Callback)
  | tunnel (op : SessionTunnel.Op)

/-- What a server session does to its user. -/
inductive Call where
  | readReq (err : ErrorCode)
  | writeResp (err : ErrorCode)
  | assertFailed

structure World where
  sess : Session
  srvSess : Option ServerSession
  sessSptr : Bool := true
  pending : List Op := []

abbrev Life := Held World

/-- The operations of a tunnel carry a pointer to the session, and the write of
an HTTPS response carries the handler that it calls. -/
def Op.owner : Op → Bool
  | .https (.write _ .writeConnectResponseHandler) => true
  | .tunnel _ => true
  | _ => false

def ServerSession.handlers : ServerSession → ℕ
  | .socks5 s => s.userReadReqHandler.toNat+s.userWriteRespHandler.toNat
  | .https s => s.userReadReqHandler.toNat

/-- The owners of the session that are not in a frame. -/
def stored (w : World) : ℕ :=
  w.sessSptr.toNat+(w.srvSess.map ServerSession.handlers).getD 0+
    w.sess.output.userConnectHandler.toNat+w.pending.countP Op.owner

namespace World

def create (cfg : Config) (printProxyErrors : Bool) (log history : List Bytes) : World where
  sess := { Session.create cfg with
    printProxyErrors := printProxyErrors
    log := log
    history := history }
  srvSess := (Input.create cfg.input).srvSess.map createServerSession

def start (w : World) (op : Op) : World := { w with pending := w.pending ++ [op] }

def setSess (w : World) (s : Session) : World := { w with sess := s }

def setOutput (w : World) (out : Output) : World := w.setSess { w.sess with output := out }

/-- The variable of the user of a hop is that of the output. -/
def hop (w : World) (i : ℕ) : ClientSessionSocks5.Session :=
  { w.sess.output.chain.getD i {} with connResp := w.sess.output.connResp }

def setHop (w : World) (i : ℕ) (s : ClientSessionSocks5.Session) : World :=
  w.setOutput { w.sess.output with
    chain := w.sess.output.chain.set i s
    connResp := s.connResp }

/-- The variable of the user of a server session is that of the session. -/
def server (w : World) : Option ServerSession :=
  w.srvSess.map fun srv => match srv with
    | .socks5 s => .socks5 { s with userDst := w.sess.dst }
    | .https s => .https { s with userDst := w.sess.dst }

def setServer (w : World) (srv : ServerSession) : World :=
  let dst := match srv with
    | .socks5 s => s.userDst
    | .https s => s.userDst
  { w with sess := { w.sess with dst := dst }, srvSess := some srv }

/-- An operation of the output; a connect opens the socket. -/
def launch (w : World) (op : Output.Op) : World :=
  match op with
  | .asyncConnect _ _ _ => (w.setSess { w.sess with outputSock := true }).start (.output op)
  | _ => w.start (.output op)

end World

/-! The tunnel. -/

def tunnelDoes (r : SessionTunnel.Effect) : Life → Life :=
  Held.modify fun w =>
    { w with sess := r.1, pending := w.pending ++ (started r.2).map .tunnel }

def makeTunnel (m : Life) : Life := tunnelDoes (SessionTunnel.makeTunnel m.state.sess) m

def closeAll : Life → Life := Held.modify fun w => w.setSess (Session.closeAll w.sess)

/-! The response to the input. -/

def handleWriteConnectResponse (err : ErrorCode) (m : Life) : Life :=
  if err.failed then closeAll m
  else if !m.state.sess.outputConnRes.success then closeAll m
  else makeTunnel m

/-- `input::write_connect_response`; a tunnel calls the handler at once. -/
def writeConnectResponse (connResp : ConnectResponse) (m : Life) : Life :=
  match m.state.sess.input.cfgInput with
  | .tunnel _ => handleWriteConnectResponse .noError m
  | .proxyServer _ =>
    match m.state.srvSess with
    | some (.socks5 s) =>
      let (s,as) := ServerSessionSocks5.writeConnectResponse s connResp
      m.modify fun w => { w with
        srvSess := some (.socks5 s)
        pending := w.pending ++ (started as).map .socks5 }
    | some (.https s) =>
      let (s,as) := ServerSessionHttps.writeConnectResponse s connResp
      m.modify fun w => { w with
        srvSess := some (.https s)
        pending := w.pending ++ (started as).map .https }
    | none => m

section AddressText

variable (addressText : Address → Bytes)

/-- The handler that is passed on lives in this frame. -/
def handleConnectOutput (connRes : Output.ConnectResult) (m : Life) : Life :=
  let s := { m.state.sess with outputConnRes := connRes }
  if connRes.success then
    Held.hold (writeConnectResponse ⟨.succeeded⟩)
      (m.modify (·.setSess (Session.remember addressText s)))
  else
    let s := if connRes.err.failed then (Session.printProxyError s connRes).1 else s
    Held.hold (writeConnectResponse (Session.failureResponse connRes)) (m.modify (·.setSess s))

/-! The output and its hops. A hop calls its handler at once if the request is
too long for it. -/

/-- A call of an empty handler throws. -/
def callAndClearHandler (cr : Output.ConnectResult) (m : Life) : Life :=
  if m.state.sess.output.userConnectHandler then
    Held.hold (fun m => handleConnectOutput addressText cr (m.modify fun w =>
      w.setOutput { w.sess.output with userConnectHandler := false })) m
  else m

def readConnectResponse (hop index : ℕ) (m : Life) : Life :=
  let (s,as) := ClientSessionSocks5.readConnectResponse (m.state.hop hop)
  m.modify fun w =>
    { w.setHop hop s with pending := w.pending ++ (started as).map (.hop hop index) }

def handleWriteConnectRequest (err : ErrorCode) (index : ℕ) (m : Life) : Life :=
  if err.failed then callAndClearHandler addressText ⟨false,err,index,{}⟩ m
  else readConnectResponse m.state.sess.output.curProxy index m

def callUser (call : ClientSessionSocks5.UserHandler → ErrorCode → Life → Life) :
    ClientSessionSocks5.Event → Life → Life
  | .call h err => call h err
  | .assertFailed => id

/-- A hop changes and does what it has to do; its handlers own nothing. -/
def hopDoes (hop index : ℕ) (r : ClientSessionSocks5.Effect)
    (call : ClientSessionSocks5.UserHandler → ErrorCode → Life → Life) : Life → Life :=
  Held.enact (fun _ => false) (fun op => Held.modify (·.start (.hop hop index op)))
    (callUser call) (·.setHop hop r.1) r.2

def writeConnectRequest (hop : ℕ) (dst : Destination) (index : ℕ) (m : Life) : Life :=
  hopDoes hop index (ClientSessionSocks5.writeConnectRequest (m.state.hop hop) dst)
    (fun _ err => handleWriteConnectRequest addressText err index) m

def connectNext (err : ErrorCode) (index : ℕ) (m : Life) : Life :=
  let s := m.state.sess.output
  if err.failed then callAndClearHandler addressText ⟨false,err,index,{}⟩ m
  else if s.curProxy = s.chain.length then callAndClearHandler addressText { success := true } m
  else
    let nextDst :=
      if (s.curProxy+1) % 2^64 < s.chain.length then
        Output.proxyAddress s.cfgOutput ((s.curProxy+1) % 2^64)
      else s.finalDst
    writeConnectRequest addressText s.curProxy nextDst index m

def handleResolve (err : ErrorCode) (address : Address) (port : UInt16) (index : ℕ)
    (m : Life) : Life :=
  let m := m.modify fun w => w.setOutput { w.sess.output with resolver := false }
  if err.failed then callAndClearHandler addressText ⟨false,err,index,{}⟩ m
  else m.modify (·.launch (.asyncConnect address port index))

def handleConnect (err : ErrorCode) (index : ℕ) (m : Life) : Life :=
  connectNext addressText err index m

def handleReadConnectResponse (err : ErrorCode) (index : ℕ) (m : Life) : Life :=
  let s := m.state.sess.output
  if err.failed then callAndClearHandler addressText ⟨false,err,index,{}⟩ m
  else if s.connResp.major ≠ .succeeded then
    callAndClearHandler addressText ⟨false,.noError,index,s.connResp⟩ m
  else
    connectNext addressText .noError ((index+1) % 2^64)
      (m.modify (·.setOutput { s with curProxy := (s.curProxy+1) % 2^64 }))

/-- The handlers of a hop are bound to the output. -/
def callOutput (index : ℕ) (h : ClientSessionSocks5.UserHandler) (err : ErrorCode) :
    Life → Life :=
  match h with
  | .writeReq => handleWriteConnectRequest addressText err index
  | .readResp => handleReadConnectResponse addressText err index

/-! The session and its input. -/

/-- The handler of the session is stored by the output. -/
def connectThroughChain (dst : Destination) (m : Life) : Life :=
  let (out,as) := m.state.sess.output.connectThroughChain dst
  m.modify fun w => (started as).foldl World.launch (w.setOutput out)

def handleReadConnectRequest (err : ErrorCode) (m : Life) : Life :=
  if err.failed then closeAll m
  else Held.hold (fun m => connectThroughChain m.state.sess.dst m) m

/-- The handlers of a server session are bound to the session. -/
def Call.owned : Call → Bool
  | .readReq _ | .writeResp _ => true
  | .assertFailed => false

def callSession : Call → Life → Life
  | .readReq err => handleReadConnectRequest err
  | .writeResp err => handleWriteConnectResponse err
  | .assertFailed => id

/-- A server session changes and does what it has to do. -/
def serverDoes (srv : ServerSession) (as : List (Action Op Call)) : Life → Life :=
  Held.enact Call.owned (fun op => Held.modify (·.start op)) callSession (·.setServer srv) as

def ofSocks5 : Action (StreamObject.Op UInt8 ServerSessionSocks5.Callback)
    ServerSessionSocks5.Event → Action Op Call
  | .start op => .start (.socks5 op)
  | .emit (.call .readReq err) => .emit (.readReq err)
  | .emit (.call .writeResp err) => .emit (.writeResp err)
  | .emit .assertFailed => .emit .assertFailed

def ofHttps : Action (StreamObject.Op UInt8 ServerSessionHttps.Callback)
    ServerSessionHttps.Event → Action Op Call
  | .start op => .start (.https op)
  | .emit (.call .readReq err) => .emit (.readReq err)
  | .emit (.call .writeResp err) => .emit (.writeResp err)
  | .emit .assertFailed => .emit .assertFailed

def readConnectRequest (srv : ServerSession) : Life → Life :=
  match srv with
  | .socks5 s =>
    let (s,as) := ServerSessionSocks5.readConnectRequest s
    serverDoes (.socks5 s) (as.map ofSocks5)
  | .https s =>
    let (s,as) := ServerSessionHttps.readConnectRequest s
    serverDoes (.https s) (as.map ofHttps)

/-- `input::read_connect_request`, with the handler in the frame of the call. -/
def start (m : Life) : Life :=
  match m.state.sess.input.cfgInput with
  | .tunnel destination =>
    Held.hold (fun m => handleReadConnectRequest .noError
      (m.modify fun w => w.setSess { w.sess with dst := destination })) m
  | .proxyServer _ =>
    match m.state.server with
    | some srv => Held.hold (readConnectRequest srv) m
    | none => m

/-- The server goes on to its next session. -/
def handleAccept (err : ErrorCode) (m : Life) : Life :=
  (if err.failed then m else start m).modify fun w => { w with sessSptr := false }

/-! What an operation completes in, with its code and with what it has moved. -/

structure Completion where
  err : ErrorCode := .noError
  address : Address := default
  data : Bytes := []

def outputDone (op : Output.Op) (res : Completion) : Life → Life :=
  match op with
  | .asyncResolve _ port index => handleResolve addressText res.err res.address port index
  | .asyncConnect _ _ index => handleConnect addressText res.err index
  | .writeConnectRequest _ _ index => handleWriteConnectRequest addressText res.err index
  | .readConnectResponse _ index => handleReadConnectResponse addressText res.err index

def hopDone (i index : ℕ) (op : StreamObject.Op UInt8 ClientSessionSocks5.Callback)
    (res : Completion) (m : Life) : Life :=
  let s := ClientSessionSocks5.store (m.state.hop i) res.data op.callback
  let r := AfterCall.Client.untilCall op.callback s res.err
  let m := hopDoes i index r (callOutput addressText index) m
  if AfterCall.Client.goesOn op.callback s res.err then
    m.resume stored fun w => w.setHop i (AfterCall.Client.clear (w.hop i))
  else m

/-- The pointer to the variable of the session is cleared. -/
def World.clearDst (w : World) : World :=
  { w with srvSess := w.srvSess.map fun srv => match srv with
      | .socks5 s => .socks5 (AfterCall.Socks5.clear s)
      | .https s => .https (AfterCall.Https.clear s) }

def socks5Done (op : StreamObject.Op UInt8 ServerSessionSocks5.Callback) (res : Completion)
    (m : Life) : Life :=
  match m.state.server with
  | some (.socks5 s) =>
    let s := ServerSessionSocks5.store s res.data op.callback
    let r := AfterCall.Socks5.untilCall op.callback s res.err
    let m := serverDoes (.socks5 r.1) (r.2.map ofSocks5) m
    if AfterCall.Socks5.goesOn op.callback res.err then m.resume stored World.clearDst else m
  | _ => m

section Fuel

variable (fuel : ℕ)

/-- The write of a response carries the handler that it calls. -/
def httpsDone (op : StreamObject.Op UInt8 ServerSessionHttps.Callback) (res : Completion)
    (m : Life) : Life :=
  match m.state.server with
  | some (.https s) =>
    let s := ServerSessionHttps.store s res.data op.callback
    let r := AfterCall.Https.untilCall fuel op.callback s res.err
    let m := serverDoes (.https r.1) (r.2.map ofHttps) m
    if AfterCall.Https.goesOn op.callback s res.err then m.resume stored World.clearDst else m
  | _ => m

def tunnelDone (op : SessionTunnel.Op) (res : Completion) : Life → Life :=
  match op with
  | .readSome _ buf k => Held.hold fun m =>
    tunnelDoes (SessionTunnel.run k (SessionTunnel.fillBuf m.state.sess buf res.data) res.err
      res.data.length) m
  | .write _ _ _ k => Held.hold fun m =>
    tunnelDoes (SessionTunnel.run k m.state.sess res.err res.data.length) m

def done (op : Op) (res : Completion) : Life → Life :=
  match op with
  | .output op => outputDone addressText op res
  | .hop i index op => hopDone addressText i index op res
  | .socks5 op => socks5Done op res
  | .https op => httpsDone fuel op res
  | .tunnel op => tunnelDone op res

/-- What may be moved by an operation that fails and by one that does not. -/
def Allowed (res : Completion) : Op → Prop
  | .output _ => True
  | .hop _ _ op => if res.err.failed then op.Part res.data else op.Whole res.data
  | .socks5 op => if res.err.failed then op.Part res.data else op.Whole res.data
  | .https op => if res.err.failed then op.Part res.data else op.Whole res.data
  | .tunnel (.readSome _ _ _) => res.data.length ≤ 4096
  | .tunnel (.write _ _ numBytes _) => res.data.length ≤ numBytes

/-- The connection is accepted, or one of the operations completes: it leaves the
list, and what it carried is in the frame of its callback. -/
inductive Step : Life → Life → Prop
  | accept (m : Life) (err : ErrorCode) (h : m.state.sessSptr = true) :
      Step m (handleAccept err m)
  | complete (m : Life) (before after : List Op) (op : Op) (res : Completion)
      (hp : m.state.pending = before ++ op::after) (ha : Allowed res op) :
      Step m (done addressText fuel op res
        (m.modify fun w => { w with pending := before ++ after }))

def begun (cfg : Config) (printProxyErrors : Bool) (log history : List Bytes) : Life :=
  ⟨.create cfg printProxyErrors log history,0,[]⟩

end Fuel
end AddressText
end ProxySwiss.SessionLife
