import ProxySwiss.CallbackObject
import ProxySwiss.ClientSessionSocks5

/-!
# The output of a session

An output connects its socket to the first proxy of the configured chain, or
to the destination when the chain is empty, and then asks every proxy for the
next one. The position is kept in the object and, once more, in the index
that is bound into every callback.
-/

set_option autoImplicit false

namespace ProxySwiss
open Memory CallbackObject

inductive ClientProxyType where
  | socks5
  deriving DecidableEq, Repr

structure ProxyClientInfo where
  proxyClientType : ClientProxyType := .socks5
  proxyAddress : Destination
  proxyCreds : Credentials := {}

/-- The number of elements of a vector is a `size_t`. -/
structure OutputConfig where
  proxyChain : List ProxyClientInfo
  fits : proxyChain.length < 2^64

def OutputConfig.direct : OutputConfig := ⟨[],by decide⟩

def createClientSession (type : ClientProxyType) (creds : Credentials) :
    ClientSessionSocks5.Session :=
  match type with
  | .socks5 => { creds := creds }

structure Output where
  cfgOutput : OutputConfig
  chain : List ClientSessionSocks5.Session
  userConnectHandler : Bool := false
  finalDst : Destination := {}
  resolver : Bool := false
  curProxy : ℕ := 0
  connResp : ConnectResponse := {}

namespace Output

def kNoIndex : ℕ := 2^64-1

structure ConnectResult where
  success : Bool := false
  err : ErrorCode := .noError
  chainFailIndex : ℕ := kNoIndex
  connResp : ConnectResponse := {}
  deriving DecidableEq, Repr

/-- `hop` is the client session that is called; `index` is bound to the
callback. -/
inductive Op where
  | asyncResolve (hostname : Bytes) (port : UInt16) (index : ℕ)
  | asyncConnect (address : Address) (port : UInt16) (index : ℕ)
  | writeConnectRequest (hop : ℕ) (dst : Destination) (index : ℕ)
  | readConnectResponse (hop : ℕ) (index : ℕ)
  deriving DecidableEq

/-- What an operation reports: a resolver its first endpoint, a hop the
response it stores when it reports no error. -/
structure Outcome where
  err : ErrorCode := .noError
  address : Address := default
  connResp : ConnectResponse := {}

/-- A call of an empty handler throws. -/
inductive Event where
  | connected (cr : ConnectResult)
  | assertFailed
  | badFunctionCall
  deriving DecidableEq, Repr

abbrev Effect := Output × List (Action Op Event)

def createChain (cfg : OutputConfig) : List ClientSessionSocks5.Session :=
  cfg.proxyChain.map fun info => createClientSession info.proxyClientType info.proxyCreds

def create (cfg : OutputConfig) : Output := { cfgOutput := cfg, chain := createChain cfg }

def assertThat (holds : Bool) (r : Effect) : Effect :=
  if holds then r else (r.1,.emit .assertFailed::r.2)

def callAndClearHandler (s : Output) (cr : ConnectResult) : Effect :=
  if s.userConnectHandler then
    ({ s with userConnectHandler := false },[.emit (.connected cr)])
  else (s,[.emit .badFunctionCall])

/-- The address of the proxy at a position of the configured chain. -/
def proxyAddress (cfg : OutputConfig) (i : ℕ) : Destination :=
  (cfg.proxyChain[i]?.map ProxyClientInfo.proxyAddress).getD {}

def connectThroughChain (s : Output) (dst : Destination) : Effect :=
  assertThat (!s.userConnectHandler) <|
    let s := { s with finalDst := dst, userConnectHandler := true, curProxy := 0 }
    if s.chain.isEmpty then
      if dst.usingHostname then
        ({ s with resolver := true },[.start (.asyncResolve dst.hostname s.finalDst.port kNoIndex)])
      else (s,[.start (.asyncConnect dst.ipAddress dst.port kNoIndex)])
    else
      let firstProxy := proxyAddress s.cfgOutput 0
      if firstProxy.usingHostname then
        ({ s with resolver := true },
          [.start (.asyncResolve firstProxy.hostname firstProxy.port 0)])
      else (s,[.start (.asyncConnect firstProxy.ipAddress firstProxy.port 0)])

def handleResolve (s : Output) (err : ErrorCode) (address : Address) (port : UInt16)
    (index : ℕ) : Effect :=
  let s := { s with resolver := false }
  if err.failed then callAndClearHandler s ⟨false,err,index,{}⟩
  else (s,[.start (.asyncConnect address port index)])

def connectNext (s : Output) (err : ErrorCode) (index : ℕ) : Effect :=
  if err.failed then callAndClearHandler s ⟨false,err,index,{}⟩
  else if s.curProxy = s.chain.length then callAndClearHandler s { success := true }
  else assertThat (s.curProxy < s.chain.length) <|
    let nextDst :=
      if (s.curProxy+1) % 2^64 < s.chain.length then
        proxyAddress s.cfgOutput ((s.curProxy+1) % 2^64)
      else s.finalDst
    (s,[.start (.writeConnectRequest s.curProxy nextDst index)])

def handleConnect (s : Output) (err : ErrorCode) (index : ℕ) : Effect :=
  connectNext s err index

def handleWriteConnectRequest (s : Output) (err : ErrorCode) (index : ℕ) : Effect :=
  if err.failed then callAndClearHandler s ⟨false,err,index,{}⟩
  else (s,[.start (.readConnectResponse s.curProxy index)])

def handleReadConnectResponse (s : Output) (err : ErrorCode) (index : ℕ) : Effect :=
  if err.failed then callAndClearHandler s ⟨false,err,index,{}⟩
  else if s.connResp.major ≠ .succeeded then
    callAndClearHandler s ⟨false,.noError,index,s.connResp⟩
  else connectNext { s with curProxy := (s.curProxy+1) % 2^64 } .noError ((index+1) % 2^64)

def done (op : Op) (res : Outcome) (s : Output) : Effect :=
  match op with
  | .asyncResolve _ port index => handleResolve s res.err res.address port index
  | .asyncConnect _ _ index => handleConnect s res.err index
  | .writeConnectRequest _ _ index => handleWriteConnectRequest s res.err index
  | .readConnectResponse _ index =>
    let s := if res.err.failed then s else { s with connResp := res.connResp }
    handleReadConnectResponse s res.err index

@[simp] theorem started_assertThat (holds : Bool) (r : Effect) :
    started (assertThat holds r).2 = started r.2 := by
  cases holds <;> rfl

@[simp] theorem started_call (s : Output) (cr : ConnectResult) :
    started (callAndClearHandler s cr).2 = [] := by
  unfold callAndClearHandler
  split <;> rfl

theorem connectNext_single (s : Output) (err : ErrorCode) (index : ℕ) :
    (started (connectNext s err index).2).length ≤ 1 := by
  unfold connectNext
  split_ifs <;> simp

theorem done_single (op : Op) (res : Outcome) (s : Output) :
    (started (done op res s).2).length ≤ 1 := by
  cases op with
  | asyncResolve _ port index =>
    simp only [done, handleResolve]
    split_ifs <;> simp
  | asyncConnect _ _ index => exact connectNext_single s res.err index
  | writeConnectRequest _ _ index =>
    simp only [done, handleWriteConnectRequest]
    split_ifs <;> simp
  | readConnectResponse _ index =>
    simp only [done, handleReadConnectResponse]
    split_ifs <;> first | exact connectNext_single _ _ _ | simp

/-- The output as an object of its resolver, its socket and its hops. -/
def output : Sequential Output Op Outcome Event where
  done := done
  single := done_single

end Output
end ProxySwiss
