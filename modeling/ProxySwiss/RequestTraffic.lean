import ProxySwiss.RequestOwners
import ProxySwiss.SessionTraffic
import ProxySwiss.RequestLines

/-!
# The traffic of a request

While the client is asked, the session goes along with a run of its server
session by itself, and the input socket has in the ledger what that run has
moved. With the request the output begins, and the server session is left with
nothing but the response that it is going to write.
-/

set_option autoImplicit false

namespace ProxySwiss.RequestTraffic
open Memory CallbackObject StreamObject StreamLedger Ownership SessionLife SessionOwners
  RequestOwners HopReturns SessionTraffic
open SessionTunnel (Side)
open ChainDialogue (hopSession)
open Session (Session)

/-! What completes, as the object on its own is given it. -/

def outcome (res : Completion) : Result UInt8 ErrorCode :=
  if res.err.failed then .error res.err res.data else .ok res.data

@[simp] theorem outcome_data (res : Completion) : (outcome res).data = res.data := by
  unfold outcome
  split_ifs <;> rfl

theorem outcome_code (res : Completion) :
    (outcome res).code .noError = if res.err.failed then res.err else .noError := by
  unfold outcome
  split_ifs <;> rfl

theorem outcome_allowed {κ : Type*} (op : StreamObject.Op UInt8 κ) (res : Completion)
    (h : if res.err.failed then op.Part res.data else op.Whole res.data) :
    StreamObject.Allowed Faults.any.may op (outcome res) := by
  unfold outcome
  split_ifs at h ⊢ with he
  · exact ⟨he,h⟩
  · exact h

theorem socks5_code (k : ServerSessionSocks5.Callback) (s : ServerSessionSocks5.Session)
    (err : ErrorCode) (h : ¬ err.failed) :
    ServerSessionSocks5.run k s err = ServerSessionSocks5.run k s .noError := by
  cases k <;> simp [ServerSessionSocks5.run, ServerSessionSocks5.authReadReqHandler,
    ServerSessionSocks5.authReadReqMethodsHandler, ServerSessionSocks5.authWriteRespHandler,
    ServerSessionSocks5.connReadReqHandler, ServerSessionSocks5.connReadReqAddrIpv4Handler,
    ServerSessionSocks5.connReadReqAddrDomainnameHandler,
    ServerSessionSocks5.connReadReqAddrDomainnameStrHandler,
    ServerSessionSocks5.connReadReqAddrIpv6Handler,
    ServerSessionSocks5.writeConnectResponseHandler, h]

theorem https_code (fuel : ℕ) (k : ServerSessionHttps.LineHandler)
    (s : ServerSessionHttps.Session) (err : ErrorCode) (h : ¬ err.failed) :
    ServerSessionHttps.run fuel (.handleRead k) s err =
      ServerSessionHttps.run fuel (.handleRead k) s .noError := by
  simp [ServerSessionHttps.run, ServerSessionHttps.handleRead, h]

theorem socks5_done (op : StreamObject.Op UInt8 ServerSessionSocks5.Callback)
    (s : ServerSessionSocks5.Session) (res : Completion) :
    ServerSessionSocks5.server.done op (outcome res) s = ServerSessionSocks5.run op.callback
      (ServerSessionSocks5.store s res.data op.callback) res.err := by
  change ServerSessionSocks5.run _ (ServerSessionSocks5.store s (outcome res).data _) _ = _
  rw [outcome_data, outcome_code]
  split_ifs with he
  · rfl
  · exact (socks5_code _ _ _ he).symm

theorem https_done (fuel : ℕ) (op : StreamObject.Op UInt8 ServerSessionHttps.Callback)
    (k : ServerSessionHttps.LineHandler) (s : ServerSessionHttps.Session) (res : Completion)
    (hk : op.callback = .handleRead k) :
    (ServerSessionHttps.server fuel).done op (outcome res) s = ServerSessionHttps.run fuel
      op.callback (ServerSessionHttps.store s res.data op.callback) res.err := by
  change ServerSessionHttps.run fuel _ (ServerSessionHttps.store s (outcome res).data _) _ = _
  rw [outcome_data, outcome_code, hk]
  split_ifs with he
  · rfl
  · exact (https_code fuel k _ _ he).symm

/-! The turn of a server session, by what it starts and whom it calls. -/

theorem emitted_failures (n : ℕ) (as : List (Action SessionLife.Op Call)) :
    emitted (failures n ++ as) = List.replicate n .assertFailed ++ emitted as := by
  rw [emitted_append, failures, emitted_emits]

theorem started_failures (n : ℕ) (as : List (Action SessionLife.Op Call)) :
    started (failures n ++ as) = started as := by
  rw [started_append, failures, started_emits, List.nil_append]

theorem starts_eq (srv : ServerSession) (n : ℕ) (op : SessionLife.Op) (m : Life) :
    serverDoes srv (failures n ++ [.start op]) m =
      Held.modify (fun w => (w.setServer srv).start op) m := by
  rw [serve_eq]
  rfl

theorem hangs_eq (srv : ServerSession) (n : ℕ) (m : Life) :
    serverDoes srv (failures n) m = Held.modify (·.setServer srv) m := by
  rw [← List.append_nil (failures n), serve_eq]
  rfl

theorem calls_eq (srv : ServerSession) (n : ℕ) (err : ErrorCode) (m : Life) :
    serverDoes srv (failures n ++ [.emit (.readReq err)]) m =
      Held.hold (fun m => handleReadConnectRequest err (m.modify (·.setServer srv))) m := by
  rw [serve_eq]
  rfl

/-- Whom a SOCKS5 server session calls, in terms of the session. -/
def ofEvent5 : ServerSessionSocks5.Event → Call
  | .call .readReq err => .readReq err
  | .call .writeResp err => .writeResp err
  | .assertFailed => .assertFailed

def ofEventHttps : ServerSessionHttps.Event → Call
  | .call .readReq err => .readReq err
  | .call .writeResp err => .writeResp err
  | .assertFailed => .assertFailed

theorem event5_request (e : ServerSessionSocks5.Event) (err : ErrorCode)
    (h : ofEvent5 e = .readReq err) : e = .call .readReq err := by
  cases e with
  | assertFailed => exact absurd h Call.noConfusion
  | call k x =>
    cases k with
    | readReq => exact congrArg _ (Call.readReq.inj h)
    | writeResp => exact absurd h Call.noConfusion

theorem ofSocks5_eq : ofSocks5 = Action.map .socks5 ofEvent5 := by
  funext a
  match a with
  | .start op => rfl
  | .emit (.call .readReq _) | .emit (.call .writeResp _) | .emit .assertFailed => rfl

theorem eventHttps_request (e : ServerSessionHttps.Event) (err : ErrorCode)
    (h : ofEventHttps e = .readReq err) : e = .call .readReq err := by
  cases e with
  | assertFailed => exact absurd h Call.noConfusion
  | call k x =>
    cases k with
    | readReq => exact congrArg _ (Call.readReq.inj h)
    | writeResp => exact absurd h Call.noConfusion

theorem ofHttps_eq : ofHttps = Action.map .https ofEventHttps := by
  funext a
  match a with
  | .start op => rfl
  | .emit (.call .readReq _) | .emit (.call .writeResp _) | .emit .assertFailed => rfl

/-! Where the request leaves the session. -/

def handlers (w : World) : ℕ := (w.srvSess.map ServerSession.handlers).getD 0

/-- The server session has no handler left, and is going to write `response`. -/
inductive Answering (w : World) (response : ConnectResponse → Bytes) : Prop
  | tunnel (hs : w.srvSess = none) (hr : response = fun _ => [])
  | socks5 (s : ServerSessionSocks5.Session) (hs : w.srvSess = some (.socks5 s))
      (hread : s.userReadReqHandler = false) (hwrite : s.userWriteRespHandler = false)
      (hr : response = ServerSocks5Run.response)
  | https (s : ServerSessionHttps.Session) (hs : w.srvSess = some (.https s))
      (hread : s.userReadReqHandler = false) (hr : response = httpsResponse s.httpVer)

theorem answering_handlers (w : World) (response : ConnectResponse → Bytes)
    (h : Answering w response) : handlers w = 0 := by
  cases h with
  | tunnel hs hr => simp [handlers, hs]
  | socks5 s hs hread hwrite hr => simp [handlers, hs, ServerSession.handlers, hread, hwrite]
  | https s hs hread hr => simp [handlers, hs, ServerSession.handlers, hread]

theorem answering_frame (v w : World) (response : ConnectResponse → Bytes)
    (h : Answering v response) (hs : w.srvSess = v.srvSess) : Answering w response := by
  cases h with
  | tunnel h hr => exact .tunnel (hs.trans h) hr
  | socks5 s h hread hwrite hr => exact .socks5 s (hs.trans h) hread hwrite hr
  | https s h hread hr => exact .https s (hs.trans h) hread hr

theorem answering_clear (w : World) (response : ConnectResponse → Bytes)
    (h : Answering w response) : Answering w.clearDst response := by
  cases h with
  | tunnel hs hr => exact .tunnel (by simp [World.clearDst, hs]) hr
  | socks5 s hs hread hwrite hr =>
    exact .socks5 (AfterCall.Socks5.clear s) (by simp [World.clearDst, hs]) hread hwrite hr
  | https s hs hread hr =>
    exact .https (AfterCall.Https.clear s) (by simp [World.clearDst, hs]) hread hr

/-- Nothing is outstanding and no handler is stored. -/
structure Gone (cfg : Config) (b : Bool) (w : World) : Prop where
  wired : Wired cfg b w
  idle : w.pending = []
  handlers : handlers w = 0
  handler : w.sess.output.userConnectHandler = false

/-- What the client has asked for, and what the ledger has of its socket. -/
structure Understood (fuel : ℕ) (cfg : Config) (w : World) (l : Traffic) (dst : Destination)
    (asked answered : Bytes) (response : ConnectResponse → Bytes) : Prop where
  requested : Requested fuel cfg.input dst asked answered response
  answering : Answering w response
  taken : l.taken .input = asked
  sent : l.sent .input = answered

def Silent (l : Traffic) : Prop := l.taken .output = [] ∧ l.sent .output = []

/-- The output looks for its first stop, and no hop has been used. -/
structure Opened (fuel : ℕ) (cfg : Config) (b : Bool) (w : World) (l : Traffic)
    (dst : Destination) (asked answered : Bytes) (response : ConnectResponse → Bytes) :
    Prop where
  opening : Opening cfg b dst w
  hops : w.sess.output.chain = (Output.create cfg.output).chain
  understood : Understood fuel cfg w l dst asked answered response
  silent : Silent l

/-- The client is asked by a SOCKS5 server session. -/
structure Reading5 (cfg : Config) (b : Bool) (w : World) (l : Traffic)
    (s : ServerSessionSocks5.Session) (c : ServerSocks5Run.ServerState)
    (op : StreamObject.Op UInt8 ServerSessionSocks5.Callback) : Prop where
  fresh : Fresh cfg b { w with pending := [] }
  kind : cfg.input = .proxyServer .socks5
  server : w.srvSess = some (.socks5 s)
  obj : c.obj = { s with userDst := w.sess.dst }
  listens : ServerSocks5Run.Listens .any {} c
  writer : s.userWriteRespHandler = false
  told : StreamObject.sent c <+: [5,0]
  pending : c.pending = [op]
  waits : w.pending = [.socks5 op]
  carries : Carries l .input [] [] c
  silent : Silent l

structure ReadingHttps (fuel : ℕ) (cfg : Config) (b : Bool) (w : World) (l : Traffic)
    (s : ServerSessionHttps.Session) (c : ServerHttpsRun.ServerState)
    (op : StreamObject.Op UInt8 ServerSessionHttps.Callback) : Prop where
  fresh : Fresh cfg b { w with pending := [] }
  kind : cfg.input = .proxyServer .https
  server : w.srvSess = some (.https s)
  obj : c.obj = { s with userDst := w.sess.dst }
  stage : HttpsReading.Stage fuel .any {} c
  pending : c.pending = [op]
  waits : w.pending = [.https op]
  carries : Carries l .input [] [] c
  silent : Silent l

/-- The parser does not come back from the first line, and no handler is called. -/
structure Hung (fuel : ℕ) (cfg : Config) (w : World) (first : Bytes) : Prop where
  wired : Wired cfg false w
  kind : cfg.input = .proxyServer .https
  parsed : HttpsReading.Parsed fuel {} first none
  idle : w.pending = []
  armed : 0 < handlers w

/-- How far a callback of the SOCKS5 server session is from the request. -/
def rank : ServerSessionSocks5.Callback → ℕ
  | .authReadReqHandler => 6
  | .authReadReqMethodsHandler => 5
  | .authWriteRespHandler => 4
  | .connReadReqHandler => 3
  | .connReadReqAddrDomainnameHandler => 2
  | .connReadReqAddrIpv4Handler | .connReadReqAddrDomainnameStrHandler
  | .connReadReqAddrIpv6Handler => 1
  | .writeConnectResponseHandler => 0

/-- Where the request leaves the session; over SOCKS5 it is nearer than `n`. -/
inductive Turned (fuel : ℕ) (cfg : Config) (b : Bool) (w : World) (l : Traffic) (n : ℕ) : Prop
  | socks5 (s : ServerSessionSocks5.Session) (c : ServerSocks5Run.ServerState)
      (op : StreamObject.Op UInt8 ServerSessionSocks5.Callback) (h : Reading5 cfg b w l s c op)
      (hn : rank op.callback < n)
  | https (s : ServerSessionHttps.Session) (c : ServerHttpsRun.ServerState)
      (op : StreamObject.Op UInt8 ServerSessionHttps.Callback)
      (h : ReadingHttps fuel cfg b w l s c op)
  | opened (dst : Destination) (asked answered : Bytes) (response : ConnectResponse → Bytes)
      (h : Opened fuel cfg b w l dst asked answered response)
  | refused (h : Gone cfg b w) (hi : l.sent .input <+: [5,0]) (ho : Silent l)
  | hung (first : Bytes) (h : Hung fuel cfg w first) (ht : l.taken .input = first)
      (hi : l.sent .input = []) (ho : Silent l)

theorem foldl_launch (ops : List Output.Op) (w : World) :
    (ops.foldl World.launch w).srvSess = w.srvSess ∧
      (ops.foldl World.launch w).sess.output = w.sess.output := by
  induction ops generalizing w with
  | nil => exact ⟨rfl,rfl⟩
  | cons op ops ih =>
    have h : (w.launch op).srvSess = w.srvSess ∧ (w.launch op).sess.output = w.sess.output := by
      cases op <;> exact ⟨rfl,rfl⟩
    exact ⟨(ih _).1.trans h.1,(ih _).2.trans h.2⟩

theorem connect_frame (dst : Destination) (m : Life) :
    (connectThroughChain dst m).state.srvSess = m.state.srvSess ∧
      (connectThroughChain dst m).state.sess.output.chain = m.state.sess.output.chain := by
  obtain ⟨hs,ho⟩ := foldl_launch (started (m.state.sess.output.connectThroughChain dst).2)
    (m.state.setOutput (m.state.sess.output.connectThroughChain dst).1)
  exact ⟨hs,(congrArg Output.chain ho).trans (connect_chain _ _)⟩

/-- With the request the output begins, and the server session is left alone. -/
theorem request_opened (cfg : Config) (b : Bool) (m : Life) (hf : Fresh cfg b m.state)
    (hd : ∀ d, cfg.input = .tunnel d → m.state.sess.dst = d) :
    Held.Brings (handleReadConnectRequest .noError) m fun w =>
      Opening cfg b m.state.sess.dst w ∧ w.srvSess = m.state.srvSess ∧
        w.sess.output.chain = (Output.create cfg.output).chain := by
  have hframe := connect_frame m.state.sess.dst { m with locals := m.locals+1 }
  refine (request_opens cfg b m hf hd).and ?_
  rw [handleReadConnectRequest, if_neg ErrorCode.noError_failed]
  exact ⟨hframe.1,hframe.2.trans (congrArg Output.chain hf.output)⟩

theorem request_gone (cfg : Config) (b : Bool) (err : ErrorCode) (m : Life)
    (hf : Fresh cfg b m.state) (he : err.failed) (hh : handlers m.state = 0) :
    Held.Brings (handleReadConnectRequest err) m (Gone cfg b) := by
  refine ((closed_brings cfg b m hf.wired).mono fun w h => ?_).of_eq (if_pos he)
  obtain ⟨hw,hp,hs,ho⟩ := h
  refine ⟨hw,hp.trans hf.idle,?_,?_⟩
  · rw [handlers, hs]
    exact hh
  · rw [ho, hf.output]
    rfl

theorem opening_clear (cfg : Config) (b : Bool) (t : ServerProxyType) (dst : Destination)
    (w : World) (ht : cfg.input = .proxyServer t) (h : Opening cfg b dst w) :
    Opening cfg b dst w.clearDst := by
  obtain ⟨⟨hw,hs,hc,hd,-⟩,hp⟩ := h
  obtain ⟨srv,hsrv⟩ := hw.server t ht
  have hsome : w.srvSess = some srv := hsrv
  refine ⟨⟨⟨hw.sptr,hw.input,fun d hd => absurd hd (not_tunnel cfg t d ht),fun _ _ => ?_⟩,hs,hc,
    hd,rfl⟩,hp⟩
  simp [World.clearDst, hsome]

/-! What a server session leaves when it has called its user. -/

theorem called_opened (cfg : Config) (b : Bool) (t : ServerProxyType) (srv : ServerSession)
    (n : ℕ) (response : ConnectResponse → Bytes) (m : Life) (ht : cfg.input = .proxyServer t)
    (hf : Fresh cfg b m.state) (ha : Answering (m.state.setServer srv) response) :
    Held.Brings (serverDoes srv (failures n ++ [.emit (.readReq .noError)])) m fun w =>
      Opening cfg b (m.state.setServer srv).sess.dst w ∧ Answering w response ∧
        w.sess.output.chain = (Output.create cfg.output).chain := by
  refine (Held.brings_hold _ m _ ?_).of_eq (calls_eq srv n .noError m)
  refine ((request_opened cfg b (Held.modify (·.setServer srv) { m with locals := m.locals+1 })
    (served_fresh cfg b t m.state srv ht hf) fun d hd => absurd hd (not_tunnel cfg t d ht)).mono
      fun w h => ?_).after _ rfl
  exact ⟨h.1,answering_frame _ w response ha h.2.1,h.2.2⟩

theorem called_gone (cfg : Config) (b : Bool) (t : ServerProxyType) (srv : ServerSession)
    (n : ℕ) (err : ErrorCode) (m : Life) (ht : cfg.input = .proxyServer t)
    (hf : Fresh cfg b m.state) (he : err.failed) (hh : srv.handlers = 0) :
    Held.Brings (serverDoes srv (failures n ++ [.emit (.readReq err)])) m (Gone cfg b) := by
  refine (Held.brings_hold _ m _ ?_).of_eq (calls_eq srv n err m)
  exact (request_gone cfg b err (Held.modify (·.setServer srv) { m with locals := m.locals+1 })
    (served_fresh cfg b t m.state srv ht hf) he hh).after _ rfl

/-- The pointer is cleared behind a call that was made with the request. -/
theorem turn_leaves (goes : Bool) (srv : ServerSession) (as : List (Action SessionLife.Op Call))
    (m : Life) (body : Life → Life) (Q : World → Prop)
    (hbody : body m = if goes then (serverDoes srv as m).resume stored World.clearDst
      else serverDoes srv as m)
    (h : Held.Brings (serverDoes srv as) m fun w => if goes then Q w.clearDst else Q w) :
    Held.Leaves body m Q := by
  cases goes with
  | true => exact (Held.leaves_resume stored World.clearDst h).of_eq hbody
  | false => exact h.leaves.of_eq hbody

theorem gone_clear (cfg : Config) (b : Bool) (t : ServerProxyType) (w : World)
    (ht : cfg.input = .proxyServer t) (h : Gone cfg b w) : Gone cfg b w.clearDst := by
  obtain ⟨srv,hsrv⟩ := h.wired.server t ht
  have hhandlers : handlers w.clearDst = handlers w := by
    cases srv <;> simp [handlers, World.clearDst, hsrv, ServerSession.handlers,
      AfterCall.Socks5.clear, AfterCall.Https.clear]
  refine ⟨⟨h.wired.sptr,h.wired.input,fun d hd => absurd hd (not_tunnel cfg t d ht),fun _ _ => ?_⟩,
    h.idle,hhandlers.trans h.handlers,h.handler⟩
  simp [World.clearDst, hsrv]

/-- The turn of a server session, by what it starts and by whom it calls. -/
theorem server_turns (cfg : Config) (b goes : Bool) (t : ServerProxyType) (srv : ServerSession)
    (as : List (Action SessionLife.Op Call)) (m : Life) (body : Life → Life) (Q : World → Prop)
    (ht : cfg.input = .proxyServer t) (hf : Fresh cfg b m.state) (h : Served srv goes as)
    (hbody : body m = if goes then (serverDoes srv as m).resume stored World.clearDst
      else serverDoes srv as m)
    (hstart : ∀ op, started as = [op] → goes = false ∧ Q ((m.state.setServer srv).start op))
    (hhang : started as = [] → (∀ err, .readReq err ∉ emitted as) →
      goes = false ∧ Q (m.state.setServer srv))
    (hcall : ∀ err, .readReq err ∈ emitted as →
      (err.failed ∧ srv.handlers = 0 ∧ ∀ v, Gone cfg b v → Q v) ∨
      err = .noError ∧ ∃ response, Answering (m.state.setServer srv) response ∧
        ∀ v, Opening cfg b (m.state.setServer srv).sess.dst v → Answering v response →
          v.sess.output.chain = (Output.create cfg.output).chain → Q v) :
    Held.Leaves body m Q := by
  apply turn_leaves goes srv as m body Q hbody
  cases h with
  | hangs n hr ha =>
    subst hr
    have hno : ∀ err, Call.readReq err ∉ emitted (failures n) := by
      intro err herr
      rw [failures, emitted_emits] at herr
      exact absurd (List.eq_of_mem_replicate herr) (by simp)
    have hs : started (failures n) = [] := by rw [failures, started_emits]
    obtain ⟨rfl,hq⟩ := hhang hs hno
    exact (Held.brings_modify _ m _ hq).of_eq (hangs_eq srv n m)
  | starts n op hr ha hk =>
    subst hr
    obtain ⟨rfl,hq⟩ := hstart op (by rw [started_failures]; rfl)
    exact (Held.brings_modify _ m _ hq).of_eq (starts_eq srv n op m)
  | calls n err hr hg =>
    subst hr
    have herr : .readReq err ∈ emitted (failures n ++ [.emit (.readReq err)]) := by
      rw [emitted_failures]
      exact List.mem_append_right _ (List.mem_singleton_self _)
    rcases hcall err herr with ⟨he,hh,hq⟩ | ⟨rfl,response,hans,hq⟩
    · refine (called_gone cfg b t srv n err m ht hf he hh).mono fun v hv => ?_
      split_ifs
      · exact hq _ (gone_clear cfg b t v ht hv)
      · exact hq v hv
    · refine (called_opened cfg b t srv n response m ht hf hans).mono fun v hv => ?_
      split_ifs
      · exact hq _ (opening_clear cfg b t _ v ht hv.1) (answering_clear v _ hv.2.1) hv.2.2
      · exact hq v hv.1 hv.2.1 hv.2.2

/-! The SOCKS5 server session. -/

section Socks5

open ServerSessionSocks5

theorem until_actions (k : Callback) (s : ServerSessionSocks5.Session) (err : ErrorCode) :
    (AfterCall.Socks5.untilCall k s err).2 = (run k s err).2 := by
  unfold AfterCall.Socks5.untilCall
  split_ifs <;> rfl

theorem until_fields (k : Callback) (s : ServerSessionSocks5.Session) (err : ErrorCode) :
    (AfterCall.Socks5.untilCall k s err).1.userDst = (run k s err).1.userDst ∧
      (AfterCall.Socks5.untilCall k s err).1.userReadReqHandler =
        (run k s err).1.userReadReqHandler ∧
      (AfterCall.Socks5.untilCall k s err).1.userWriteRespHandler =
        (run k s err).1.userWriteRespHandler := by
  unfold AfterCall.Socks5.untilCall
  split_ifs <;> exact ⟨rfl,rfl,rfl⟩

theorem call_writer (s : ServerSessionSocks5.Session) (err : ErrorCode) :
    (ServerSessionSocks5.callAndClearHandler s .readReq err).1.userWriteRespHandler =
      s.userWriteRespHandler := by
  unfold ServerSessionSocks5.callAndClearHandler
  split_ifs <;> rfl

theorem deliver_writer (s : ServerSessionSocks5.Session) (asserted : Bool) :
    (deliver s asserted).1.userWriteRespHandler = s.userWriteRespHandler := by
  have h := call_writer s .noError
  cases asserted <;> exact h

/-- The handler of the response is not touched while a request is read. -/
theorem run_writer (k : Callback) (s : ServerSessionSocks5.Session) (err : ErrorCode)
    (hk : k ≠ .writeConnectResponseHandler) :
    (run k s err).1.userWriteRespHandler = s.userWriteRespHandler := by
  cases k <;>
    simp only [run, authReadReqHandler, authReadReqMethodsHandler, authWriteRespHandler,
      connReadReqHandler, connReadReqAddrIpv4Handler, connReadReqAddrDomainnameHandler,
      connReadReqAddrDomainnameStrHandler, connReadReqAddrIpv6Handler]
  case writeConnectResponseHandler => exact absurd rfl hk
  all_goals
    split_ifs <;> first
      | rfl
      | exact call_writer _ _
      | exact deliver_writer _ _

theorem deliver_reader (s : ServerSessionSocks5.Session) (asserted : Bool) :
    (deliver s asserted).1.userReadReqHandler = false := by
  have h : (ServerSessionSocks5.callAndClearHandler s .readReq
      .noError).1.userReadReqHandler = false := by
    unfold ServerSessionSocks5.callAndClearHandler
    cases hs : s.userReadReqHandler <;> simp [hs]
  cases asserted <;> exact h

/-- A callback that starts nothing has called the handler and cleared it. -/
theorem run_reader (k : Callback) (s : ServerSessionSocks5.Session) (err : ErrorCode)
    (hk : k ≠ .writeConnectResponseHandler) (h : started (run k s err).2 = []) :
    (run k s err).1.userReadReqHandler = false := by
  have hcall : ∀ (t : ServerSessionSocks5.Session) (e : ErrorCode),
      (ServerSessionSocks5.callAndClearHandler t .readReq e).1.userReadReqHandler = false := by
    intro t e
    unfold ServerSessionSocks5.callAndClearHandler
    cases ht : t.userReadReqHandler <;> simp [ht]
  revert h
  cases k <;>
    simp only [run, authReadReqHandler, authReadReqMethodsHandler, authWriteRespHandler,
      connReadReqHandler, connReadReqAddrIpv4Handler, connReadReqAddrDomainnameHandler,
      connReadReqAddrDomainnameStrHandler, connReadReqAddrIpv6Handler]
  case writeConnectResponseHandler => exact absurd rfl hk
  all_goals
    split_ifs <;> first
      | exact fun _ => hcall _ _
      | exact fun _ => deliver_reader _ _
      | exact fun h => absurd h (List.cons_ne_nil _ _)

/-- Every callback leads on to the request. -/
theorem run_rank (k : Callback) (s : ServerSessionSocks5.Session) (err : ErrorCode)
    (op : StreamObject.Op UInt8 Callback) (h : op ∈ started (run k s err).2) :
    rank op.callback < rank k := by
  have hcall : ∀ (t : ServerSessionSocks5.Session) (u : UserHandler) (e : ErrorCode),
      op ∉ started (ServerSessionSocks5.callAndClearHandler t u e).2 := by
    intro t u e hop
    rw [call_idle] at hop
    exact absurd hop List.not_mem_nil
  have hdeliver : ∀ (t : ServerSessionSocks5.Session) (asserted : Bool),
      op ∉ started (deliver t asserted).2 := by
    intro t asserted hop
    rw [deliver_idle] at hop
    exact absurd hop List.not_mem_nil
  revert h
  cases k <;>
    simp only [run, authReadReqHandler, authReadReqMethodsHandler, authWriteRespHandler,
      connReadReqHandler, connReadReqAddrIpv4Handler, connReadReqAddrDomainnameHandler,
      connReadReqAddrDomainnameStrHandler, connReadReqAddrIpv6Handler,
      writeConnectResponseHandler] <;>
    split_ifs <;> intro h <;> first
      | exact absurd h (hcall _ _ _)
      | exact absurd h (hdeliver _ _)
      | (rw [List.mem_singleton.mp h]; exact Nat.le_of_ble_eq_true rfl)

/-- While the request is read nothing but the answer to the greeting is written. -/
theorem told_next (c : ServerSocks5Run.ServerState)
    (op : StreamObject.Op UInt8 Callback) (res : Result UInt8 ErrorCode)
    (h : ServerSocks5Run.Listens .any {} c) (hp : c.pending = [op])
    (ha : StreamObject.Allowed Faults.any.may op res) (ht : StreamObject.sent c <+: [5,0]) :
    StreamObject.sent c ++ op.handed res.data <+: [5,0] := by
  have hread : ∀ n k, op = .read n k → StreamObject.sent c ++ op.handed res.data <+: [5,0] := by
    rintro n k rfl
    rwa [handed_read, List.append_nil]
  cases h with
  | answer g hg hl h =>
    obtain rfl := List.singleton_inj.mp (hp.symm.trans h.pending)
    rw [h.sent]
    exact allowed_part _ _ _ ha
  | answered g rsv atyp field hg hs h => exact absurd (hp.symm.trans h.pending) (by simp)
  | failed err t u herr ho why h => exact absurd (hp.symm.trans h.pending) (by simp)
  | greeting hl h | methods n hl hm h | header g hg hl h | ipv4 g rsv hg hl h
  | length g rsv hg hl h | domainname g rsv len hg hl hlen h | ipv6 g rsv hg hl h =>
    exact hread _ _ (List.singleton_inj.mp (hp.symm.trans h.pending))

/-- A request that is read has an operation outstanding, and no one was called. -/
theorem listens_waits (c : ServerSocks5Run.ServerState) (op : StreamObject.Op UInt8 Callback)
    (h : ServerSocks5Run.Listens .any {} c) (hp : c.pending = [op]) :
    c.obj.userReadReqHandler = true ∧ op.callback ≠ .writeConnectResponseHandler ∧
      c.events = [] := by
  cases h with
  | answered g rsv atyp field hg hs h => exact absurd (hp.symm.trans h.pending) (by simp)
  | failed err t u herr ho why h => exact absurd (hp.symm.trans h.pending) (by simp)
  | greeting hl h | methods n hl hm h | answer g hg hl h | header g hg hl h | ipv4 g rsv hg hl h
  | length g rsv hg hl h | domainname g rsv len hg hl hlen h | ipv6 g rsv hg hl h =>
    obtain rfl := List.singleton_inj.mp (hp.symm.trans h.pending)
    exact ⟨hl.handler,by simp [StreamObject.Op.callback],h.events⟩

theorem listens_over (c : ServerSocks5Run.ServerState) (h : ServerSocks5Run.Listens .any {} c)
    (hp : c.pending = []) : ∃ err, .call .readReq err ∈ c.events := by
  cases h with
  | answered g rsv atyp field hg hs h =>
    refine ⟨.noError,?_⟩
    rw [h.events]
    exact List.mem_append_right _ (List.mem_singleton_self _)
  | failed err t u herr ho why h =>
    exact ⟨err,by rw [h.events]; exact List.mem_singleton_self _⟩
  | greeting hl h | methods n hl hm h | answer g hg hl h | header g hg hl h | ipv4 g rsv hg hl h
  | length g rsv hg hl h | domainname g rsv len hg hl hlen h | ipv6 g rsv hg hl h =>
    exact absurd (hp.symm.trans h.pending) (by simp)

/-- What the call with an error code tells. -/
theorem listens_called (c : ServerSocks5Run.ServerState) (err : ErrorCode)
    (h : ServerSocks5Run.Listens .any {} c) (he : .call .readReq err ∈ c.events) :
    c.pending = [] ∧ (err.failed ∨ err = .noError ∧
      ServerSocks5Run.Request {} c.obj.userDst (StreamObject.taken c) ∧
        StreamObject.sent c = [5,0]) := by
  cases h with
  | answered g rsv atyp field hg hs h =>
    refine ⟨h.pending,.inr ⟨?_,h.taken ▸ .mk g rsv atyp field hg hs,h.sent⟩⟩
    rw [h.events, ServerSocks5Run.report, List.mem_append] at he
    rcases he with he | he
    · split_ifs at he <;> simp at he
    · simpa using he
  | failed err' t u herr ho why h =>
    rw [h.events] at he
    obtain rfl : err = err' := by simpa using he
    exact ⟨h.pending,.inl herr⟩
  | greeting hl h | methods n hl hm h | answer g hg hl h | header g hg hl h | ipv4 g rsv hg hl h
  | length g rsv hg hl h | domainname g rsv len hg hl hlen h | ipv6 g rsv hg hl h =>
    exact absurd (h.events ▸ he) List.not_mem_nil

theorem goes_idle (k : Callback) (s : ServerSessionSocks5.Session) (err : ErrorCode)
    (h : AfterCall.Socks5.goesOn k err) : started (run k s err).2 = [] := by
  obtain ⟨dst,asserted,hd⟩ := AfterCall.Socks5.run_delivers k s err h
  rw [hd]
  exact deliver_idle _ _

theorem silent_move {κ : Type*} (l : Traffic) (op : StreamObject.Op UInt8 κ) (data : Bytes)
    (h : Silent l) : Silent (l.move .input op data) := by
  obtain ⟨ht,hs⟩ := Ledger.move_other l .input .output op data (by decide)
  exact ⟨ht.trans h.1,hs.trans h.2⟩

/-- One operation of the SOCKS5 server session. -/
theorem socks5_turns (fuel : ℕ) (cfg : Config) (b : Bool) (w : World) (l : Traffic)
    (s : ServerSessionSocks5.Session) (c : ServerSocks5Run.ServerState)
    (op : StreamObject.Op UInt8 Callback) (res : Completion) (m : Life)
    (h : Reading5 cfg b w l s c op) (hm : m.state = { w with pending := [] })
    (ha : SessionLife.Allowed res (.socks5 op)) :
    Held.Leaves (socks5Done op res) m
      fun v => Turned fuel cfg b v (l.move .input op res.data) (rank op.callback) := by
  obtain ⟨harmed,hk,hev⟩ := listens_waits c op h.listens h.pending
  have hf : Fresh cfg b m.state := hm ▸ h.fresh
  have hobj : c.obj = { s with userDst := m.state.sess.dst } := by rw [hm]; exact h.obj
  have hserver : m.state.server = some (.socks5 c.obj) := by
    rw [hobj, hm]
    simp [World.server, h.server]
  have hall := outcome_allowed op res ha
  set x := store c.obj res.data op.callback
  set u := AfterCall.Socks5.untilCall op.callback x res.err
  set d := c.next server [] [] op (outcome res)
  have hrun : server.done op (outcome res) c.obj = run op.callback x res.err := socks5_done op _ res
  have hact : u.2 = (run op.callback x res.err).2 := until_actions _ _ _
  obtain ⟨hdst,hread,hwrite⟩ := until_fields op.callback x res.err
  have hpend : d.pending = started u.2 := by
    rw [hact, ← hrun]
    rfl
  have hevents : d.events = emitted u.2 := by
    rw [hact, ← hrun]
    change c.events ++ _ = _
    rw [hev, List.nil_append]
  have hcarries : Carries (l.move .input op (outcome res).data) .input [] [] d :=
    carries_next server l .input [] [] c op (outcome res) h.carries
  have htold : StreamObject.sent d <+: [5,0] := by
    rw [sent_next]
    exact told_next c op _ h.listens h.pending hall h.told
  have hwriter : u.1.userWriteRespHandler = false :=
    hwrite.trans ((run_writer _ _ _ hk).trans
      ((socks5_armed _ _ _).2.trans (by rw [hobj]; exact h.writer)))
  rw [outcome_data] at hcarries
  have hsilent := silent_move l op res.data h.silent
  have hturn := socks5_served _ u
    (AfterCall.Socks5.read_turn op.callback x res.err hk ((socks5_armed _ _ _).1.trans harmed))
  have hbody : socks5Done op res m = if AfterCall.Socks5.goesOn op.callback res.err then
      (serverDoes (.socks5 u.1) (u.2.map ofSocks5) m).resume stored World.clearDst
    else serverDoes (.socks5 u.1) (u.2.map ofSocks5) m := by
    simp only [socks5Done, hserver]
    rfl
  have hstarted : started (u.2.map ofSocks5) = d.pending.map .socks5 := by
    rw [ofSocks5_eq, started_map, hpend]
  have hnext : ServerSocks5Run.Listens .any {} d :=
    ServerSocks5Run.listens_next .any {} c op _ h.listens h.pending hall
  have hcalls : ∀ err, .readReq err ∈ emitted (u.2.map ofSocks5) ↔
      .call .readReq err ∈ d.events := by
    intro err
    rw [ofSocks5_eq, emitted_map, ← hevents, List.mem_map]
    refine ⟨?_,fun he => ⟨_,he,rfl⟩⟩
    rintro ⟨e,he,heq⟩
    rwa [event5_request e err heq] at he
  -- the user was called, with the request or with an error
  have hidle : d.pending = [] → u.1.userReadReqHandler = false := fun hps =>
    hread.trans (run_reader _ _ _ hk (by rw [← hact, ← hpend, hps]))
  refine server_turns cfg b _ .socks5 (.socks5 u.1) _ m _ _ h.kind hf hturn hbody ?_ ?_ ?_
  · intro op0 hop
    obtain ⟨op',hps,rfl⟩ := List.map_eq_singleton_iff.mp (hstarted.symm.trans hop)
    have hgoes : AfterCall.Socks5.goesOn op.callback res.err = false := by
      by_contra hg
      have hno := goes_idle op.callback x res.err (by simpa using hg)
      rw [← hact, ← hpend, hps] at hno
      exact absurd hno (by simp)
    have hu : d.obj = u.1 := by
      change (server.done op (outcome res) c.obj).1 = _
      rw [hrun]
      simp only [u, AfterCall.Socks5.untilCall, hgoes, Bool.false_eq_true, if_false]
    have hfresh := served_fresh cfg b .socks5 m.state (.socks5 u.1) h.kind hf
    have hwired := wired_pending cfg b _ [] hfresh.wired
    have hlower : rank op'.callback < rank op.callback := by
      refine run_rank op.callback x res.err op' ?_
      rw [← hact, ← hpend, hps]
      exact List.mem_singleton_self _
    refine ⟨hgoes,.socks5 u.1 d op' ⟨⟨hwired,hfresh.output,rfl⟩,h.kind,rfl,?_,hnext,hwriter,htold,
      hps,?_,hcarries,hsilent⟩ hlower⟩
    · rw [hu]
      rfl
    · change m.state.pending ++ [_] = _
      rw [hf.idle]
      rfl
  · intro hs hno
    have hps : d.pending = [] := List.map_eq_nil_iff.mp (hstarted.symm.trans hs)
    obtain ⟨err,hcall⟩ := listens_over d hnext hps
    exact absurd ((hcalls err).mpr hcall) (hno err)
  · intro err herr
    obtain ⟨hps,hwhat⟩ := listens_called d err hnext ((hcalls err).mp herr)
    have hhandlers : (ServerSession.socks5 u.1).handlers = 0 := by
      simp [ServerSession.handlers, hidle hps, hwriter]
    rcases hwhat with hfail | ⟨hok,hreq,hsent⟩
    · exact .inl ⟨hfail,hhandlers,fun v hv => .refused hv (by rwa [hcarries.sent]) hsilent⟩
    · refine .inr ⟨hok,ServerSocks5Run.response,.socks5 u.1 rfl (hidle hps) hwriter rfl,
        fun v hv hans hchain => .opened u.1.userDst (StreamObject.taken d) [5,0]
          ServerSocks5Run.response ⟨hv,hchain,?_,hsilent⟩⟩
      have hdd : d.obj.userDst = u.1.userDst := by
        rw [hdst, ← hrun]
        rfl
      exact ⟨.socks5 _ h.kind (hdd ▸ hreq),hans,hcarries.taken,by rw [hcarries.sent, hsent]; rfl⟩

end Socks5

/-! The HTTPS server session. -/

section Https

open ServerSessionHttps HttpsReading

theorem https_actions (fuel : ℕ) (k : Callback) (s : ServerSessionHttps.Session)
    (err : ErrorCode) :
    (AfterCall.Https.untilCall fuel k s err).2 = (run fuel k s err).2 := by
  unfold AfterCall.Https.untilCall
  split_ifs <;> rfl

theorem https_fields (fuel : ℕ) (k : Callback) (s : ServerSessionHttps.Session)
    (err : ErrorCode) :
    (AfterCall.Https.untilCall fuel k s err).1.userDst = (run fuel k s err).1.userDst ∧
      (AfterCall.Https.untilCall fuel k s err).1.userReadReqHandler =
        (run fuel k s err).1.userReadReqHandler ∧
      (AfterCall.Https.untilCall fuel k s err).1.httpVer = (run fuel k s err).1.httpVer := by
  unfold AfterCall.Https.untilCall
  split_ifs <;> exact ⟨rfl,rfl,rfl⟩

theorem granted_idle (fuel : ℕ) (k : Callback) (s : ServerSessionHttps.Session)
    (err : ErrorCode) (h : AfterCall.Https.goesOn k s err) :
    started (run fuel k s err).2 = [] := by
  rw [AfterCall.Https.run_granted fuel k s err h]
  exact started_call _ _

theorem granted_calls (fuel : ℕ) (k : Callback) (s : ServerSessionHttps.Session)
    (err : ErrorCode) (h : AfterCall.Https.goesOn k s err) (hs : s.userReadReqHandler = true) :
    .call .readReq .noError ∈ emitted (run fuel k s err).2 := by
  rw [AfterCall.Https.run_granted fuel k s err h]
  simp [ServerSessionHttps.callAndClearHandler, hs]

theorem store_version (s : ServerSessionHttps.Session) (data : Bytes) (k : Callback) :
    (store s data k).httpVer = s.httpVer := by
  cases k with
  | handleRead k => unfold store; split_ifs <;> rfl
  | writeConnectResponseHandler => rfl

theorem https_call_failed (s : ServerSessionHttps.Session) (err : ErrorCode) (he : err.failed) :
    .call .readReq .noError ∉ emitted (ServerSessionHttps.callAndClearHandler s err).2 := by
  unfold ServerSessionHttps.callAndClearHandler
  split_ifs
  · simp only [emitted_emit, emitted_nil, List.mem_singleton, Event.call.injEq, true_and]
    rintro rfl
    exact ErrorCode.noError_failed he
  · simp

theorem assert_calls (holds : Bool) (r : Effect) (err : ErrorCode)
    (h : .call .readReq err ∈ emitted (ServerSessionHttps.assertThat holds r).2) :
    .call .readReq err ∈ emitted r.2 := by
  cases holds with
  | true => exact h
  | false => exact (List.mem_cons.mp h).resolve_left (by simp)

/-- The first line is not followed by a call that succeeds. -/
theorem first_unanswered (fuel : ℕ) (s : ServerSessionHttps.Session) (err : ErrorCode) :
    .call .readReq .noError ∉
      emitted (run fuel (.handleRead .handleReadFirstLine) s err).2 := by
  have hline : ∀ (x : ServerSessionHttps.Session) (e : ErrorCode),
      .call .readReq .noError ∉ emitted (handleReadFirstLine fuel x e).2 := by
    intro x e
    unfold handleReadFirstLine
    split_ifs with he
    · exact https_call_failed x e he
    · cases trimLine x.line with
      | none => exact https_call_failed _ _ (makeErrorCode_failed _)
      | some l =>
        cases hp : parseFirstLine fuel l x.parsedDst x.httpVer with
        | none => simp [hp]
        | some p =>
          simp only [hp]
          intro h
          have h := assert_calls _ _ _ h
          split_ifs at h with hperr
          · exact https_call_failed _ _ hperr h
          · exact absurd h (by simp [readAnotherLine, ServerHttpsRun.readLine_eq])
  simp only [run, handleRead, callLineHandler, readNext]
  split_ifs
  · exact hline s err
  · exact hline s .noError
  · exact hline s .noError
  · simp

theorem another_version (fuel : ℕ) (s : ServerSessionHttps.Session) (err : ErrorCode) :
    (run fuel (.handleRead .handleReadAnotherLine) s err).1.httpVer = s.httpVer := by
  have hcall : ∀ (x : ServerSessionHttps.Session) (e : ErrorCode),
      (ServerSessionHttps.callAndClearHandler x e).1.httpVer = x.httpVer := by
    intro x e
    unfold ServerSessionHttps.callAndClearHandler
    split_ifs <;> rfl
  have hline : ∀ (x : ServerSessionHttps.Session) (e : ErrorCode),
      (handleReadAnotherLine x e).1.httpVer = x.httpVer := by
    intro x e
    unfold handleReadAnotherLine
    split_ifs
    · exact hcall x e
    · cases trimLine x.line with
      | none => exact hcall _ _
      | some l =>
        by_cases hl : l = []
        · simp only [hl, ne_eq, not_true_eq_false, if_false]
          exact hcall _ _
        · simp only [ne_eq, hl, not_false_eq_true, if_true]
          rfl
  simp only [run, handleRead, callLineHandler, readNext]
  split_ifs
  · exact hline s err
  · exact hline s .noError
  · exact hline s .noError
  · rfl

/-- A stream has one first line, which is parsed to one thing. -/
theorem accepted_unique (fuel : ℕ) (x : ServerSessionHttps.Session) (a b t : Bytes)
    (p q : FirstLine) (ha : Accepted fuel x a p) (hb : Accepted fuel x b q) (hat : a <+: t)
    (hbt : b <+: t) : p = q := by
  obtain rfl := RequestLines.line_agree a b t ha.1.line hb.1.line hat hbt
  obtain ⟨u,hu,hp⟩ := ha.2.1
  obtain ⟨v,hv,hq⟩ := hb.2.1
  obtain rfl : u = v := Option.some.inj (hu.symm.trans hv)
  exact Option.some.inj (hp.symm.trans hq)

theorem stage_waits (fuel : ℕ) (c : ServerHttpsRun.ServerState)
    (op : StreamObject.Op UInt8 Callback) (h : Stage fuel .any {} c) (hp : c.pending = [op]) :
    c.obj.userReadReqHandler = true ∧ (∃ k, op.callback = .handleRead k) ∧
      (∀ e ∈ c.events, e = .assertFailed) ∧ StreamObject.sent c = [] ∧
      (op.callback = .handleRead .handleReadFirstLine ∨ ∃ first p, Accepted fuel {} first p ∧
        first <+: StreamObject.taken c ∧ c.obj.httpVer = p.httpVer) := by
  cases h with
  | first cur hcur hmax ho h =>
    obtain rfl := List.singleton_inj.mp (hp.symm.trans h.pending)
    exact ⟨by rw [ho]; rfl,⟨_,rfl⟩,by simp [h.events],h.sent,.inl rfl⟩
  | header first p hs cur hacc hhs hcur hmax ho h =>
    obtain rfl := List.singleton_inj.mp (hp.symm.trans h.pending)
    refine ⟨by rw [ho]; rfl,⟨_,rfl⟩,by rw [h.events]; exact asserts_all p,h.sent,
      .inr ⟨first,p,hacc,?_,by rw [ho]; rfl⟩⟩
    rw [h.taken, List.append_assoc]
    exact List.prefix_append _ _
  | done first p hs last hacc hhs hlast ho hd h => exact absurd (hp.symm.trans h.pending) (by simp)
  | failed err t es herr why hes ho hd h => exact absurd (hp.symm.trans h.pending) (by simp)
  | hung first hl hpar ho h => exact absurd (hp.symm.trans h.pending) (by simp)

/-- Where a request stands whose user was called, or for which nothing is
outstanding. -/
theorem stage_called (fuel : ℕ) (c : ServerHttpsRun.ServerState) (err : ErrorCode)
    (h : Stage fuel .any {} c) (he : .call .readReq err ∈ c.events) :
    c.obj.userReadReqHandler = false ∧ (err.failed ∨ err = .noError ∧
      ∃ (first last : Bytes) (p : FirstLine) (hs : List Bytes), Accepted fuel {} first p ∧
        (∀ l ∈ hs, HeaderLine l) ∧ ServerHttpsRun.EmptyLine last ∧ c.obj.userDst = p.dst ∧
        StreamObject.taken c = first ++ hs.flatten ++ last) := by
  have hno : ∀ es : List Event, (∀ e ∈ es, e = .assertFailed) →
      .call .readReq err ∉ es := fun es h0 h1 => absurd (h0 _ h1) (by simp)
  cases h with
  | first cur hcur hmax ho h => exact absurd (h.events ▸ he) List.not_mem_nil
  | header first p hs cur hacc hhs hcur hmax ho h =>
    exact absurd (h.events ▸ he) (hno _ (asserts_all p))
  | done first p hs last hacc hhs hlast ho hd h =>
    rw [h.events, List.mem_append] at he
    have heq := List.mem_singleton.mp (he.resolve_left (hno _ (asserts_all p)))
    refine ⟨ho,.inr ⟨?_,first,last,p,hs,hacc,hhs,hlast,hd,h.taken⟩⟩
    simpa [ServerHttpsRun.Success] using heq
  | failed e t es herr why hes ho hd h =>
    rw [h.events, List.mem_append] at he
    have heq := List.mem_singleton.mp (he.resolve_left (hno _ hes))
    obtain rfl : err = e := by simpa using heq
    exact ⟨ho,.inl herr⟩
  | hung first hl hpar ho h => exact absurd (h.events ▸ he) List.not_mem_nil

theorem stage_silent (fuel : ℕ) (c : ServerHttpsRun.ServerState) (h : Stage fuel .any {} c)
    (hp : c.pending = []) (hno : ∀ err, .call .readReq err ∉ c.events) :
    c.obj.userReadReqHandler = true ∧
      ∃ first, Parsed fuel {} first none ∧ StreamObject.taken c = first := by
  cases h with
  | first cur hcur hmax ho h => exact absurd (hp.symm.trans h.pending) (by simp)
  | header first p hs cur hacc hhs hcur hmax ho h =>
    exact absurd (hp.symm.trans h.pending) (by simp)
  | done first p hs last hacc hhs hlast ho hd h =>
    exact absurd (h.events ▸ List.mem_append_right _ (List.mem_singleton_self _)) (hno .noError)
  | failed err t es herr why hes ho hd h =>
    exact absurd (h.events ▸ List.mem_append_right _ (List.mem_singleton_self _)) (hno err)
  | hung first hl hpar ho h => exact ⟨ho,first,hpar,h.taken⟩

theorem stage_sent (fuel : ℕ) (c : ServerHttpsRun.ServerState) (h : Stage fuel .any {} c) :
    StreamObject.sent c = [] := by
  cases h with
  | first cur hcur hmax ho h => exact h.sent
  | header first p hs cur hacc hhs hcur hmax ho h => exact h.sent
  | done first p hs last hacc hhs hlast ho hd h => exact h.sent
  | failed err t es herr why hes ho hd h => exact h.sent
  | hung first hl hpar ho h => exact h.sent

/-- One operation of the HTTPS server session. -/
theorem https_turns (fuel : ℕ) (cfg : Config) (w : World) (l : Traffic)
    (s : ServerSessionHttps.Session) (c : ServerHttpsRun.ServerState)
    (op : StreamObject.Op UInt8 Callback) (res : Completion) (m : Life)
    (h : ReadingHttps fuel cfg false w l s c op) (hm : m.state = { w with pending := [] })
    (n : ℕ) (ha : SessionLife.Allowed res (.https op)) :
    Held.Leaves (httpsDone fuel op res) m
      fun v => Turned fuel cfg false v (l.move .input op res.data) n := by
  obtain ⟨harmed,⟨k,hk⟩,hquiet,hsent,hver⟩ := stage_waits fuel c op h.stage h.pending
  have hf : Fresh cfg false m.state := hm ▸ h.fresh
  have hobj : c.obj = { s with userDst := m.state.sess.dst } := by rw [hm]; exact h.obj
  have hserver : m.state.server = some (.https c.obj) := by
    rw [hobj, hm]
    simp [World.server, h.server]
  have hall := outcome_allowed op res ha
  set x := store c.obj res.data op.callback
  set u := AfterCall.Https.untilCall fuel op.callback x res.err
  set d := c.next (server fuel) [] [] op (outcome res)
  have hrun : (server fuel).done op (outcome res) c.obj = run fuel op.callback x res.err :=
    https_done fuel op k _ res hk
  have hact : u.2 = (run fuel op.callback x res.err).2 := https_actions _ _ _ _
  obtain ⟨hdst,hread,hvers⟩ := https_fields fuel op.callback x res.err
  have hdobj : d.obj = (run fuel op.callback x res.err).1 := congrArg Prod.fst hrun
  have hpend : d.pending = started u.2 := by
    rw [hact, ← hrun]
    rfl
  have hevents : d.events = c.events ++ emitted u.2 := by
    rw [hact, ← hrun]
    rfl
  have hcarries : Carries (l.move .input op (outcome res).data) .input [] [] d :=
    carries_next (server fuel) l .input [] [] c op (outcome res) h.carries
  rw [outcome_data] at hcarries
  have hsilent := silent_move l op res.data h.silent
  have hnext : Stage fuel .any {} d := stage_next fuel .any {} c op _ h.stage h.pending hall
  have hnone : (l.move .input op res.data).sent .input = [] := by
    rw [hcarries.sent, stage_sent fuel d hnext]
    rfl
  have hturn := https_served _ u
    (hk ▸ AfterCall.Https.read_turn fuel k x res.err ((https_armed _ _ _).trans harmed))
  have hbody : httpsDone fuel op res m = if AfterCall.Https.goesOn op.callback x res.err then
      (serverDoes (.https u.1) (u.2.map ofHttps) m).resume stored World.clearDst
    else serverDoes (.https u.1) (u.2.map ofHttps) m := by
    simp only [httpsDone, hserver]
    rfl
  have hstarted : started (u.2.map ofHttps) = d.pending.map .https := by
    rw [ofHttps_eq, started_map, hpend]
  have hcalls : ∀ err, .readReq err ∈ emitted (u.2.map ofHttps) ↔
      .call .readReq err ∈ d.events := by
    intro err
    rw [ofHttps_eq, emitted_map, hevents, List.mem_map, List.mem_append]
    constructor
    · rintro ⟨e,he,heq⟩
      exact .inr (eventHttps_request e err heq ▸ he)
    · rintro (he | he)
      · exact absurd (hquiet _ he) (by simp)
      · exact ⟨_,he,rfl⟩
  have hgoes : d.pending ≠ [] → AfterCall.Https.goesOn op.callback x res.err = false := by
    intro hps
    by_contra hg
    refine hps (hpend.trans ?_)
    rw [hact]
    exact granted_idle fuel _ _ _ (by simpa using hg)
  refine server_turns cfg false _ .https (.https u.1) _ m _ _ h.kind hf hturn hbody ?_ ?_ ?_
  · intro op0 hop
    obtain ⟨op',hps,rfl⟩ := List.map_eq_singleton_iff.mp (hstarted.symm.trans hop)
    have hg := hgoes (by simp [hps])
    have hu : d.obj = u.1 := by
      rw [hdobj]
      simp only [u, AfterCall.Https.untilCall, hg, Bool.false_eq_true, if_false]
    have hfresh := served_fresh cfg false .https m.state (.https u.1) h.kind hf
    have hwired := wired_pending cfg false _ [] hfresh.wired
    refine ⟨hg,.https u.1 d op' ⟨⟨hwired,hfresh.output,rfl⟩,h.kind,rfl,?_,hnext,hps,?_,hcarries,
      hsilent⟩⟩
    · rw [hu]
      rfl
    · change m.state.pending ++ [_] = _
      rw [hf.idle]
      rfl
  · intro hs hno
    have hps : d.pending = [] := List.map_eq_nil_iff.mp (hstarted.symm.trans hs)
    obtain ⟨hkept,first,hpar,htaken⟩ := stage_silent fuel d hnext hps
      fun err herr => hno err ((hcalls err).mpr herr)
    have hg : AfterCall.Https.goesOn op.callback x res.err = false := by
      by_contra hg
      refine hno .noError ((hcalls _).mpr ?_)
      rw [hevents, hact]
      exact List.mem_append_right _ (granted_calls fuel _ _ _ (by simpa using hg)
        ((https_armed _ _ _).trans harmed))
    have hfresh := served_fresh cfg false .https m.state (.https u.1) h.kind hf
    have harms : u.1.userReadReqHandler = true := by
      rw [hread, ← hdobj]
      exact hkept
    exact ⟨hg,.hung first ⟨hfresh.wired,h.kind,hpar,hfresh.idle,
      by simp [handlers, ServerSession.handlers, World.setServer, harms]⟩
      (by rw [hcarries.taken, htaken]; rfl) hnone hsilent⟩
  · intro err herr
    obtain ⟨hidle,hwhat⟩ := stage_called fuel d err hnext ((hcalls err).mp herr)
    have hreader : u.1.userReadReqHandler = false := by
      rw [hread, ← hdobj]
      exact hidle
    rcases hwhat with hfail | ⟨rfl,first,last,p,hs,hacc,hhs,hlast,hd,htaken⟩
    · exact .inl ⟨hfail,by simp [ServerSession.handlers, hreader],
        fun v hv => .refused hv (by simp [hnone]) hsilent⟩
    · have hversion : u.1.httpVer = p.httpVer := by
        have hemits : .call .readReq .noError ∈ emitted (run fuel op.callback x res.err).2 := by
          rw [← hact]
          refine (List.mem_append.mp (hevents ▸ (hcalls _).mp herr)).resolve_left fun h0 => ?_
          exact absurd (hquiet _ h0) (by simp)
        have hlater : op.callback ≠ .handleRead .handleReadFirstLine := fun h0 =>
          first_unanswered fuel x res.err (h0 ▸ hemits)
        obtain ⟨first',q,hacc',hpre,hq⟩ := hver.resolve_left hlater
        have hanother : op.callback = .handleRead .handleReadAnotherLine := by
          cases k with
          | handleReadFirstLine => exact absurd hk hlater
          | handleReadAnotherLine => exact hk
        have hpq := accepted_unique fuel {} first first' (StreamObject.taken d) p q hacc hacc'
          (by rw [htaken, List.append_assoc]; exact List.prefix_append _ _)
          (by rw [taken_next]; exact hpre.trans (List.prefix_append _ _))
        rw [hvers, hanother, another_version, hpq, ← hq]
        exact store_version _ _ _
      refine .inr ⟨rfl,httpsResponse p.httpVer,.https u.1 rfl hreader (by rw [hversion]),
        fun v hv hans hchain => .opened u.1.userDst (first ++ hs.flatten ++ last) []
          (httpsResponse p.httpVer) ⟨hv,hchain,?_,hsilent⟩⟩
      refine ⟨.https first last p hs h.kind hacc hhs hlast ?_,hans,?_,hnone⟩
      · rw [← hd, hdobj, ← hdst]
      · rw [hcarries.taken, htaken]
        rfl

end Https

end ProxySwiss.RequestTraffic
