import Mathlib.Data.List.Forall2
import ProxySwiss.ServerTraffic

/-!
# The sessions of a server are apart

The sessions of a server share the log and the history. A session writes to
both of them, but what it does to its sockets, what it waits for and who owns it
do not depend on them, so a server is nothing but its sessions, each of them
going on as it would alone. They share one thread too: where a parser hangs,
nothing goes on any more.
-/

set_option autoImplicit false

namespace ProxySwiss.SessionsApart
open Memory TransitionSystem CallbackObject StreamObject Ownership Held SessionLife SessionTraffic
  ServerTraffic
open RequestTraffic (Hung)
open Session (Session)

/-- The second session has another log and another history. -/
def Lent (w w' : World) : Prop := ∃ log history, w' = lendTo log history w

def Blind (f : Life → Life) : Prop := Respects Lent f

/-- A change of the state that has nothing to do with the log and the history. -/
theorem blind_modify (g : World → World)
    (hg : ∀ log history w, g (lendTo log history w) = lendTo log history (g w)) :
    Blind (Held.modify g) := by
  refine respects_modify g ?_
  rintro w _ ⟨log,history,rfl⟩
  exact ⟨log,history,hg log history w⟩

theorem alike_lent (m n : Life) (h : Alike Lent m n) :
    ∃ log history, n = m.modify (lendTo log history) := by
  obtain ⟨⟨log,history,hs⟩,hl,hr⟩ := h
  obtain ⟨s,l,r⟩ := n
  obtain rfl : s = lendTo log history m.state := hs
  obtain rfl : m.locals = l := hl
  obtain rfl : m.resumed = r := hr
  exact ⟨log,history,rfl⟩

theorem lent_alike (m : Life) (log history : List Bytes) :
    Alike Lent m (m.modify (lendTo log history)) := ⟨⟨log,history,rfl⟩,rfl,rfl⟩

/-- What is done depends on a part of the state that is not lent. -/
theorem blind_reads {α : Type} (k : World → α) (F : α → Life → Life)
    (hk : ∀ log history w, k (lendTo log history w) = k w) (hF : ∀ a, Blind (F a)) :
    Blind fun m => F (k m.state) m := by
  intro m n h
  obtain ⟨log,history,rfl⟩ := alike_lent m n h
  have hread : k (m.modify (lendTo log history)).state = k m.state := hk log history m.state
  simp only [hread]
  exact hF _ _ _ h

theorem stored_lent (w w' : World) (h : Lent w w') : stored w = stored w' := by
  obtain ⟨log,history,rfl⟩ := h
  rfl

/-! The functions of a session. -/

/-- A change of a session keeps the log and the history that it is lent. -/
def Keeps (G : Session → SessionTunnel.Effect) : Prop :=
  ∀ log history s, G { s with log := log, history := history } =
    ({ (G s).1 with log := log, history := history },(G s).2)

theorem blind_tunnel (G : Session → SessionTunnel.Effect) (hG : Keeps G) :
    Blind fun m => tunnelDoes (G m.state.sess) m := by
  have h : (fun m : Life => tunnelDoes (G m.state.sess) m) = Held.modify fun w =>
      { w with sess := (G w.sess).1, pending := w.pending ++ (started (G w.sess).2).map .tunnel } :=
    rfl
  rw [h]
  refine blind_modify _ fun log history w => ?_
  have hr : G (lendTo log history w).sess = _ := hG log history w.sess
  rw [hr]
  rfl

theorem blind_makeTunnel : Blind makeTunnel :=
  blind_tunnel SessionTunnel.makeTunnel fun _ _ _ => rfl

theorem blind_closeAll : Blind closeAll := blind_modify _ fun _ _ _ => rfl

theorem blind_handleWriteConnectResponse (err : ErrorCode) :
    Blind (handleWriteConnectResponse err) := by
  by_cases he : err.failed
  · have h : handleWriteConnectResponse err = closeAll := funext fun m => if_pos he
    rw [h]
    exact blind_closeAll
  · have h : handleWriteConnectResponse err = fun m =>
        if (!m.state.sess.outputConnRes.success) = true then closeAll m else makeTunnel m :=
      funext fun m => if_neg he
    rw [h]
    refine respects_if (fun w : World => (!w.sess.outputConnRes.success) = true) ?_
      blind_closeAll blind_makeTunnel
    rintro w _ ⟨log,history,rfl⟩
    exact Iff.rfl

theorem blind_writeConnectResponse (r : ConnectResponse) : Blind (writeConnectResponse r) := by
  intro m n h
  obtain ⟨log,history,rfl⟩ := alike_lent m n h
  have hinput : (m.modify (lendTo log history)).state.sess.input = m.state.sess.input := rfl
  have hserver : (m.modify (lendTo log history)).state.srvSess = m.state.srvSess := rfl
  unfold writeConnectResponse
  rw [hinput, hserver]
  cases m.state.sess.input.cfgInput with
  | tunnel destination => exact blind_handleWriteConnectResponse .noError m _ h
  | proxyServer type =>
    cases m.state.srvSess with
    | none => exact h
    | some srv => cases srv <;> exact ⟨⟨log,history,rfl⟩,rfl,rfl⟩

theorem printed_lent (log history : List Bytes) (s : Session) (cr : Output.ConnectResult) :
    (Session.printProxyError { s with log := log, history := history } cr).1 =
      { (Session.printProxyError s cr).1 with log := log, history := history } := by
  unfold Session.printProxyError
  split_ifs with hp hi
  · cases s.cfg.output.proxyChain[cr.chainFailIndex]? <;> rfl
  · rfl
  · rfl

/-- What a failure of the output leaves in the session. -/
def failed (cr : Output.ConnectResult) (s : Session) : Session :=
  if cr.err.failed then (Session.printProxyError s cr).1 else s

theorem failed_lent (log history : List Bytes) (s : Session) (cr : Output.ConnectResult) :
    failed cr { s with log := log, history := history } =
      { failed cr s with log := log, history := history } := by
  unfold failed
  split_ifs
  · exact printed_lent log history s cr
  · rfl

section AddressText

variable (addressText : Address → Bytes)

/-- Only here the log and the history are looked at, and only they are changed. -/
theorem remember_lent (log history : List Bytes) (s : Session) : ∃ log' history',
    Session.remember addressText { s with log := log, history := history } =
      { Session.remember addressText s with log := log', history := history' } := by
  unfold Session.remember
  by_cases h : Session.idStr addressText s.dst ∈ s.history
  · by_cases h' : Session.idStr addressText s.dst ∈ history
    · exact ⟨log,history,by simp [h, h']⟩
    · exact ⟨log ++ [Session.idStr addressText s.dst],history ++ [Session.idStr addressText s.dst],
        by simp [h, h']⟩
  · by_cases h' : Session.idStr addressText s.dst ∈ history
    · exact ⟨log,history,by simp [h, h']⟩
    · exact ⟨log ++ [Session.idStr addressText s.dst],history ++ [Session.idStr addressText s.dst],
        by simp [h, h']⟩

theorem blind_handleConnectOutput (cr : Output.ConnectResult) :
    Blind (handleConnectOutput addressText cr) := by
  by_cases hs : cr.success = true
  · have h : handleConnectOutput addressText cr = fun m =>
        Held.hold (writeConnectResponse ⟨.succeeded⟩) (m.modify fun w =>
          w.setSess (Session.remember addressText { w.sess with outputConnRes := cr })) :=
      funext fun m => if_pos hs
    rw [h]
    refine Respects.comp (respects_hold (blind_writeConnectResponse _)) (respects_modify _ ?_)
    rintro w _ ⟨log,history,rfl⟩
    obtain ⟨log',history',hr⟩ := remember_lent addressText log history
      { w.sess with outputConnRes := cr }
    exact ⟨log',history',congrArg w.setSess hr⟩
  · have h : handleConnectOutput addressText cr = fun m =>
        Held.hold (writeConnectResponse (Session.failureResponse cr)) (m.modify fun w =>
          w.setSess (failed cr { w.sess with outputConnRes := cr })) := funext fun m => if_neg hs
    rw [h]
    refine Respects.comp (respects_hold (blind_writeConnectResponse _))
      (blind_modify _ fun log history w => ?_)
    exact congrArg w.setSess (failed_lent log history { w.sess with outputConnRes := cr } cr)

theorem blind_callAndClearHandler (cr : Output.ConnectResult) :
    Blind (callAndClearHandler addressText cr) := by
  refine respects_if (fun w : World => w.sess.output.userConnectHandler = true) ?_
    (respects_hold ((blind_handleConnectOutput addressText cr).comp
      (blind_modify _ fun _ _ _ => rfl))) respects_id
  rintro w _ ⟨log,history,rfl⟩
  exact Iff.rfl

theorem blind_readConnectResponse (hop index : ℕ) : Blind (readConnectResponse hop index) := by
  have h : readConnectResponse hop index = Held.modify fun w =>
      { w.setHop hop (ClientSessionSocks5.readConnectResponse (w.hop hop)).1 with
        pending := w.pending ++ (started (ClientSessionSocks5.readConnectResponse
          (w.hop hop)).2).map (.hop hop index) } := rfl
  rw [h]
  exact blind_modify _ fun _ _ _ => rfl

theorem blind_handleWriteConnectRequest (err : ErrorCode) (index : ℕ) :
    Blind (handleWriteConnectRequest addressText err index) := by
  by_cases he : err.failed
  · have h : handleWriteConnectRequest addressText err index =
        callAndClearHandler addressText ⟨false,err,index,{}⟩ := funext fun m => if_pos he
    rw [h]
    exact blind_callAndClearHandler addressText _
  · have h : handleWriteConnectRequest addressText err index = fun m =>
        readConnectResponse m.state.sess.output.curProxy index m := funext fun m => if_neg he
    rw [h]
    exact blind_reads (fun w => w.sess.output.curProxy) (fun hop => readConnectResponse hop index)
      (fun _ _ _ => rfl) fun hop => blind_readConnectResponse hop index

theorem blind_hopDoes (hop index : ℕ) (r : ClientSessionSocks5.Effect)
    (call : ClientSessionSocks5.UserHandler → ErrorCode → Life → Life)
    (hcall : ∀ h err, Blind (call h err)) : Blind (hopDoes hop index r call) := by
  refine respects_enact _ _ _ _ (fun op => blind_modify _ fun _ _ _ => rfl) (fun e => ?_) ?_ _
  · cases e with
    | call h err => exact hcall h err
    | assertFailed => exact respects_id
  · rintro w _ ⟨log,history,rfl⟩
    exact ⟨log,history,rfl⟩

theorem blind_writeConnectRequest (hop : ℕ) (dst : Destination) (index : ℕ) :
    Blind (writeConnectRequest addressText hop dst index) :=
  blind_reads (fun w => w.hop hop) (fun s => hopDoes hop index
    (ClientSessionSocks5.writeConnectRequest s dst)
      fun _ err => handleWriteConnectRequest addressText err index) (fun _ _ _ => rfl) fun _ =>
    blind_hopDoes hop index _ _ fun _ err => blind_handleWriteConnectRequest addressText err index

theorem blind_connectNext (err : ErrorCode) (index : ℕ) :
    Blind (connectNext addressText err index) := by
  intro m n h
  obtain ⟨log,history,rfl⟩ := alike_lent m n h
  have hout : (m.modify (lendTo log history)).state.sess.output = m.state.sess.output := rfl
  unfold connectNext
  simp only [hout]
  split_ifs
  · exact blind_callAndClearHandler addressText _ _ _ h
  · exact blind_callAndClearHandler addressText _ _ _ h
  · exact blind_writeConnectRequest addressText _ _ _ _ _ h
  · exact blind_writeConnectRequest addressText _ _ _ _ _ h

theorem blind_handleResolve (err : ErrorCode) (address : Address) (port : UInt16) (index : ℕ) :
    Blind (handleResolve addressText err address port index) := by
  have hclear : Blind (Held.modify fun w : World =>
      w.setOutput { w.sess.output with resolver := false }) := blind_modify _ fun _ _ _ => rfl
  intro m n h
  unfold handleResolve
  dsimp only
  split_ifs
  · exact blind_callAndClearHandler addressText _ _ _ (hclear m n h)
  · exact blind_modify (fun w : World => w.launch (.asyncConnect address port index))
      (fun _ _ _ => rfl) _ _ (hclear m n h)

theorem blind_handleReadConnectResponse (err : ErrorCode) (index : ℕ) :
    Blind (handleReadConnectResponse addressText err index) := by
  intro m n h
  obtain ⟨log,history,rfl⟩ := alike_lent m n h
  have hout : (m.modify (lendTo log history)).state.sess.output = m.state.sess.output := rfl
  unfold handleReadConnectResponse
  simp only [hout]
  split_ifs
  · exact blind_callAndClearHandler addressText _ _ _ h
  · exact blind_callAndClearHandler addressText _ _ _ h
  · exact blind_connectNext addressText _ _ _ _ (blind_modify (fun w : World => w.setOutput _)
      (fun _ _ _ => rfl) _ _ h)

theorem blind_callOutput (index : ℕ) (h : ClientSessionSocks5.UserHandler) (err : ErrorCode) :
    Blind (callOutput addressText index h err) := by
  cases h with
  | writeReq => exact blind_handleWriteConnectRequest addressText err index
  | readResp => exact blind_handleReadConnectResponse addressText err index

end AddressText

/-! The session and its input. -/

theorem launch_lent (log history : List Bytes) (w : World) (ops : List Output.Op) :
    ops.foldl World.launch (lendTo log history w) =
      lendTo log history (ops.foldl World.launch w) := by
  induction ops generalizing w with
  | nil => rfl
  | cons op ops ih =>
    have h : (lendTo log history w).launch op = lendTo log history (w.launch op) := by
      cases op <;> rfl
    rw [List.foldl_cons, List.foldl_cons, h]
    exact ih _

theorem blind_connectThroughChain (dst : Destination) : Blind (connectThroughChain dst) :=
  blind_reads (fun w => w.sess.output.connectThroughChain dst) (fun r => Held.modify fun w =>
    (started r.2).foldl World.launch (w.setOutput r.1)) (fun _ _ _ => rfl) fun r =>
    blind_modify _ fun log history w => launch_lent log history (w.setOutput r.1) _

theorem blind_handleReadConnectRequest (err : ErrorCode) :
    Blind (handleReadConnectRequest err) := by
  have hconnect : Blind fun m => connectThroughChain m.state.sess.dst m :=
    blind_reads (fun w => w.sess.dst) connectThroughChain (fun _ _ _ => rfl)
      blind_connectThroughChain
  intro m n h
  unfold handleReadConnectRequest
  split_ifs
  · exact blind_closeAll m n h
  · exact respects_hold hconnect m n h

theorem blind_callSession (call : Call) : Blind (callSession call) := by
  cases call with
  | readReq err => exact blind_handleReadConnectRequest err
  | writeResp err => exact blind_handleWriteConnectResponse err
  | assertFailed => exact respects_id

theorem blind_serverDoes (srv : ServerSession) (as : List (Action Op Call)) :
    Blind (serverDoes srv as) := by
  refine respects_enact _ _ _ _ (fun op => blind_modify _ fun _ _ _ => rfl) blind_callSession ?_ _
  rintro w _ ⟨log,history,rfl⟩
  exact ⟨log,history,rfl⟩

theorem blind_readConnectRequest (srv : ServerSession) : Blind (readConnectRequest srv) := by
  cases srv <;> exact blind_serverDoes _ _

theorem blind_start : Blind start := by
  have htunnel : ∀ destination, Blind fun m => handleReadConnectRequest .noError
      (m.modify fun w => w.setSess { w.sess with dst := destination }) := fun destination =>
    (blind_handleReadConnectRequest .noError).comp (blind_modify _ fun _ _ _ => rfl)
  intro m n h
  obtain ⟨log,history,rfl⟩ := alike_lent m n h
  have hinput : (m.modify (lendTo log history)).state.sess.input = m.state.sess.input := rfl
  have hserver : (m.modify (lendTo log history)).state.server = m.state.server := rfl
  unfold SessionLife.start
  rw [hinput, hserver]
  cases m.state.sess.input.cfgInput with
  | tunnel destination => exact respects_hold (htunnel destination) _ _ h
  | proxyServer type =>
    cases m.state.server with
    | none => exact h
    | some srv => exact respects_hold (blind_readConnectRequest srv) _ _ h

theorem blind_handleAccept (err : ErrorCode) : Blind (SessionLife.handleAccept err) := by
  intro m n h
  unfold SessionLife.handleAccept
  split_ifs
  · exact blind_modify (fun w : World => { w with sessSptr := false }) (fun _ _ _ => rfl) _ _ h
  · exact blind_modify (fun w : World => { w with sessSptr := false }) (fun _ _ _ => rfl) _ _
      (blind_start m n h)

/-! What an operation completes in. -/

section Done

variable (addressText : Address → Bytes) (fuel : ℕ)

theorem blind_outputDone (op : Output.Op) (res : SessionLife.Completion) :
    Blind (outputDone addressText op res) := by
  cases op with
  | asyncResolve hostname port index => exact blind_handleResolve addressText _ _ _ _
  | asyncConnect address port index => exact blind_connectNext addressText _ _
  | writeConnectRequest hop dst index => exact blind_handleWriteConnectRequest addressText _ _
  | readConnectResponse hop index => exact blind_handleReadConnectResponse addressText _ _

theorem blind_hopDone (i index : ℕ) (op : StreamObject.Op UInt8 ClientSessionSocks5.Callback)
    (res : SessionLife.Completion) : Blind (hopDone addressText i index op res) := by
  intro m n h
  obtain ⟨log,history,rfl⟩ := alike_lent m n h
  have hhop : (m.modify (lendTo log history)).state.hop i = m.state.hop i := rfl
  have hdoes := fun r => blind_hopDoes i index r (callOutput addressText index)
    (blind_callOutput addressText index) m _ h
  unfold hopDone
  simp only [hhop]
  split_ifs
  · refine respects_resume stored _ stored_lent ?_ _ _ (hdoes _)
    rintro w _ ⟨log,history,rfl⟩
    exact ⟨log,history,rfl⟩
  · exact hdoes _

theorem blind_clearDst : ∀ w w', Lent w w' → Lent w.clearDst w'.clearDst := by
  rintro w _ ⟨log,history,rfl⟩
  exact ⟨log,history,rfl⟩

theorem blind_socks5Done (op : StreamObject.Op UInt8 ServerSessionSocks5.Callback)
    (res : SessionLife.Completion) : Blind (socks5Done op res) := by
  intro m n h
  obtain ⟨log,history,rfl⟩ := alike_lent m n h
  have hserver : (m.modify (lendTo log history)).state.server = m.state.server := rfl
  unfold socks5Done
  rw [hserver]
  cases m.state.server with
  | none => exact h
  | some srv =>
    cases srv with
    | https s => exact h
    | socks5 s =>
      dsimp only
      split_ifs
      · exact respects_resume stored _ stored_lent blind_clearDst _ _ (blind_serverDoes _ _ _ _ h)
      · exact blind_serverDoes _ _ _ _ h

theorem blind_httpsDone (op : StreamObject.Op UInt8 ServerSessionHttps.Callback)
    (res : SessionLife.Completion) : Blind (httpsDone fuel op res) := by
  intro m n h
  obtain ⟨log,history,rfl⟩ := alike_lent m n h
  have hserver : (m.modify (lendTo log history)).state.server = m.state.server := rfl
  unfold httpsDone
  rw [hserver]
  cases m.state.server with
  | none => exact h
  | some srv =>
    cases srv with
    | socks5 s => exact h
    | https s =>
      dsimp only
      split_ifs
      · exact respects_resume stored _ stored_lent blind_clearDst _ _ (blind_serverDoes _ _ _ _ h)
      · exact blind_serverDoes _ _ _ _ h

theorem keeps_handleRead (beginWrite : Session → ℕ → SessionTunnel.Effect)
    (hb : ∀ n, Keeps fun s => beginWrite s n) (sock : SessionTunnel.Side) (err : ErrorCode)
    (n : ℕ) : Keeps fun s => SessionTunnel.handleRead beginWrite sock s err n := by
  intro log history s
  unfold SessionTunnel.handleRead
  split_ifs
  · rfl
  · rfl
  · exact hb n log history s

theorem keeps_handleWrite (beginRead : Session → SessionTunnel.Effect) (hb : Keeps beginRead)
    (err : ErrorCode) (n : ℕ) : Keeps fun s => SessionTunnel.handleWrite beginRead s err n := by
  intro log history s
  unfold SessionTunnel.handleWrite
  split_ifs
  · rfl
  · exact hb log history s

theorem keeps_run (k : SessionTunnel.Callback) (err : ErrorCode) (n : ℕ) :
    Keeps fun s => SessionTunnel.run k s err n := by
  cases k with
  | handleInputRead => exact keeps_handleRead _ (fun _ _ _ _ => rfl) .output err n
  | handleOutputRead => exact keeps_handleRead _ (fun _ _ _ _ => rfl) .input err n
  | handleInputWrite => exact keeps_handleWrite _ (fun _ _ _ => rfl) err n
  | handleOutputWrite => exact keeps_handleWrite _ (fun _ _ _ => rfl) err n

theorem blind_tunnelDone (op : SessionTunnel.Op) (res : SessionLife.Completion) :
    Blind (tunnelDone op res) := by
  cases op with
  | readSome sock buf k =>
    refine respects_hold (blind_tunnel (fun s => SessionTunnel.run k
      (SessionTunnel.fillBuf s buf res.data) res.err res.data.length) fun log history s => ?_)
    have hfill : SessionTunnel.fillBuf { s with log := log, history := history } buf res.data =
        { SessionTunnel.fillBuf s buf res.data with log := log, history := history } := by
      cases buf <;> rfl
    exact (congrArg (fun s => SessionTunnel.run k s res.err res.data.length) hfill).trans
      (keeps_run k _ _ log history _)
  | write sock buf numBytes k =>
    exact respects_hold (blind_tunnel (fun s => SessionTunnel.run k s res.err res.data.length)
      (keeps_run k res.err res.data.length))

/-- No callback of a session depends on the log and the history. -/
theorem blind_done (op : SessionLife.Op) (res : SessionLife.Completion) :
    Blind (done addressText fuel op res) := by
  cases op with
  | output op => exact blind_outputDone addressText op res
  | hop i index op => exact blind_hopDone addressText i index op res
  | socks5 op => exact blind_socks5Done op res
  | https op => exact blind_httpsDone fuel op res
  | tunnel op => exact blind_tunnelDone op res

end Done

/-! A session among others, and alone. -/

/-- The second session has another log and another history, and has carried the
same. -/
structure Same (p q : Passage) : Prop where
  life : Alike Lent p.life q.life
  traffic : p.traffic = q.traffic

theorem Same.symm {p q : Passage} (h : Same p q) : Same q p := by
  obtain ⟨⟨⟨log,history,hs⟩,hl,hr⟩,ht⟩ := h
  refine ⟨⟨⟨p.life.state.sess.log,p.life.state.sess.history,?_⟩,hl.symm,hr.symm⟩,ht.symm⟩
  rw [hs]
  rfl

theorem Same.trans {p q r : Passage} (h : Same p q) (h' : Same q r) : Same p r := by
  obtain ⟨⟨⟨log,history,hs⟩,hl,hr⟩,ht⟩ := h
  obtain ⟨⟨⟨log',history',hs'⟩,hl',hr'⟩,ht'⟩ := h'
  refine ⟨⟨⟨log',history',?_⟩,hl.trans hl',hr.trans hr'⟩,ht.trans ht'⟩
  rw [hs', hs]
  rfl

theorem same_flip (ps qs : List Passage) (h : List.Forall₂ Same ps qs) :
    List.Forall₂ Same qs ps := h.flip.imp fun _ _ hxy => hxy.symm

theorem same_mem (ps qs : List Passage) (h : List.Forall₂ Same ps qs) (p : Passage)
    (hp : p ∈ ps) : ∃ q ∈ qs, Same p q := by
  obtain ⟨hlength,hall⟩ := List.forall₂_iff_get.mp h
  obtain ⟨i,rfl⟩ := List.mem_iff_get.mp hp
  exact ⟨_,List.get_mem qs ⟨i,hlength ▸ i.isLt⟩,hall i i.isLt (hlength ▸ i.isLt)⟩

theorem same_lend (p : Passage) (log history : List Bytes) : Same p (lend log history p) :=
  ⟨lent_alike p.life log history,rfl⟩

theorem record_lent (op : SessionLife.Op) (res : SessionLife.Completion) (w w' : World)
    (l : Traffic) (h : Lent w w') : record w.sess op res l = record w'.sess op res l := by
  obtain ⟨log,history,rfl⟩ := h
  cases op with
  | tunnel op =>
    cases op with
    | readSome sock buf k => rfl
    | write sock buf n k => cases buf <;> rfl
  | output op => rfl
  | hop i index op => rfl
  | socks5 op => rfl
  | https op => rfl

section Sessions

variable (addressText : Address → Bytes) (fuel : ℕ) (cfg : Config) (printProxyErrors : Bool)

theorem step_same (p q p' : Passage) (h : Same p p')
    (ht : SessionTraffic.Step addressText fuel p q) :
    ∃ q', SessionTraffic.Step addressText fuel p' q' ∧ Same q q' := by
  obtain ⟨log,history,hs⟩ := h.life.state
  cases ht with
  | accept err ha =>
    exact ⟨_,.accept p' err (by rw [hs]; exact ha),blind_handleAccept err _ _ h.life,h.traffic⟩
  | complete before after op res hp ha hsound =>
    refine ⟨_,.complete p' before after op res (by rw [hs]; exact hp) ha hsound,
      blind_done addressText fuel op res _ _ (blind_modify
        (fun w : World => { w with pending := before ++ after }) (fun _ _ _ => rfl) _ _ h.life),?_⟩
    exact (record_lent op res _ _ _ h.life.state).trans
      (congrArg (record p'.life.state.sess op res) h.traffic)

/-- The first session of a server that was accepted. -/
def opened (err : ErrorCode) : Passage :=
  let begun := SessionTraffic.begun cfg printProxyErrors [] []
  { begun with life := SessionLife.handleAccept err begun.life }

/-- A session has gone on from its accept with nothing but its own operations
completing. -/
def Alone (p : Passage) : Prop :=
  ∃ err q, Same p q ∧ Run (SessionTraffic.Step addressText fuel) (opened cfg printProxyErrors err) q

theorem alone_accepted (err : ErrorCode) (p : Passage)
    (h : Same p (SessionTraffic.begun cfg printProxyErrors [] [])) :
    Alone addressText fuel cfg printProxyErrors
      { p with life := SessionLife.handleAccept err p.life } :=
  ⟨err,opened cfg printProxyErrors err,⟨blind_handleAccept err _ _ h.life,h.traffic⟩,.refl⟩

theorem alone_step (p q : Passage) (h : Alone addressText fuel cfg printProxyErrors p)
    (ht : SessionTraffic.Step addressText fuel p q) :
    Alone addressText fuel cfg printProxyErrors q := by
  obtain ⟨err,p',hsame,hrun⟩ := h
  obtain ⟨q',hstep,hq⟩ := step_same addressText fuel p q p' hsame ht
  exact ⟨err,q',hq,hrun.tail hstep⟩

theorem alone_lend (log history : List Bytes) (p : Passage)
    (h : Alone addressText fuel cfg printProxyErrors p) :
    Alone addressText fuel cfg printProxyErrors (lend log history p) := by
  obtain ⟨err,q,hsame,hrun⟩ := h
  exact ⟨err,q,(same_lend p log history).symm.trans hsame,hrun⟩

theorem alone_same (p q : Passage) (h : Same p q)
    (ha : Alone addressText fuel cfg printProxyErrors q) :
    Alone addressText fuel cfg printProxyErrors p := by
  obtain ⟨err,r,hsame,hrun⟩ := ha
  exact ⟨err,r,h.trans hsame,hrun⟩

/-! The thread that the sessions share. -/

/-- The session has a handler to call, but its parser does not come back. -/
def Hangs (p : Passage) : Prop := Hung fuel cfg p.life.state (p.traffic.taken .input)

/-- One thread runs the callbacks of all sessions, and it is free. -/
structure Turn (v v' : Server) : Prop where
  free : ∀ p ∈ v.accepted, ¬ Hangs fuel cfg p
  step : ServerTraffic.Step addressText fuel cfg printProxyErrors v v'

theorem hangs_same (p q : Passage) (h : Same p q) (hp : Hangs fuel cfg p) :
    Hangs fuel cfg q := by
  obtain ⟨log,history,hs⟩ := h.life.state
  rw [Hangs, hs, ← h.traffic]
  exact hung_lend fuel cfg log history _ _ hp

/-- A session that goes on does not hang. -/
theorem step_free (p q : Passage) (h : SessionTraffic.Step addressText fuel p q) :
    ¬ Hangs fuel cfg p := by
  intro hp
  cases h with
  | accept err hs => exact absurd (hs.symm.trans hp.wired.sptr) (by simp)
  | complete before after op res hpend ha hs =>
    exact absurd (hp.idle.symm.trans hpend) (by simp)

/-- Nothing has been read by a session that was just accepted. -/
theorem opened_free (err : ErrorCode) : ¬ Hangs fuel cfg (opened cfg printProxyErrors err) := by
  intro h
  obtain ⟨text,ht,-⟩ := h.parsed
  exact absurd ht (by simp [ServerSessionHttps.trimLine, opened, SessionTraffic.begun])

theorem same_free (ps qs : List Passage) (h : List.Forall₂ Same ps qs)
    (hp : ∀ p ∈ ps, ¬ Hangs fuel cfg p) : ∀ q ∈ qs, ¬ Hangs fuel cfg q := by
  intro q hq hhangs
  obtain ⟨p,hmem,hsame⟩ := same_mem qs ps (same_flip ps qs h) q hq
  exact hp p hmem (hangs_same fuel cfg q p hsame hhangs)

/-- No two of the sessions hang. -/
def OneHangs (ps : List Passage) : Prop :=
  ps.Pairwise fun p q => ¬ (Hangs fuel cfg p ∧ Hangs fuel cfg q)

theorem oneHangs_insert (before after : List Passage) (p : Passage)
    (h : ∀ x ∈ before ++ after, ¬ Hangs fuel cfg x) : OneHangs fuel cfg (before ++ p::after) := by
  have hb : ∀ x ∈ before, ¬ Hangs fuel cfg x := fun x hx => h x (List.mem_append_left _ hx)
  have ha : ∀ x ∈ after, ¬ Hangs fuel cfg x := fun x hx => h x (List.mem_append_right _ hx)
  refine List.pairwise_append.mpr ⟨?_,List.pairwise_cons.mpr ⟨?_,?_⟩,?_⟩
  · exact List.pairwise_of_forall_mem_list fun x hx y _ hxy => hb x hx hxy.1
  · exact fun x hx hpx => ha x hx hpx.2
  · exact List.pairwise_of_forall_mem_list fun x hx y _ hxy => ha x hx hxy.1
  · exact fun x hx y _ hxy => hb x hx hxy.1

theorem oneHangs_others (before after : List Passage) (p : Passage)
    (h : OneHangs fuel cfg (before ++ p::after)) (hp : Hangs fuel cfg p) :
    ∀ x ∈ before ++ after, ¬ Hangs fuel cfg x := by
  obtain ⟨-,hcons,hcross⟩ := List.pairwise_append.mp h
  intro x hx
  rcases List.mem_append.mp hx with hx | hx
  · exact fun h => hcross x hx p List.mem_cons_self ⟨h,hp⟩
  · exact fun h => (List.pairwise_cons.mp hcons).1 x hx ⟨hp,h⟩

theorem oneHangs_same (ps qs : List Passage) (h : List.Forall₂ Same ps qs)
    (hq : OneHangs fuel cfg qs) : OneHangs fuel cfg ps := by
  induction h with
  | nil => exact .nil
  | @cons x y xs ys hxy hrest ih =>
    obtain ⟨hhead,htail⟩ := List.pairwise_cons.mp hq
    refine List.pairwise_cons.mpr ⟨fun p hp hboth => ?_,ih htail⟩
    obtain ⟨z,hz,hpz⟩ := same_mem xs ys hrest p hp
    exact hhead z hz
      ⟨hangs_same fuel cfg x y hxy hboth.1,hangs_same fuel cfg p z hpz hboth.2⟩

/-! From the server to its sessions. -/

/-- The session that waits is a new one, and the others are sessions on their own. -/
structure Apart (v : Server) : Prop where
  waits : Same v.sessSptr (SessionTraffic.begun cfg printProxyErrors [] [])
  alone : ∀ p ∈ v.accepted, Alone addressText fuel cfg printProxyErrors p
  single : OneHangs fuel cfg v.accepted

theorem begun_same (log history : List Bytes) :
    Same (SessionTraffic.begun cfg printProxyErrors log history)
      (SessionTraffic.begun cfg printProxyErrors [] []) :=
  (same_lend (SessionTraffic.begun cfg printProxyErrors [] []) log history).symm

theorem apart_turn (v v' : Server) (h : Apart addressText fuel cfg printProxyErrors v)
    (ht : Turn addressText fuel cfg printProxyErrors v v') :
    Apart addressText fuel cfg printProxyErrors v' := by
  obtain ⟨hfree,ht⟩ := ht
  cases ht with
  | accept err =>
    refine ⟨begun_same cfg printProxyErrors _ _,fun p hp => ?_,
      oneHangs_insert fuel cfg v.accepted [] _ ((List.append_nil _).symm ▸ hfree)⟩
    rcases List.mem_append.mp hp with hp | hp
    · exact h.alone p hp
    · rw [List.mem_singleton.mp hp]
      exact alone_accepted addressText fuel cfg printProxyErrors err
        (lend v.log v.history v.sessSptr)
        ((same_lend v.sessSptr v.log v.history).symm.trans h.waits)
  | complete before after p q hv hq =>
    refine ⟨h.waits,fun x hx => ?_,oneHangs_insert fuel cfg before after q fun x hx => ?_⟩
    · have hp : Alone addressText fuel cfg printProxyErrors p := h.alone p (by simp [hv])
      rcases List.mem_append.mp hx with hx | hx
      · exact h.alone x (by simp [hv, hx])
      · rcases List.mem_cons.mp hx with rfl | hx
        · exact alone_step addressText fuel cfg printProxyErrors _ x
            (alone_lend addressText fuel cfg printProxyErrors v.log v.history p hp) hq
        · exact h.alone x (by simp [hv, hx])
    · refine hfree x ?_
      rw [hv]
      rcases List.mem_append.mp hx with hx | hx
      · exact List.mem_append_left _ hx
      · exact List.mem_append_right _ (List.mem_cons_of_mem _ hx)

theorem run_apart (v : Server) (h : Run (Turn addressText fuel cfg printProxyErrors)
    (ServerTraffic.start cfg printProxyErrors) v) :
    Apart addressText fuel cfg printProxyErrors v :=
  run_invariant (Apart addressText fuel cfg printProxyErrors)
    (apart_turn addressText fuel cfg printProxyErrors) h
    ⟨begun_same cfg printProxyErrors [] [],by simp [ServerTraffic.start],.nil⟩

/-! From sessions to a server that has them. -/

/-- What a session does alone it does among the others too, if none of them hangs. -/
theorem among_others (p q : Passage) (h : Run (SessionTraffic.Step addressText fuel) p q) :
    ∀ (v : Server) (before after : List Passage) (x : Passage), Same x p →
      v.accepted = before ++ x::after → (∀ y ∈ before ++ after, ¬ Hangs fuel cfg y) →
        ∃ v' y, Same y q ∧ v'.accepted = before ++ y::after ∧
          Run (Turn addressText fuel cfg printProxyErrors) v v' := by
  intro v before after x hx hv hfree
  induction h with
  | refl => exact ⟨v,x,hx,hv,.refl⟩
  | tail _ hstep ih =>
    obtain ⟨u,y,hy,hu,hrun⟩ := ih
    obtain ⟨z,hz,hsame⟩ := step_same addressText fuel _ _ (lend u.log u.history y)
      (hy.symm.trans (same_lend y u.log u.history)) hstep
    have hturns : ∀ a ∈ u.accepted, ¬ Hangs fuel cfg a := by
      intro a ha
      rcases List.mem_append.mp (hu ▸ ha) with ha | ha
      · exact hfree a (List.mem_append_left _ ha)
      · rcases List.mem_cons.mp ha with rfl | ha
        · exact fun h => step_free addressText fuel cfg _ _ hstep (hangs_same fuel cfg _ _ hy h)
        · exact hfree a (List.mem_append_right _ ha)
    refine ⟨{ u with
      accepted := before ++ z::after
      log := z.life.state.sess.log
      history := z.life.state.sess.history },z,hsame.symm,rfl,?_⟩
    exact hrun.tail ⟨hturns,.complete u before after y z hu hz⟩

/-- A server of which nothing hangs can get one more session. -/
theorem one_more (p : Passage) (hp : Alone addressText fuel cfg printProxyErrors p) (v : Server)
    (hw : Same v.sessSptr (SessionTraffic.begun cfg printProxyErrors [] []))
    (hfree : ∀ x ∈ v.accepted, ¬ Hangs fuel cfg x) :
    ∃ v' y, Same p y ∧ v'.accepted = v.accepted ++ [y] ∧
      Run (Turn addressText fuel cfg printProxyErrors) v v' := by
  obtain ⟨err,q,hsame,hrun⟩ := hp
  have hlent := (same_lend v.sessSptr v.log v.history).symm.trans hw
  have hx : Same
      { v.sessSptr with
        life := SessionLife.handleAccept err (lend v.log v.history v.sessSptr).life }
      (opened cfg printProxyErrors err) :=
    ⟨blind_handleAccept err _ _ hlent.life,hlent.traffic⟩
  obtain ⟨v',y,hy,hv,hrun'⟩ := among_others addressText fuel cfg printProxyErrors _ q hrun
    (ServerTraffic.handleAccept cfg printProxyErrors v err) v.accepted [] _ hx rfl
    ((List.append_nil _).symm ▸ hfree)
  exact ⟨v',y,hsame.trans hy.symm,hv,.trans (.single ⟨hfree,.accept v err⟩) hrun'⟩

/-- Any sessions of which none hangs. -/
theorem free_reached (ps : List Passage)
    (h : ∀ p ∈ ps, Alone addressText fuel cfg printProxyErrors p)
    (hfree : ∀ p ∈ ps, ¬ Hangs fuel cfg p) :
    ∃ v, Run (Turn addressText fuel cfg printProxyErrors) (ServerTraffic.start cfg printProxyErrors)
      v ∧ List.Forall₂ Same ps v.accepted := by
  induction ps using List.reverseRecOn with
  | nil => exact ⟨_,.refl,.nil⟩
  | append_singleton ps p ih =>
    have hbefore : ∀ x ∈ ps, ¬ Hangs fuel cfg x := fun x hx => hfree x (by simp [hx])
    obtain ⟨v,hrun,hsame⟩ := ih (fun x hx => h x (by simp [hx])) hbefore
    obtain ⟨v',y,hy,hv,hmore⟩ := one_more addressText fuel cfg printProxyErrors p (h p (by simp)) v
      (run_apart addressText fuel cfg printProxyErrors v hrun).waits
      (same_free fuel cfg ps _ hsame hbefore)
    refine ⟨v',hrun.trans hmore,?_⟩
    rw [hv]
    exact List.rel_append hsame (.cons hy .nil)

/-- The step before the one that hangs. -/
theorem hung_last (p : Passage) (h : Alone addressText fuel cfg printProxyErrors p)
    (hp : Hangs fuel cfg p) : ∃ r q, Alone addressText fuel cfg printProxyErrors r ∧
      SessionTraffic.Step addressText fuel r q ∧ Same p q := by
  obtain ⟨err,q,hsame,hrun⟩ := h
  rcases Relation.ReflTransGen.cases_tail hrun with rfl | ⟨r,hrun,hstep⟩
  · exact absurd (hangs_same fuel cfg _ _ hsame hp) (opened_free fuel cfg printProxyErrors err)
  · exact ⟨r,q,⟨err,r,same_lend r _ _,hrun⟩,hstep,hsame⟩

/-- The session that hangs has come to it last. -/
theorem hung_reached (before after : List Passage) (p : Passage)
    (h : ∀ x ∈ before ++ p::after, Alone addressText fuel cfg printProxyErrors x)
    (hp : Hangs fuel cfg p) (hfree : ∀ x ∈ before ++ after, ¬ Hangs fuel cfg x) :
    ∃ v, Run (Turn addressText fuel cfg printProxyErrors) (ServerTraffic.start cfg printProxyErrors)
      v ∧ List.Forall₂ Same (before ++ p::after) v.accepted := by
  obtain ⟨r,q,hr,hstep,hsame⟩ := hung_last addressText fuel cfg printProxyErrors p
    (h p (by simp)) hp
  have hothers : ∀ x ∈ before ++ r::after, Alone addressText fuel cfg printProxyErrors x ∧
      ¬ Hangs fuel cfg x := by
    intro x hx
    rcases List.mem_append.mp hx with hx | hx
    · exact ⟨h x (by simp [hx]),hfree x (by simp [hx])⟩
    · rcases List.mem_cons.mp hx with rfl | hx
      · exact ⟨hr,step_free addressText fuel cfg x q hstep⟩
      · exact ⟨h x (by simp [hx]),hfree x (by simp [hx])⟩
  obtain ⟨v,hrun,hall⟩ := free_reached addressText fuel cfg printProxyErrors (before ++ r::after)
    (fun x hx => (hothers x hx).1) fun x hx => (hothers x hx).2
  have hback : List.Forall₂ Same v.accepted (before ++ r::after) := same_flip _ _ hall
  have hbefore := List.forall₂_take_append _ before (r::after) hback
  obtain ⟨x,xs,hx,hxs,hdrop⟩ := List.forall₂_cons_right_iff.mp
    (List.forall₂_drop_append _ before (r::after) hback)
  set ys := List.take before.length v.accepted
  have hv : v.accepted = ys ++ x::xs := by rw [← hdrop, List.take_append_drop]
  have hsides : List.Forall₂ Same (before ++ after) (ys ++ xs) :=
    List.rel_append (same_flip _ _ hbefore) (same_flip _ _ hxs)
  obtain ⟨v',y,hy,hv',hlast⟩ := among_others addressText fuel cfg printProxyErrors r q
    (.single hstep) v ys xs x hx hv (same_free fuel cfg _ _ hsides hfree)
  refine ⟨v',hrun.trans hlast,?_⟩
  rw [hv']
  exact List.rel_append (same_flip _ _ hbefore) (.cons (hsame.trans hy.symm) (same_flip _ _ hxs))

/-- Up to the log and the history, the sessions of a server are any sessions that
went on alone of which one hangs at most, and nothing else. -/
theorem sessions_apart (ps : List Passage) :
    (∃ v, Run (Turn addressText fuel cfg printProxyErrors)
      (ServerTraffic.start cfg printProxyErrors) v ∧ List.Forall₂ Same ps v.accepted) ↔
        (∀ p ∈ ps, Alone addressText fuel cfg printProxyErrors p) ∧ OneHangs fuel cfg ps := by
  constructor
  · rintro ⟨v,hrun,hsame⟩
    have hapart := run_apart addressText fuel cfg printProxyErrors v hrun
    refine ⟨fun p hp => ?_,oneHangs_same fuel cfg ps _ hsame hapart.single⟩
    obtain ⟨q,hq,hpq⟩ := same_mem ps _ hsame p hp
    exact alone_same addressText fuel cfg printProxyErrors p q hpq (hapart.alone q hq)
  · rintro ⟨halone,hone⟩
    by_cases hany : ∃ p ∈ ps, Hangs fuel cfg p
    · obtain ⟨p,hp,hhangs⟩ := hany
      obtain ⟨before,after,rfl⟩ := List.append_of_mem hp
      exact hung_reached addressText fuel cfg printProxyErrors before after p halone hhangs
        (oneHangs_others fuel cfg before after p hone hhangs)
    · exact free_reached addressText fuel cfg printProxyErrors ps halone
        fun p hp hhangs => hany ⟨p,hp,hhangs⟩

end Sessions

end ProxySwiss.SessionsApart
