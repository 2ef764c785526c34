import ProxySwiss.Session
import ProxySwiss.ChainSoundness

/-!
# What a session lets through

A run of a session leaves one log: the request was read, the connect attempt
ended, the response was given and was written, the tunnel was begun. The log
stops early when one of these fails, and then both sockets are closed.
-/

set_option autoImplicit false

namespace ProxySwiss.SessionGating
open Memory TransitionSystem CallbackObject Session ChainWalk ChainSoundness

abbrev SessionState := Conf Session Session.Op Completion Session.Event

/-- Every operation completes with any outcome. -/
abbrev SessionStep (addressText : Address → Bytes) : SessionState → SessionState → Prop :=
  Step (session addressText) fun _ _ => True

def script (e : ErrorCode) (cr : Output.ConnectResult) (r : ConnectResponse)
    (err : ErrorCode) : List Session.Event :=
  [.requestRead e,.connectResult cr,.respond r,.responseWritten err,.beginInputRead,
    .beginOutputRead]

structure Closed (s : Session) : Prop where
  input : s.inputSock = false
  output : s.outputSock = false

/-- What no callback changes. -/
structure Kept (cfg : Config) (s : Session) : Prop where
  input : s.input = Input.create cfg.input
  config : s.cfg = cfg

/-- The response says what the result says. -/
def Agrees (cr : Output.ConnectResult) (r : ConnectResponse) : Prop :=
  r.major = .succeeded ↔ cr.success = true

inductive Phase (cfg : Config) (c : SessionState) : Prop
  | asking (hk : Kept cfg c.obj) (ho : c.obj.output = Output.create cfg.output)
      (hp : c.pending = [.readConnectRequest]) (he : c.events = [])
  | refused (e : ErrorCode) (herr : e.failed) (hc : Closed c.obj) (hp : c.pending = [])
      (he : c.events = [.requestRead e])
  | connecting (e : ErrorCode) (dst : Destination) (op : Output.Op) (oc : OutputState)
      (hok : ¬ e.failed) (hk : Kept cfg c.obj) (hph : ChainWalk.Phase cfg.output dst oc)
      (ho : c.obj.output = oc.obj) (hop : oc.pending = [op]) (hp : c.pending = [.output op])
      (he : c.events = [.requestRead e])
  | responding (e : ErrorCode) (cr : Output.ConnectResult) (r : ConnectResponse)
      (hok : ¬ e.failed) (ha : Agrees cr r) (hcr : c.obj.outputConnRes = cr)
      (hp : c.pending = [.writeConnectResponse r])
      (he : c.events = [.requestRead e,.connectResult cr,.respond r])
  | rejected (e : ErrorCode) (cr : Output.ConnectResult) (r : ConnectResponse)
      (err : ErrorCode) (hok : ¬ e.failed) (ha : Agrees cr r)
      (hc : Closed c.obj) (hp : c.pending = [])
      (he : c.events = [.requestRead e,.connectResult cr,.respond r,.responseWritten err])
  | tunnelling (e : ErrorCode) (cr : Output.ConnectResult) (r : ConnectResponse)
      (err : ErrorCode) (hok : ¬ e.failed) (ha : Agrees cr r) (hcr : cr.success = true)
      (hw : ¬ err.failed) (hp : c.pending = []) (he : c.events = script e cr r err)

/-- A response that was written ends in closed sockets or in the tunnel. -/
theorem written_eq (s : Session) (err : ErrorCode) :
    handleWriteConnectResponse s err =
      if err.failed ∨ s.outputConnRes.success = false then
        (closeAll s,[.emit (.responseWritten err)])
      else (allocReadBuffers s,
        [.emit (.responseWritten err),.emit .beginInputRead,.emit .beginOutputRead]) := by
  unfold handleWriteConnectResponse
  by_cases he : err.failed
  · simp [he, emit]
  · cases hs : s.outputConnRes.success <;> simp [he, emit, makeTunnel]

theorem written_phase (cfg : Config) (d : SessionState) (s : Session) (e err : ErrorCode)
    (cr : Output.ConnectResult) (r : ConnectResponse) (hok : ¬ e.failed) (ha : Agrees cr r)
    (hcr : s.outputConnRes = cr) (ho : d.obj = (handleWriteConnectResponse s err).1)
    (hp : d.pending = [])
    (he : d.events = [.requestRead e,.connectResult cr,.respond r] ++
      emitted (handleWriteConnectResponse s err).2) : Phase cfg d := by
  rw [written_eq] at ho he
  split_ifs at ho he with hbad
  · exact .rejected e cr r err hok ha (by rw [ho]; exact ⟨rfl,rfl⟩) hp he
  · rw [not_or, Bool.not_eq_false] at hbad
    exact .tunnelling e cr r err hok ha (hcr ▸ hbad.2) hbad.1 hp he

/-- The result of a connect attempt that can reach the session. -/
structure Credible (cfg : Config) (cr : Output.ConnectResult) : Prop where
  index : cr.chainFailIndex ≠ Output.kNoIndex → cr.chainFailIndex < hops cfg.output
  agrees : cr.success = false → (failureResponse cr).major ≠ .succeeded

/-- The proxy that is to be printed is one of the chain. -/
theorem printed_quiet (cfg : Config) (s : Session) (cr : Output.ConnectResult)
    (hk : Kept cfg s) (hcr : Credible cfg cr) :
    (printProxyError s cr).2 = [] ∧ Kept cfg (printProxyError s cr).1 ∧
      (printProxyError s cr).1.outputConnRes = s.outputConnRes := by
  unfold printProxyError
  split_ifs with hprint hidx
  · have hlt := hcr.index hidx
    have hsome : s.cfg.output.proxyChain[cr.chainFailIndex]? =
        some cfg.output.proxyChain[cr.chainFailIndex] := by
      rw [hk.config]
      exact List.getElem?_eq_getElem hlt
    rw [hsome]
    exact ⟨rfl,⟨hk.input,hk.config⟩,rfl⟩
  · exact ⟨rfl,⟨hk.input,hk.config⟩,rfl⟩
  · exact ⟨rfl,hk,rfl⟩

theorem connected_eq (addressText : Address → Bytes) (cfg : Config) (s : Session)
    (cr : Output.ConnectResult) (hk : Kept cfg s) (hcr : Credible cfg cr) :
    ∃ t r, Kept cfg t ∧ t.outputConnRes = cr ∧ Agrees cr r ∧
      handleConnectOutput addressText s cr =
        emit (.connectResult cr) (writeConnectResponse t r) := by
  set s' : Session := { s with outputConnRes := cr }
  have hk' : Kept cfg s' := ⟨hk.input,hk.config⟩
  cases hs : cr.success with
  | true =>
    have hkept : Kept cfg (remember addressText s') ∧
        (remember addressText s').outputConnRes = cr := by
      simp only [remember]
      split_ifs
      · exact ⟨hk',rfl⟩
      · exact ⟨⟨hk.input,hk.config⟩,rfl⟩
    refine ⟨_,⟨.succeeded⟩,hkept.1,hkept.2,by simp [Agrees, hs],?_⟩
    simp [handleConnectOutput, hs, s']
  | false =>
    have hagree : Agrees cr (failureResponse cr) := by
      simp [Agrees, hs, hcr.agrees hs]
    by_cases herr : cr.err.failed
    · obtain ⟨hq,hkp,hout⟩ := printed_quiet cfg s' cr hk' hcr
      refine ⟨(printProxyError s' cr).1,failureResponse cr,hkp,hout,hagree,?_⟩
      simp [handleConnectOutput, hs, herr, s', hq]
    · refine ⟨s',failureResponse cr,hk',rfl,hagree,?_⟩
      simp [handleConnectOutput, hs, herr, s']

/-- Once the connect attempt has ended the response is given, and a tunnel
takes it at once. -/
theorem connected_phase (addressText : Address → Bytes) (cfg : Config) (d : SessionState)
    (s : Session) (e : ErrorCode) (cr : Output.ConnectResult) (hok : ¬ e.failed)
    (hk : Kept cfg s) (hcr : Credible cfg cr)
    (ho : d.obj = (handleConnectOutput addressText s cr).1)
    (hp : d.pending = started (handleConnectOutput addressText s cr).2)
    (he : d.events = .requestRead e::emitted (handleConnectOutput addressText s cr).2) :
    Phase cfg d := by
  obtain ⟨t,r,hkt,hout,hagree,heq⟩ := connected_eq addressText cfg s cr hk hcr
  rw [heq] at ho hp he
  cases hin : cfg.input with
  | tunnel destination =>
    have hw : writeConnectResponse t r =
        emit (.respond r) (handleWriteConnectResponse t .noError) := by
      simp [writeConnectResponse, hkt.input, hin, Input.create, assertThat]
    rw [hw] at ho hp he
    apply written_phase cfg d t e .noError cr r hok hagree hout ho
    · rw [hp]
      exact responseWritten_idle t .noError
    · exact he
  | proxyServer type =>
    have hw : writeConnectResponse t r =
        (t,[.emit (.respond r),.start (.writeConnectResponse r)]) := by
      simp [writeConnectResponse, hkt.input, hin, Input.create, assertThat, emit]
    rw [hw] at ho hp he
    exact .responding e cr r hok hagree (by rw [ho]; exact hout) hp he

/-- Only a step that did not succeed makes the output report a failure. -/
theorem result_credible (cfg : Config) (dst : Destination) (oc : OutputState)
    (cr : Output.ConnectResult) (h : ChainWalk.Phase cfg.output dst oc)
    (he : oc.events = [.connected cr]) : Credible cfg cr := by
  cases h with
  | walking op ha hs hp hev => simp [hev] at he
  | failed hist op r ha hr hc hp hev =>
    obtain rfl : cr = failureOf cfg.output op r := by simpa [hev, eq_comm] using he
    obtain ⟨hnone,hlt⟩ := blame_index cfg.output dst hist op ha
    obtain ⟨-,hidx⟩ := failure_fields cfg.output op r
    constructor
    · rw [hidx]
      exact fun hx => hlt fun hz => hx (hnone.mpr hz)
    · intro _
      by_cases hf : r.err.failed
      · have hm := errorCodeToMajor_refuses r.err
        cases hmaj : ConnectResponse.errorCodeToMajor r.err with
        | none => simp [failureResponse, failureOf, hf, hmaj]
        | some m =>
          have hne : m ≠ .succeeded := fun h => hm (hmaj.trans (congrArg some h))
          simpa [failureResponse, failureOf, hf, hmaj] using hne
      · -- without an error only a response can have failed
        cases op with
        | readConnectResponse hop index =>
          have hm : r.connResp.major ≠ .succeeded := fun hm => hr ⟨hf,hm⟩
          simpa [failureResponse, failureOf, hf] using hm
        | asyncResolve _ _ _ => exact absurd hf hr
        | asyncConnect _ _ _ => exact absurd hf hr
        | writeConnectRequest _ _ _ => exact absurd hf hr
  | finished hw hp hev =>
    obtain rfl : cr = { success := true } := by simpa [hev, eq_comm] using he
    exact ⟨fun hx => absurd rfl hx,by simp⟩

/-- The walk of the embedded output goes on, or its result is handed over. -/
theorem embedded_phase (addressText : Address → Bytes) (cfg : Config) (d : SessionState)
    (s : Session) (e : ErrorCode) (dst : Destination) (oc : OutputState)
    (as : List (Action Output.Op Output.Event)) (hok : ¬ e.failed) (hk : Kept cfg s)
    (hph : ChainWalk.Phase cfg.output dst oc) (hobj : s.output = oc.obj)
    (hpend : oc.pending = started as) (hev : oc.events = emitted as)
    (ho : d.obj = (runOutput addressText s as).1)
    (hp : d.pending = started (runOutput addressText s as).2)
    (he : d.events = .requestRead e::emitted (runOutput addressText s as).2) : Phase cfg d := by
  have hcall : ∀ cr, oc.pending = [] → oc.events = [.connected cr] → Phase cfg d := by
    intro cr hnone hcr
    obtain rfl := only_emit as _ (hpend.symm.trans hnone) (hev.symm.trans hcr)
    simp only [runOutput, List.append_nil] at ho hp he
    exact connected_phase addressText cfg d s e cr hok hk
      (result_credible cfg dst oc cr hph hcr) ho hp he
  cases hph with
  | walking op ha hs hop hno =>
    obtain rfl := only_start as op (hpend.symm.trans hop) (hev.symm.trans hno)
    have hrun : ∃ t, Kept cfg t ∧ t.output = s.output ∧
        runOutput addressText s [.start op] = (t,[.start (.output op)]) := by
      cases op with
      | asyncConnect a port index =>
        exact ⟨{ s with outputSock := true },⟨hk.input,hk.config⟩,rfl,rfl⟩
      | asyncResolve _ _ _ => exact ⟨s,hk,rfl,rfl⟩
      | writeConnectRequest _ _ _ => exact ⟨s,hk,rfl,rfl⟩
      | readConnectResponse _ _ => exact ⟨s,hk,rfl,rfl⟩
    obtain ⟨t,hkt,hto,hrun⟩ := hrun
    rw [hrun] at ho hp he
    exact .connecting e dst op oc hok (ho ▸ hkt) (.walking op ha hs hop hno)
      (by rw [ho, hto, hobj]) hop hp he
  | failed hist op r ha hr hc hnone hcr => exact hcall _ hnone hcr
  | finished hw hnone hcr => exact hcall _ hnone hcr

theorem request_phase (addressText : Address → Bytes) (cfg : Config) (d : SessionState)
    (s : Session) (e : ErrorCode) (hk : Kept cfg s) (hout : s.output = Output.create cfg.output)
    (ho : d.obj = (handleReadConnectRequest addressText s e).1)
    (hp : d.pending = started (handleReadConnectRequest addressText s e).2)
    (he : d.events = emitted (handleReadConnectRequest addressText s e).2) : Phase cfg d := by
  by_cases herr : e.failed
  · have heq : handleReadConnectRequest addressText s e =
        (closeAll s,[.emit (.requestRead e)]) := by
      simp [handleReadConnectRequest, herr, emit]
    rw [heq] at ho hp he
    exact .refused e herr (by rw [ho]; exact ⟨rfl,rfl⟩) hp he
  · have heq : handleReadConnectRequest addressText s e = emit (.requestRead e)
        (runOutput addressText { s with output := (s.output.connectThroughChain s.dst).1 }
          (s.output.connectThroughChain s.dst).2) := by
      simp [handleReadConnectRequest, herr]
    rw [heq, hout] at ho hp he
    exact embedded_phase addressText cfg d _ e s.dst
      (Conf.begun ((Output.create cfg.output).connectThroughChain s.dst)) _ herr
      (by exact ⟨hk.input,hk.config⟩) (ChainWalk.phase_begun cfg.output s.dst) rfl rfl rfl ho hp he

theorem phase_begun (addressText : Address → Bytes) (cfg : Config) :
    Phase cfg (Conf.begun (start addressText (create cfg))) := by
  cases hin : cfg.input with
  | tunnel destination =>
    have hs : start addressText (create cfg) =
        handleReadConnectRequest addressText { create cfg with dst := destination } .noError := by
      simp [start, create, hin, Input.create, assertThat]
    rw [hs]
    exact request_phase addressText cfg _ { create cfg with dst := destination } .noError
      ⟨rfl,rfl⟩ rfl rfl rfl rfl
  | proxyServer type =>
    have hs : start addressText (create cfg) = (create cfg,[.start .readConnectRequest]) := by
      simp [start, create, hin, Input.create, assertThat]
    rw [hs]
    exact .asking ⟨rfl,rfl⟩ rfl rfl rfl

theorem phase_next (addressText : Address → Bytes) (cfg : Config) (c d : SessionState)
    (h : Phase cfg c) (ht : SessionStep addressText c d) : Phase cfg d := by
  obtain ⟨op,res,hp,-,rfl⟩ | hidle :
      (∃ op res, c.pending = [op] ∧ True ∧ d = c.next (session addressText) [] [] op res) ∨
        c.pending = [] := by
    by_cases hnone : c.pending = []
    · exact .inr hnone
    · cases h <;> first
        | exact absurd ‹c.pending = []› hnone
        | exact .inl (step_cases _ _ c d (by simp [‹c.pending = [_]›]) ht)
  · cases h with
    | asking hk ho hp' he =>
      obtain rfl := List.singleton_inj.mp (hp.symm.trans hp')
      apply request_phase addressText cfg _ { c.obj with dst := res.dst } res.err
        ⟨hk.input,hk.config⟩ ho rfl
      · simp [Conf.next, session, done]
      · simp [Conf.next, session, done, he]
    | refused e herr hc hp' he => exact absurd (hp.symm.trans hp') (by simp)
    | connecting e dst oop oc hok hk hph ho hop hp' he =>
      obtain rfl := List.singleton_inj.mp (hp.symm.trans hp')
      have hoc : oc.events = [] := by
        cases hph with
        | walking _ _ _ _ he => exact he
        | failed _ _ _ _ _ _ hnone _ => exact absurd (hop.symm.trans hnone) (by simp)
        | finished _ hnone _ => exact absurd (hop.symm.trans hnone) (by simp)
      have hnext := ChainWalk.phase_next cfg.output dst oc _ hph
        (.complete oc [] [] oop res.outcome hop trivial)
      apply embedded_phase addressText cfg _
        { c.obj with output := (Output.done oop res.outcome c.obj.output).1 } e dst _
        (Output.done oop res.outcome c.obj.output).2 hok ⟨hk.input,hk.config⟩ hnext
      · simp [Conf.next, Output.output, ho]
      · simp [Conf.next, Output.output, ho]
      · simp [Conf.next, Output.output, ho, hoc]
      · rfl
      · simp [Conf.next, session, done]
      · simp [Conf.next, session, done, he]
    | responding e cr r hok ha hcr hp' he =>
      obtain rfl := List.singleton_inj.mp (hp.symm.trans hp')
      apply written_phase cfg _ c.obj e res.err cr r hok ha hcr rfl
      · simp [Conf.next, session, done, responseWritten_idle]
      · simp [Conf.next, session, done, he]
    | rejected e cr r err hok ha hc hp' he => exact absurd (hp.symm.trans hp') (by simp)
    | tunnelling e cr r err hok ha hcr hw hp' he => exact absurd (hp.symm.trans hp') (by simp)
  · obtain ⟨op,res,hp,-⟩ := step_cases _ _ c d (by simp [hidle]) ht
    exact absurd (hidle.symm.trans hp) (by simp)

theorem run_phase (addressText : Address → Bytes) (cfg : Config) (c : SessionState)
    (h : Run (SessionStep addressText) (Conf.begun (start addressText (create cfg))) c) :
    Phase cfg c :=
  run_invariant (Phase cfg) (fun c d => phase_next addressText cfg c d) h
    (phase_begun addressText cfg)

/-- The request read, the connect attempt or the response write has failed. -/
def Failed (es : List Session.Event) : Prop :=
  (∃ e, .requestRead e ∈ es ∧ e.failed) ∨
    (∃ cr, .connectResult cr ∈ es ∧ cr.success = false) ∨
    ∃ err, .responseWritten err ∈ es ∧ err.failed

/-- Nothing is outstanding any more, and both sockets are closed. -/
structure Over (c : SessionState) : Prop where
  closed : Closed c.obj
  idle : c.pending = []

theorem rejected_over (addressText : Address → Bytes) (c : SessionState) (r : ConnectResponse)
    (hp : c.pending = [.writeConnectResponse r]) (hs : c.obj.outputConnRes.success = false) :
    Inevitable (SessionStep addressText) Over c := by
  refine .later ⟨_,.complete c [] [] _ {} hp trivial⟩ fun t ht => .now ?_
  obtain ⟨op,res,hp',-,rfl⟩ := step_cases _ _ c t (by simp [hp]) ht
  obtain rfl := List.singleton_inj.mp (hp.symm.trans hp')
  have hd : (session addressText).done (.writeConnectResponse r) res c.obj =
      (closeAll c.obj,[.emit (.responseWritten res.err)]) := by
    change handleWriteConnectResponse c.obj res.err = _
    rw [written_eq, if_pos (.inr hs)]
  constructor
  · rw [Conf.next, hd]
    exact ⟨rfl,rfl⟩
  · simp [Conf.next, hd]

/-- A failure leads to closed sockets, whatever completes next. -/
theorem failed_over (addressText : Address → Bytes) (cfg : Config) (c : SessionState)
    (h : Phase cfg c) (hf : Failed c.events) : Inevitable (SessionStep addressText) Over c := by
  cases h with
  | asking hk ho hp he => simp [Failed, he] at hf
  | refused e herr hc hp he => exact .now ⟨hc,hp⟩
  | connecting e dst op oc hok hk hph ho hop hp he => simp [Failed, he, hok] at hf
  | responding e cr r hok ha hcr hp he =>
    have hs : cr.success = false := by simpa [Failed, he, hok] using hf
    exact rejected_over addressText c r hp (hcr ▸ hs)
  | rejected e cr r err hok ha hc hp he => exact .now ⟨hc,hp⟩
  | tunnelling e cr r err hok ha hcr hw hp he => simp [Failed, he, script, hok, hcr, hw] at hf

theorem phase_script (cfg : Config) (c : SessionState) (h : Phase cfg c) :
    ∃ e cr r err, c.events <+: script e cr r err := by
  cases h with
  | asking hk ho hp he => exact ⟨.noError,{},{},.noError,by simp [he]⟩
  | refused e herr hc hp he => exact ⟨e,{},{},.noError,by simp [he, script]⟩
  | connecting e dst op oc hok hk hph ho hop hp he =>
    exact ⟨e,{},{},.noError,by simp [he, script]⟩
  | responding e cr r hok ha hcr hp he => exact ⟨e,cr,r,.noError,by simp [he, script]⟩
  | rejected e cr r err hok ha hc hp he => exact ⟨e,cr,r,err,by simp [he, script]⟩
  | tunnelling e cr r err hok ha hcr hw hp he => exact ⟨e,cr,r,err,by simp [he]⟩

theorem phase_agrees (cfg : Config) (c : SessionState) (h : Phase cfg c) (r : ConnectResponse)
    (hr : .respond r ∈ c.events) :
    (∃ cr, .connectResult cr ∈ c.events) ∧ (∀ cr, .connectResult cr ∈ c.events → Agrees cr r) ∧
      ∀ e, .requestRead e ∈ c.events → ¬ e.failed := by
  cases h with
  | asking hk ho hp he => simp [he] at hr
  | refused e herr hc hp he => simp [he] at hr
  | connecting e dst op oc hok hk hph ho hop hp he => simp [he] at hr
  | responding e cr r' hok ha hcr hp he =>
    obtain rfl : r = r' := by simpa [he] using hr
    exact ⟨⟨cr,by simp [he]⟩,by simp [he, ha],by simp [he, hok]⟩
  | rejected e cr r' err hok ha hc hp he =>
    obtain rfl : r = r' := by simpa [he] using hr
    exact ⟨⟨cr,by simp [he]⟩,by simp [he, ha],by simp [he, hok]⟩
  | tunnelling e cr r' err hok ha hcr hw hp he =>
    obtain rfl : r = r' := by simpa [he, script] using hr
    exact ⟨⟨cr,by simp [he, script]⟩,by simp [he, script, ha],by simp [he, script, hok]⟩

theorem phase_tunnel (cfg : Config) (c : SessionState) (h : Phase cfg c)
    (ht : .beginInputRead ∈ c.events ∨ .beginOutputRead ∈ c.events) :
    (∃ r err, .respond r ∈ c.events ∧ r.major = .succeeded ∧ .responseWritten err ∈ c.events ∧
      ¬ err.failed) ∧ ¬ Failed c.events := by
  cases h with
  | asking hk ho hp he => simp [he] at ht
  | refused e herr hc hp he => simp [he] at ht
  | connecting e dst op oc hok hk hph ho hop hp he => simp [he] at ht
  | responding e cr r hok ha hcr hp he => simp [he] at ht
  | rejected e cr r err hok ha hc hp he => simp [he] at ht
  | tunnelling e cr r err hok ha hcr hw hp he =>
    exact ⟨⟨r,err,by simp [he, script],ha.mpr hcr,by simp [he, script],hw⟩,
      by simp [Failed, he, script, hok, hcr, hw]⟩

theorem failed_stays (addressText : Address → Bytes) (c d : SessionState)
    (hr : Run (SessionStep addressText) c d) (h : Failed c.events) : Failed d.events := by
  have hsub : c.events ⊆ d.events := by
    refine run_invariant (fun d => c.events ⊆ d.events) ?_ hr (List.Subset.refl _)
    intro s t hs ht
    cases ht with
    | complete before after op res hp ha =>
      exact List.Subset.trans hs (List.subset_append_left _ _)
  rcases h with ⟨e,he,hf⟩ | ⟨cr,hcr,hf⟩ | ⟨err,herr,hf⟩
  · exact .inl ⟨e,hsub he,hf⟩
  · exact .inr (.inl ⟨cr,hsub hcr,hf⟩)
  · exact .inr (.inr ⟨err,hsub herr,hf⟩)

/-- The response, the tunnel and the closing of the sockets follow the one
outcome of the request, the connect attempt and the response write. -/
theorem session_gating (addressText : Address → Bytes) (cfg : Config) (c : SessionState)
    (h : Run (SessionStep addressText) (Conf.begun (start addressText (create cfg))) c) :
    (∃ e cr r err, c.events <+: script e cr r err) ∧
    (∀ r, .respond r ∈ c.events →
      (∃ cr, .connectResult cr ∈ c.events) ∧
      (∀ cr, .connectResult cr ∈ c.events → (r.major = .succeeded ↔ cr.success = true)) ∧
      ∀ e, .requestRead e ∈ c.events → ¬ e.failed) ∧
    (.beginInputRead ∈ c.events ∨ .beginOutputRead ∈ c.events →
      ∃ r err, .respond r ∈ c.events ∧ r.major = .succeeded ∧ .responseWritten err ∈ c.events ∧
        ¬ err.failed) ∧
    (Failed c.events →
      Inevitable (SessionStep addressText) Over c ∧
      ∀ d, Run (SessionStep addressText) c d →
        .beginInputRead ∉ d.events ∧ .beginOutputRead ∉ d.events) := by
  have hph := run_phase addressText cfg c h
  refine ⟨phase_script cfg c hph,phase_agrees cfg c hph,
    fun ht => (phase_tunnel cfg c hph ht).1,fun hf => ⟨failed_over addressText cfg c hph hf,?_⟩⟩
  intro d hd
  have hphd := run_phase addressText cfg d (h.trans hd)
  have hfd := failed_stays addressText c d hd hf
  exact ⟨fun hin => (phase_tunnel cfg d hphd (.inl hin)).2 hfd,
    fun hin => (phase_tunnel cfg d hphd (.inr hin)).2 hfd⟩

def refusedConfig : Config := ⟨.proxyServer .socks5,.direct⟩

def refusedResult : Output.ConnectResult := { err := .connectionRefused }

def refusedRun : SessionState :=
  play (session fun _ => []) [{},{ outcome := { err := .connectionRefused } }]
    (Conf.begun (start (fun _ => []) (create refusedConfig)))

/-- The request is read, the connect is refused, and the sockets are closed. -/
theorem session_gating_refused :
    Run (SessionStep fun _ => []) (Conf.begun (start (fun _ => []) (create refusedConfig)))
      refusedRun ∧
    .respond ⟨.connectionRefused⟩ ∈ refusedRun.events ∧
    Inevitable (SessionStep fun _ => []) Over refusedRun := by
  have hrun := play_run (session fun _ => []) (fun _ _ => True)
    [{},{ outcome := { err := .connectionRefused } }]
    (Conf.begun (start (fun _ => []) (create refusedConfig))) ⟨trivial,trivial,trivial⟩
  have hev : refusedRun.events = [.requestRead .noError,.connectResult refusedResult,
      .respond ⟨.connectionRefused⟩] := rfl
  obtain ⟨-,-,-,hover⟩ := session_gating (fun _ => []) refusedConfig refusedRun hrun
  exact ⟨hrun,by simp [hev],(hover (.inr (.inl ⟨refusedResult,by simp [hev],rfl⟩))).1⟩

end ProxySwiss.SessionGating
