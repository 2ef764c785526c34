import ProxySwiss.RequestOwners

/-!
# The phases of a session

A session waits to be accepted, reads a request, is being connected, writes its
response or relays. Every step takes it from one phase to another, and what goes
on after a call finds an owner unless the chain of a tunnel asks a hop behind the
first for too much.
-/

set_option autoImplicit false

namespace ProxySwiss.SessionPhases
open Memory TransitionSystem CallbackObject Ownership SessionLife SessionOwners HopOwners
  HopReturns RequestOwners
open ChainWalk (Standing hops target)
open ChainDialogue (hopCreds)
open Session (Session)

/-- The response was written, and the copy of its handler is called. -/
theorem answered_relays (cfg : Config) (b : Bool) (t : ServerProxyType) (srv : ServerSession)
    (err : ErrorCode) (m : Life) (ht : cfg.input = .proxyServer t) (hw : Wired cfg b m.state)
    (hp : m.state.pending = []) :
    Held.Brings (serverDoes srv [.emit (.writeResp err)]) m
      fun w => Wired cfg b w ∧ Relaying w := by
  have heq : serverDoes srv [.emit (.writeResp err)] m = Held.hold (fun m =>
      handleWriteConnectResponse err (m.modify (·.setServer srv))) m := by
    rw [← List.nil_append [_], show [] = failures 0 from rfl, serve_eq]
    rfl
  refine (Held.brings_hold _ m _ ?_).of_eq heq
  refine (written_relays cfg b err (Held.modify (·.setServer srv)
    { m with locals := m.locals+1 }) ?_ hp).after _ rfl
  exact wired_served cfg b t _ _ srv _ ht hw rfl

theorem socks5_answered (cfg : Config) (b : Bool) (t : ServerProxyType) (msg : Bytes)
    (res : Completion) (s : ServerSessionSocks5.Session) (m : Life)
    (ht : cfg.input = .proxyServer t) (hw : Wired cfg b m.state) (hp : m.state.pending = [])
    (hs : m.state.srvSess = some (.socks5 s)) (hh : s.userWriteRespHandler = true) :
    Held.Brings (socks5Done (.write msg .writeConnectResponseHandler) res) m
      fun w => Wired cfg b w ∧ Relaying w := by
  have hserver : m.state.server = some (.socks5 { s with userDst := m.state.sess.dst }) := by
    simp [World.server, hs]
  have hrun : ∀ x : ServerSessionSocks5.Session, x.userWriteRespHandler = true → ∃ e y,
      ServerSessionSocks5.run .writeConnectResponseHandler x res.err =
        (y,[.emit (.call .writeResp e)]) := by
    intro x hx
    by_cases he : res.err.failed
    · exact ⟨res.err,_,(if_pos he).trans (if_pos hx)⟩
    · exact ⟨.noError,_,(if_neg he).trans (if_pos hx)⟩
  obtain ⟨e,y,hr⟩ := hrun { s with userDst := m.state.sess.dst } hh
  refine (answered_relays cfg b t (.socks5 y) e m ht hw hp).of_eq ?_
  simp only [socks5Done, hserver, StreamObject.Op.callback, ServerSessionSocks5.store,
    AfterCall.Socks5.untilCall, AfterCall.Socks5.goesOn, Bool.false_eq_true, if_false, hr]
  rfl

theorem https_answered (cfg : Config) (b : Bool) (t : ServerProxyType) (fuel : ℕ) (msg : Bytes)
    (res : Completion) (s : ServerSessionHttps.Session) (m : Life)
    (ht : cfg.input = .proxyServer t) (hw : Wired cfg b m.state) (hp : m.state.pending = [])
    (hs : m.state.srvSess = some (.https s)) :
    Held.Brings (httpsDone fuel (.write msg .writeConnectResponseHandler) res) m
      fun w => Wired cfg b w ∧ Relaying w := by
  have hserver : m.state.server = some (.https { s with userDst := m.state.sess.dst }) := by
    simp [World.server, hs]
  refine (answered_relays cfg b t (.https { s with userDst := m.state.sess.dst }) res.err m ht hw
    hp).of_eq ?_
  simp only [httpsDone, hserver, StreamObject.Op.callback, ServerSessionHttps.store,
    AfterCall.Https.untilCall, AfterCall.Https.goesOn, Bool.false_eq_true, if_false]
  rfl

theorem run_input (k : SessionTunnel.Callback) (s : Session) (err : ErrorCode) (n : ℕ) :
    (SessionTunnel.run k s err n).1.input = s.input := by
  cases k <;>
    simp only [SessionTunnel.run, SessionTunnel.handleInputRead, SessionTunnel.handleOutputRead,
      SessionTunnel.handleInputWrite, SessionTunnel.handleOutputWrite, SessionTunnel.handleRead,
      SessionTunnel.handleWrite] <;>
    split_ifs <;> rfl

theorem fillBuf_input (s : Session) (side : SessionTunnel.Side) (data : Bytes) :
    (SessionTunnel.fillBuf s side data).input = s.input := by
  cases side <;> rfl

theorem tunnelDoes_relays (cfg : Config) (b : Bool) (r : SessionTunnel.Effect) (m : Life)
    (hw : Wired cfg b m.state) (h : Relaying m.state) (hr : r.1.input = m.state.sess.input) :
    Held.Brings (tunnelDoes r) m fun w => Wired cfg b w ∧ Relaying w := by
  refine ⟨_,rfl,⟨hw.sptr,(congrArg Input.cfgInput hr).trans hw.input,hw.tunnel,hw.server⟩,?_⟩
  intro op hop
  rcases List.mem_append.mp hop with hop | hop
  · exact h op hop
  · obtain ⟨t,-,rfl⟩ := List.mem_map.mp hop
    exact ⟨t,rfl⟩

/-- The tunnel goes on or comes to its end. -/
theorem tunnel_goes (cfg : Config) (b : Bool) (op : SessionTunnel.Op) (res : Completion)
    (m : Life) (hw : Wired cfg b m.state) (h : Relaying m.state) :
    Held.Brings (tunnelDone op res) m fun w => Wired cfg b w ∧ Relaying w := by
  cases op with
  | readSome sock buf k =>
    apply Held.brings_hold
    exact tunnelDoes_relays cfg b _ { m with locals := m.locals+1 } hw h
      ((run_input _ _ _ _).trans (fillBuf_input _ _ _))
  | write sock buf numBytes k =>
    apply Held.brings_hold
    exact tunnelDoes_relays cfg b _ { m with locals := m.locals+1 } hw h (run_input _ _ _ _)

/-! The start. -/

/-- A tunnel asks no one for its destination. -/
theorem start_opens (cfg : Config) (b : Bool) (d : Destination) (m : Life)
    (hcfg : cfg.input = .tunnel d) (hf : Fresh cfg b m.state) :
    Held.Brings start m (Opening cfg b d) := by
  have heq : start m = Held.hold (fun m => handleReadConnectRequest .noError
      (m.modify fun w => w.setSess { w.sess with dst := d })) m := by
    simp only [start, hf.wired.input, hcfg]
  refine (Held.brings_hold _ m _ ?_).of_eq heq
  refine (request_opens cfg b (Held.modify (fun w => w.setSess { w.sess with dst := d })
    { m with locals := m.locals+1 }) ?_ ?_).after _ rfl
  · exact ⟨wired_sess cfg b _ _ hf.wired rfl,hf.output,hf.idle⟩
  · intro d' hd'
    exact InputConfig.tunnel.inj (hcfg.symm.trans hd')

/-- Where a session that was accepted begins. -/
theorem start_heard (cfg : Config) (b : Bool) (m : Life) (hf : Fresh cfg b m.state) :
    Held.Brings start m (Heard cfg b) := by
  cases hcfg : cfg.input with
  | tunnel d => exact (start_opens cfg b d m hcfg hf).mono fun w hw => .opening d hw
  | proxyServer t =>
    obtain ⟨srv,hsrv⟩ := hf.wired.server t hcfg
    obtain ⟨srv',hserver⟩ : ∃ srv', m.state.server = some srv' := by simp [World.server, hsrv]
    have heq : start m = Held.hold (readConnectRequest srv') m := by
      simp only [start, hf.wired.input, hcfg, hserver]
    refine (Held.brings_hold _ m _ ?_).of_eq heq
    cases srv' with
    | socks5 s =>
      exact (served_goes cfg b false t _ _ { m with locals := m.locals+1 } hcfg hf
        (socks5_served _ _ (AfterCall.Socks5.request_turn s))).mono fun w hw => hw.2
    | https s =>
      exact (served_goes cfg b false t _ _ { m with locals := m.locals+1 } hcfg hf
        (https_served _ _ (AfterCall.Https.request_turn s))).mono fun w hw => hw.2

/-- The server goes on to its next session. -/
def release (w : World) : World := { w with sessSptr := false }

theorem wired_release (cfg : Config) (b : Bool) (w : World) (h : Wired cfg b w) :
    Wired cfg false (release w) := ⟨rfl,h.input,h.tunnel,h.server⟩

/-- Where a session is between two callbacks. -/
inductive Phase (cfg : Config) (w : World) : Prop
  | accepting (h : Fresh cfg true w)
  | listening (h : Listening cfg false w)
  | connecting (dst : Destination) (i : ℕ) (h : Connecting cfg false dst i w)
  | responding (hw : Wired cfg false w) (h : Responding w)
  | relaying (hw : Wired cfg false w) (h : Relaying w)

theorem goes_phase (cfg : Config) (w : World) (h : Goes cfg false w) : Phase cfg w := by
  rcases h with ⟨dst,i,h⟩ | ⟨ok,h⟩
  · exact .connecting dst i h
  · exact h.last.elim (.responding h.wired) (.relaying h.wired)

theorem closed_relaying (w : World) (h : w.pending = []) : Relaying w :=
  relaying_tunnels w [] h

theorem heard_phase (cfg : Config) (w : World) (h : Heard cfg false w) : Phase cfg w := by
  cases h with
  | listening h => exact .listening h
  | opening dst h => exact .connecting dst 0 (opening_connecting cfg false dst w h)
  | closed h => exact .relaying h.1 (closed_relaying w h.2)

theorem opening_release (cfg : Config) (b : Bool) (dst : Destination) (w : World)
    (h : Opening cfg b dst w) : Opening cfg false dst (release w) := by
  obtain ⟨⟨hw,hs,hc,hd,-⟩,hp⟩ := h
  exact ⟨⟨wired_release cfg b _ hw,hs,hc,hd,rfl⟩,hp⟩

theorem heard_release (cfg : Config) (b : Bool) (w : World) (h : Heard cfg b w) :
    Heard cfg false (release w) := by
  cases h with
  | listening h =>
    exact .listening ⟨⟨wired_release cfg b _ h.fresh.wired,h.fresh.output,rfl⟩,h.armed,h.single⟩
  | opening dst h => exact .opening dst (opening_release cfg b dst w h)
  | closed h => exact .closed ⟨wired_release cfg b w h.1,h.2⟩

theorem accept_heard (cfg : Config) (err : ErrorCode) (m : Life) (hf : Fresh cfg true m.state) :
    Held.Brings (handleAccept err) m (Heard cfg false) := by
  by_cases he : err.failed
  · refine ⟨release m.state,?_,.closed ⟨wired_release cfg true _ hf.wired,hf.idle⟩⟩
    rw [handleAccept, if_pos he]
    rfl
  · obtain ⟨w,heq,hw⟩ := start_heard cfg true m hf
    refine ⟨release w,?_,heard_release cfg true w hw⟩
    rw [handleAccept, if_neg he, heq]
    rfl

/-- The only operation of a phase that has one at most. -/
theorem only_pending (ops before after : List Op) (op : Op) (h : ops = before ++ op::after)
    (hlen : ops.length ≤ 1) : before = [] ∧ after = [] := by
  rw [h, List.length_append, List.length_cons] at hlen
  exact ⟨List.length_eq_zero_iff.mp (by omega),List.length_eq_zero_iff.mp (by omega)⟩

section AddressText

variable (addressText : Address → Bytes) (fuel : ℕ)

/-- Only an input that asks has a server session. -/
theorem wired_asks (cfg : Config) (b : Bool) (w : World) (srv : ServerSession)
    (hw : Wired cfg b w) (h : w.srvSess = some srv) : ∃ t, cfg.input = .proxyServer t := by
  cases hcfg : cfg.input with
  | proxyServer t => exact ⟨t,rfl⟩
  | tunnel d => exact absurd (h.symm.trans (hw.tunnel d hcfg)) (by simp)

section Complete

variable (cfg : Config) (m : Life) (before after : List Op) (op : Op) (res : Completion)
  (hp : m.state.pending = before ++ op::after)

include hp

theorem listening_keeps (h : Listening cfg false m.state) :
    Held.Keeps (done addressText fuel op res)
      (m.modify fun w => { w with pending := before ++ after }) (Phase cfg) := by
  obtain ⟨rfl,rfl⟩ := only_pending _ _ _ _ hp h.single
  obtain ⟨srv,hs,ha,hk⟩ := h.armed
  obtain ⟨t,ht⟩ := wired_asks cfg false _ srv h.fresh.wired hs
  cases hk op (hp ▸ List.mem_singleton_self op) with
  | socks5 s op hk' =>
    exact (socks5_keeps cfg false t op res s (m.modify fun w => { w with pending := [] }) ht
      h.fresh hs ha hk').mono (heard_phase cfg)
  | https s op hk' =>
    exact (https_keeps cfg false t fuel op res s (m.modify fun w => { w with pending := [] }) ht
      h.fresh hs ha hk').mono (heard_phase cfg)

theorem connecting_keeps (hx : ¬ Exposed cfg) (dst : Destination) (i : ℕ)
    (h : Connecting cfg false dst i m.state) :
    Held.Keeps (done addressText fuel op res)
      (m.modify fun w => { w with pending := before ++ after }) (Phase cfg) := by
  obtain ⟨rfl,rfl⟩ := only_pending _ _ _ _ hp h.single
  cases h.waits op (hp ▸ List.mem_singleton_self op) with
  | resolve hostname port index =>
    exact (output_goes addressText cfg false dst _ res
      (m.modify fun w => { w with pending := [] }) h.walking
      (.resolve hostname port index)).keeps.mono (goes_phase cfg)
  | connect address port index =>
    exact (output_goes addressText cfg false dst _ res
      (m.modify fun w => { w with pending := [] }) h.walking
      (.connect address port index)).keeps.mono (goes_phase cfg)
  | hop _ index op hi hasked =>
    exact (hop_keeps addressText cfg false dst i index op res
      (m.modify fun w => { w with pending := [] }) hx h.walking hi hasked).mono (goes_phase cfg)

theorem responding_keeps (hw : Wired cfg false m.state) (h : Responding m.state) :
    Held.Keeps (done addressText fuel op res)
      (m.modify fun w => { w with pending := before ++ after }) (Phase cfg) := by
  have hrelays : ∀ w, Wired cfg false w ∧ Relaying w → Phase cfg w := fun w h =>
    .relaying h.1 h.2
  have hidle := wired_pending cfg false m.state [] hw
  cases h with
  | socks5 msg s hs hh hop =>
    obtain ⟨t,ht⟩ := wired_asks cfg false _ _ hw hs
    obtain ⟨rfl,rfl⟩ := only_pending _ _ _ _ hp (Nat.le_of_eq (congrArg List.length hop))
    obtain rfl := List.singleton_inj.mp (hop.symm.trans hp)
    exact (socks5_answered cfg false t msg res s (m.modify fun w => { w with pending := [] })
      ht hidle rfl hs hh).keeps.mono hrelays
  | https msg s hs hop =>
    obtain ⟨t,ht⟩ := wired_asks cfg false _ _ hw hs
    obtain ⟨rfl,rfl⟩ := only_pending _ _ _ _ hp (Nat.le_of_eq (congrArg List.length hop))
    obtain rfl := List.singleton_inj.mp (hop.symm.trans hp)
    exact (https_answered cfg false t fuel msg res s (m.modify fun w => { w with pending := [] })
      ht hidle rfl hs).keeps.mono hrelays

/-- What is outstanding beside the operation that completes stays a tunnel's. -/
theorem relaying_keeps (hw : Wired cfg false m.state) (h : Relaying m.state) :
    Held.Keeps (done addressText fuel op res)
      (m.modify fun w => { w with pending := before ++ after }) (Phase cfg) := by
  obtain ⟨top,rfl⟩ := h op (by simp [hp])
  refine (tunnel_goes cfg false top res
    (m.modify fun w => { w with pending := before ++ after }) (wired_pending cfg false _ _ hw)
    ?_).keeps.mono fun w h => .relaying h.1 h.2
  intro op hop
  refine h op ?_
  rw [hp]
  rcases List.mem_append.mp hop with hop | hop
  · exact List.mem_append_left _ hop
  · exact List.mem_append_right _ (List.mem_cons_of_mem _ hop)

/-- Whatever completes, in whichever phase. -/
theorem complete_keeps (hx : ¬ Exposed cfg) (h : Phase cfg m.state) :
    Held.Keeps (done addressText fuel op res)
      (m.modify fun w => { w with pending := before ++ after }) (Phase cfg) := by
  cases h with
  | accepting h =>
    rw [h.idle] at hp
    exact absurd hp (by simp)
  | listening h => exact listening_keeps addressText fuel cfg m before after op res hp h
  | connecting dst i h =>
    exact connecting_keeps addressText fuel cfg m before after op res hp hx dst i h
  | responding hw h => exact responding_keeps addressText fuel cfg m before after op res hp hw h
  | relaying hw h => exact relaying_keeps addressText fuel cfg m before after op res hp hw h

end Complete

abbrev Owned (cfg : Config) : Life → Prop := Held.Sound (Phase cfg)

theorem phase_accepting (cfg : Config) (w : World) (h : Phase cfg w) (hs : w.sessSptr = true) :
    Fresh cfg true w := by
  have hno : w.sessSptr ≠ false := by simp [hs]
  cases h with
  | accepting h => exact h
  | listening h => exact absurd h.fresh.wired.sptr hno
  | connecting dst i h => exact absurd h.walking.wired.sptr hno
  | responding hw h => exact absurd hw.sptr hno
  | relaying hw h => exact absurd hw.sptr hno

theorem owned_step (cfg : Config) (hx : ¬ Exposed cfg) (m n : Life) (h : Owned cfg m)
    (ht : Step addressText fuel m n) : Owned cfg n := by
  cases ht with
  | accept err hs =>
    have hacc := accept_heard cfg err m (phase_accepting cfg _ h.state hs)
    exact (hacc.keeps.mono (heard_phase cfg)).sound id h
  | complete before after op res hp ha =>
    exact (complete_keeps addressText fuel cfg m before after op res hp hx h.state).sound _ h

theorem begun_fresh (cfg : Config) (printProxyErrors : Bool) (log history : List Bytes) :
    Fresh cfg true (World.create cfg printProxyErrors log history) := by
  refine ⟨⟨rfl,?_,fun d hd => ?_,fun t ht => ?_⟩,rfl,rfl⟩
  · change (Input.create cfg.input).cfgInput = _
    cases cfg.input <;> rfl
  · simp [World.create, hd, Input.create]
  · simp [World.create, ht, Input.create]

/-- Unless the session is exposed, every callback that goes on finds an owner. -/
theorem run_owned (cfg : Config) (hx : ¬ Exposed cfg) (printProxyErrors : Bool)
    (log history : List Bytes) (m : Life)
    (h : Run (Step addressText fuel) (begun cfg printProxyErrors log history) m) : Owned cfg m :=
  run_invariant (Owned cfg) (fun m n => owned_step addressText fuel cfg hx m n) h
    ⟨rfl,fun _ hn => absurd hn List.not_mem_nil,
      .accepting (begun_fresh cfg printProxyErrors log history)⟩

end AddressText
end ProxySwiss.SessionPhases
