import ProxySwiss.SessionLife
import ProxySwiss.ChainDialogue

/-!
# The owners of a session

Between two callbacks a session waits for a request, is being connected, writes
a response or relays, and in each of these phases its owner is another one. A
session that is being connected is owned by the handler that its output has
stored. When that handler is called the session has to find another owner
before the call returns, and a tunnel does not find one for a failure.
-/

set_option autoImplicit false

namespace ProxySwiss.SessionOwners
open Memory CallbackObject Ownership Socks5 SessionLife
open ChainWalk (Standing hops target)
open ChainDialogue (hopCreds)
open Session (Session)

/-- What stays as it was created; `b` tells whether the server is an owner. -/
structure Wired (cfg : Config) (b : Bool) (w : World) : Prop where
  sptr : w.sessSptr = b
  input : w.sess.input.cfgInput = cfg.input
  tunnel : ∀ d, cfg.input = .tunnel d → w.srvSess = none
  server : ∀ t, cfg.input = .proxyServer t → ∃ srv, w.srvSess = some srv

/-- What the first hops are asked for is not too long. -/
def Asked (cfg : OutputConfig) (dst : Destination) (i : ℕ) : Prop :=
  ∀ j, j < i → Accepted (hopCreds cfg j) (target cfg dst j)

/-- The operation that a session waits for which is being connected. -/
inductive Waits (cfg : OutputConfig) (dst : Destination) : ℕ → Op → Prop
  | resolve (hostname : Bytes) (port : UInt16) (index : ℕ) :
      Waits cfg dst 0 (.output (.asyncResolve hostname port index))
  | connect (address : Address) (port : UInt16) (index : ℕ) :
      Waits cfg dst 0 (.output (.asyncConnect address port index))
  | hop (i index : ℕ) (op : StreamObject.Op UInt8 ClientSessionSocks5.Callback)
      (hi : i < hops cfg) (h : Asked cfg dst (i+1)) : Waits cfg dst i (.hop i index op)

/-- The output has `i` hops behind it, and nothing is outstanding. -/
structure Walking (cfg : Config) (b : Bool) (dst : Destination) (i : ℕ) (w : World) : Prop where
  wired : Wired cfg b w
  standing : Standing cfg.output dst i w.sess.output
  creds : ∀ j, (w.sess.output.chain.getD j {}).creds = hopCreds cfg.output j
  dst : ∀ d, cfg.input = .tunnel d → dst = d
  idle : w.pending = []

structure Connecting (cfg : Config) (b : Bool) (dst : Destination) (i : ℕ) (w : World) : Prop where
  walking : Walking cfg b dst i { w with pending := [] }
  waits : ∀ op ∈ w.pending, Waits cfg.output dst i op
  single : w.pending.length ≤ 1

/-- The response is being written, and the operation or the server session has
the handler. -/
inductive Responding (w : World) : Prop
  | socks5 (msg : Bytes) (s : ServerSessionSocks5.Session) (hs : w.srvSess = some (.socks5 s))
      (hh : s.userWriteRespHandler = true)
      (hp : w.pending = [.socks5 (.write msg .writeConnectResponseHandler)])
  | https (msg : Bytes) (s : ServerSessionHttps.Session) (hs : w.srvSess = some (.https s))
      (hp : w.pending = [.https (.write msg .writeConnectResponseHandler)])

/-- Only the tunnel is left, or nothing. -/
def Relaying (w : World) : Prop := ∀ op ∈ w.pending, ∃ t, op = .tunnel t

/-- The handler of the output was called; `ok` tells whether with a success. -/
structure Ends (cfg : Config) (b ok : Bool) (w : World) : Prop where
  wired : Wired cfg b w
  last : Responding w ∨ Relaying w
  kept : (∃ t, cfg.input = .proxyServer t) ∨ ok = true → 0 < stored w
  lost : ∀ d, cfg.input = .tunnel d → b = false → ok = false → stored w = 0

theorem pending_owned (w : World) (op : Op) (h : op ∈ w.pending) (ho : op.owner = true) :
    0 < stored w := by
  have : 0 < w.pending.countP Op.owner := List.countP_pos_iff.mpr ⟨op,h,ho⟩
  unfold stored
  omega

theorem handler_owned (w : World) (h : w.sess.output.userConnectHandler = true) :
    0 < stored w := by
  simp only [stored, h, Bool.toNat_true]
  omega

theorem responding_owned (w : World) (h : Responding w) : 0 < stored w := by
  cases h with
  | socks5 msg s hs hh hp =>
    simp only [stored, hs, ServerSession.handlers, hh, Option.map_some, Option.getD_some,
      Bool.toNat_true]
    omega
  | https msg s hs hp => exact pending_owned w _ (by rw [hp]; exact List.mem_singleton_self _) rfl

/-- A session without an input that asks, which is not being connected. -/
theorem stored_none (w : World) (hs : w.srvSess = none) (hb : w.sessSptr = false)
    (hh : w.sess.output.userConnectHandler = false) (hp : w.pending = []) : stored w = 0 := by
  simp [stored, hs, hb, hh, hp]

theorem written_eq (err : ErrorCode) (m : Life) :
    handleWriteConnectResponse err m =
      if err.failed ∨ m.state.sess.outputConnRes.success = false then closeAll m
      else makeTunnel m := by
  unfold handleWriteConnectResponse
  by_cases he : err.failed
  · simp [he]
  · cases hs : m.state.sess.outputConnRes.success <;> simp [he]

theorem wired_sess (cfg : Config) (b : Bool) (w : World) (s : Session) (h : Wired cfg b w)
    (hs : s.input = w.sess.input) : Wired cfg b (w.setSess s) :=
  ⟨h.sptr,(congrArg Input.cfgInput hs).trans h.input,h.tunnel,h.server⟩

theorem wired_pending (cfg : Config) (b : Bool) (w : World) (ops : List Op) (h : Wired cfg b w) :
    Wired cfg b { w with pending := ops } := ⟨h.sptr,h.input,h.tunnel,h.server⟩

theorem not_tunnel (cfg : Config) (t : ServerProxyType) (d : Destination)
    (ht : cfg.input = .proxyServer t) : cfg.input ≠ .tunnel d := by
  rw [ht]
  exact InputConfig.noConfusion

/-- The server session may change as long as there is one. -/
theorem wired_served (cfg : Config) (b : Bool) (t : ServerProxyType) (w : World) (s : Session)
    (srv : ServerSession) (ops : List Op) (ht : cfg.input = .proxyServer t) (h : Wired cfg b w)
    (hs : s.input = w.sess.input) :
    Wired cfg b { w with sess := s, srvSess := some srv, pending := ops } :=
  ⟨h.sptr,(congrArg Input.cfgInput hs).trans h.input,fun d hd => absurd hd (not_tunnel cfg t d ht),
    fun _ _ => ⟨srv,rfl⟩⟩

theorem closed_brings (cfg : Config) (b : Bool) (m : Life) (hw : Wired cfg b m.state) :
    Held.Brings closeAll m fun w => Wired cfg b w ∧ w.pending = m.state.pending ∧
      w.srvSess = m.state.srvSess ∧ w.sess.output = m.state.sess.output :=
  Held.brings_modify _ m _ ⟨wired_sess cfg b _ _ hw rfl,rfl,rfl,rfl⟩

/-- A tunnel begins with two reads, which carry the session. -/
theorem tunnelled_brings (cfg : Config) (b : Bool) (m : Life) (hw : Wired cfg b m.state)
    (hp : m.state.pending = []) : Held.Brings makeTunnel m fun w => Wired cfg b w ∧
      w.pending =
        [.tunnel (SessionTunnel.readOp .input),.tunnel (SessionTunnel.readOp .output)] := by
  have hsess := wired_sess cfg b m.state (SessionTunnel.makeTunnel m.state.sess).1 hw rfl
  refine ⟨_,rfl,wired_pending cfg b _ _ hsess,?_⟩
  change m.state.pending ++ _ = _
  rw [hp]
  rfl

theorem relaying_tunnels (w : World) (ops : List SessionTunnel.Op)
    (h : w.pending = ops.map .tunnel) : Relaying w := by
  intro op hop
  rw [h] at hop
  obtain ⟨t,-,rfl⟩ := List.mem_map.mp hop
  exact ⟨t,rfl⟩

/-- After the response the tunnel begins, or the sockets are closed. -/
theorem written_relays (cfg : Config) (b : Bool) (err : ErrorCode) (m : Life)
    (hw : Wired cfg b m.state) (hp : m.state.pending = []) :
    Held.Brings (handleWriteConnectResponse err) m fun w => Wired cfg b w ∧ Relaying w := by
  by_cases h : err.failed ∨ m.state.sess.outputConnRes.success = false
  · refine ((closed_brings cfg b m hw).mono fun w hw' => ?_).of_eq
      ((written_eq err m).trans (if_pos h))
    exact ⟨hw'.1,relaying_tunnels w [] (hw'.2.1.trans hp)⟩
  · refine ((tunnelled_brings cfg b m hw hp).mono fun w hw' => ?_).of_eq
      ((written_eq err m).trans (if_neg h))
    exact ⟨hw'.1,relaying_tunnels w [_,_] hw'.2⟩

/-- A tunnel has no response to write, and finds its next owners only after a
success. -/
theorem tunnel_ends (cfg : Config) (b : Bool) (d : Destination) (m : Life)
    (hd : cfg.input = .tunnel d) (hw : Wired cfg b m.state) (hp : m.state.pending = [])
    (hh : m.state.sess.output.userConnectHandler = false) :
    Held.Brings (handleWriteConnectResponse .noError) m
      (Ends cfg b m.state.sess.outputConnRes.success) := by
  have hno : ¬ ∃ t, cfg.input = .proxyServer t := by
    rintro ⟨t,ht⟩
    rw [hd] at ht
    exact absurd ht (by simp)
  have heq := written_eq .noError m
  simp only [ErrorCode.noError_failed, false_or] at heq
  cases hs : m.state.sess.outputConnRes.success with
  | false =>
    refine ((closed_brings cfg b m hw).mono fun w hw' => ?_).of_eq (heq.trans (if_pos hs))
    obtain ⟨hwired,hpend,hsrv,hout⟩ := hw'
    refine ⟨hwired,.inr (relaying_tunnels w [] (hpend.trans hp)),?_,fun d hd hb _ => ?_⟩
    · rintro (h | h)
      · exact absurd h hno
      · exact absurd h (by simp)
    · exact stored_none w (hwired.tunnel d hd) (hwired.sptr.trans hb)
        ((congrArg Output.userConnectHandler hout).trans hh) (hpend.trans hp)
  | true =>
    refine ((tunnelled_brings cfg b m hw hp).mono fun w hw' => ?_).of_eq
      (heq.trans (if_neg (by simp [hs])))
    refine ⟨hw'.1,.inr (relaying_tunnels w [_,_] hw'.2),fun _ => ?_,fun _ _ _ h => ?_⟩
    · exact pending_owned w (.tunnel (SessionTunnel.readOp .input)) (by simp [hw'.2]) rfl
    · exact absurd h (by simp)

/-- A server session takes the handler. -/
theorem server_responds (cfg : Config) (b ok : Bool) (t : ServerProxyType) (r : ConnectResponse)
    (m : Life) (ht : cfg.input = .proxyServer t) (hw : Wired cfg b m.state)
    (hp : m.state.pending = []) :
    Held.Brings (writeConnectResponse r) m (Ends cfg b ok) := by
  have hends : ∀ w, Wired cfg b w → Responding w → Ends cfg b ok w := fun w hwired hr =>
    ⟨hwired,.inl hr,fun _ => responding_owned w hr,fun d hd => absurd hd (not_tunnel cfg t d ht)⟩
  have hinput : m.state.sess.input.cfgInput = .proxyServer t := hw.input.trans ht
  obtain ⟨srv,hsrv⟩ := hw.server t ht
  cases srv with
  | socks5 s =>
    refine (Held.brings_modify _ m _ (hends _ ?_ ?_)).of_eq
      (by simp only [writeConnectResponse, hinput, hsrv]; rfl)
    · exact wired_served cfg b t _ _ _ _ ht hw rfl
    · exact .socks5 _ _ rfl rfl (by rw [hp]; rfl)
  | https s =>
    refine (Held.brings_modify _ m _ (hends _ ?_ ?_)).of_eq
      (by simp only [writeConnectResponse, hinput, hsrv]; rfl)
    · exact wired_served cfg b t _ _ _ _ ht hw rfl
    · exact .https _ _ rfl (by rw [hp]; rfl)

/-- The response of either kind of input, for the outcome that is remembered. -/
theorem respond_ends (cfg : Config) (b : Bool) (r : ConnectResponse) (m : Life)
    (hw : Wired cfg b m.state) (hp : m.state.pending = [])
    (hh : m.state.sess.output.userConnectHandler = false) :
    Held.Brings (writeConnectResponse r) m (Ends cfg b m.state.sess.outputConnRes.success) := by
  cases hcfg : cfg.input with
  | proxyServer t => exact server_responds cfg b _ t r m hcfg hw hp
  | tunnel d =>
    refine (tunnel_ends cfg b d m hcfg hw hp hh).of_eq ?_
    simp only [writeConnectResponse, hw.input, hcfg]

/-- What is printed and logged meanwhile does not matter. -/
theorem reported_ends (cfg : Config) (b : Bool) (r : ConnectResponse) (m : Life) (s : Session)
    (hw : Wired cfg b m.state) (hp : m.state.pending = [])
    (hh : m.state.sess.output.userConnectHandler = false)
    (hi : s.input = m.state.sess.input) (ho : s.output = m.state.sess.output) :
    Held.Brings (Held.hold (writeConnectResponse r)) (m.modify (·.setSess s))
      (Ends cfg b s.outputConnRes.success) := by
  apply Held.brings_hold
  exact respond_ends cfg b r _ (wired_sess cfg b _ s hw hi) hp
    ((congrArg Output.userConnectHandler ho).trans hh)

theorem remember_frame (addressText : Address → Bytes) (s : Session) :
    (Session.remember addressText s).input = s.input ∧
      (Session.remember addressText s).output = s.output ∧
      (Session.remember addressText s).outputConnRes = s.outputConnRes := by
  simp only [Session.remember]
  split_ifs <;> exact ⟨rfl,rfl,rfl⟩

theorem printed_frame (s : Session) (cr : Output.ConnectResult) :
    (Session.printProxyError s cr).1.input = s.input ∧
      (Session.printProxyError s cr).1.output = s.output ∧
      (Session.printProxyError s cr).1.outputConnRes = s.outputConnRes := by
  unfold Session.printProxyError
  split_ifs
  · cases s.cfg.output.proxyChain[cr.chainFailIndex]? <;> exact ⟨rfl,rfl,rfl⟩
  · exact ⟨rfl,rfl,rfl⟩
  · exact ⟨rfl,rfl,rfl⟩

section AddressText

variable (addressText : Address → Bytes)

theorem connected_ends (cfg : Config) (b : Bool) (cr : Output.ConnectResult) (m : Life)
    (hw : Wired cfg b m.state) (hp : m.state.pending = [])
    (hh : m.state.sess.output.userConnectHandler = false) :
    Held.Brings (handleConnectOutput addressText cr) m (Ends cfg b cr.success) := by
  by_cases hs : cr.success = true
  · obtain ⟨hi,ho,hr⟩ := remember_frame addressText { m.state.sess with outputConnRes := cr }
    have h := reported_ends cfg b ⟨.succeeded⟩ m _ hw hp hh hi ho
    rw [hr] at h
    exact h.after _ (if_pos hs)
  · by_cases he : cr.err.failed
    · obtain ⟨hi,ho,hr⟩ := printed_frame { m.state.sess with outputConnRes := cr } cr
      have h := reported_ends cfg b (Session.failureResponse cr) m _ hw hp hh hi ho
      rw [hr] at h
      refine h.after _ ((if_neg hs).trans ?_)
      rw [if_pos he]
    · have h := reported_ends cfg b (Session.failureResponse cr) m
        { m.state.sess with outputConnRes := cr } hw hp hh rfl rfl
      refine h.after _ ((if_neg hs).trans ?_)
      rw [if_neg he]

/-- The copy of the handler keeps the session until the call has returned. -/
theorem called_ends (cfg : Config) (b : Bool) (cr : Output.ConnectResult) (m : Life)
    (hw : Wired cfg b m.state) (hp : m.state.pending = [])
    (hh : m.state.sess.output.userConnectHandler = true) :
    Held.Brings (callAndClearHandler addressText cr) m (Ends cfg b cr.success) := by
  refine (Held.brings_hold _ m _ ?_).of_eq (if_pos hh)
  refine (connected_ends addressText cfg b cr _ ?_ ?_ ?_).after (fun w =>
    w.setOutput { w.sess.output with userConnectHandler := false }) rfl
  · exact wired_sess cfg b _ _ hw rfl
  · exact hp
  · rfl

end AddressText
end ProxySwiss.SessionOwners
