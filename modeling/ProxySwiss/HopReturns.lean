import ProxySwiss.HopOwners

/-!
# The return to a hop

A hop that has reported a success goes on when its user returns. By then the
session is with the next hop, with the tunnel or with the server session, unless
a tunnel has found the next hop unable to take its request. The operations of
the output itself end with the call.
-/

set_option autoImplicit false

namespace ProxySwiss.HopReturns
open Memory CallbackObject Ownership Socks5 SessionLife SessionOwners HopOwners
open ChainWalk (Standing hops target)
open ChainDialogue (hopCreds)
open Session (Session)

/-- A tunnel has a hop behind the first that is asked for too much, and none
before it. -/
def Exposed (cfg : Config) : Prop :=
  ∃ d k, cfg.input = .tunnel d ∧ 0 < k ∧ k < hops cfg.output ∧ Asked cfg.output d k ∧
    ¬ Accepted (hopCreds cfg.output k) (target cfg.output d k)

section AddressText

variable (addressText : Address → Bytes)

theorem goes_owned (cfg : Config) (b : Bool) (w : World) (h : Goes cfg b w)
    (hp : ∃ t, cfg.input = .proxyServer t) : 0 < stored w := by
  rcases h with ⟨dst,i,h⟩ | ⟨ok,h⟩
  · exact handler_owned w h.walking.standing.handler
  · exact h.kept (.inl hp)

/-- The clearing of the pointer of a hop. -/
def clearHop (i : ℕ) (w : World) : World := w.setHop i (AfterCall.Client.clear (w.hop i))

theorem clearHop_goes (cfg : Config) (b : Bool) (i : ℕ) (w : World) (h : Goes cfg b w) :
    Goes cfg b (clearHop i w) := by
  rcases h with ⟨dst,j,h⟩ | ⟨ok,h⟩
  · exact .inl ⟨dst,j,hop_walking cfg b dst j i _ _ h.walking (h.walking.creds i),h.waits,h.single⟩
  · refine .inr ⟨ok,wired_sess cfg b _ _ h.wired rfl,?_,h.kept,h.lost⟩
    rcases h.last with hr | hr
    · cases hr with
      | socks5 msg s hs hh hp => exact .inl (.socks5 msg s hs hh hp)
      | https msg s hs hp => exact .inl (.https msg s hs hp)
    · exact .inr hr

/-- The next hop takes its request, or the input is one that owns the session. -/
def Sheltered (cfg : Config) (dst : Destination) (i : ℕ) : Prop :=
  (∃ t, cfg.input = .proxyServer t) ∨
    (i < hops cfg.output → Accepted (hopCreds cfg.output i) (target cfg.output dst i))

theorem sheltered (cfg : Config) (b : Bool) (dst : Destination) (i : ℕ) (w : World)
    (hx : ¬ Exposed cfg) (hw : Walking cfg b dst i w) (hasked : Asked cfg.output dst (i+1)) :
    Sheltered cfg dst (i+1) := by
  cases hcfg : cfg.input with
  | proxyServer t => exact .inl ⟨t,hcfg⟩
  | tunnel d =>
    refine .inr fun hi => ?_
    by_contra hno
    obtain rfl := hw.dst d hcfg
    exact hx ⟨dst,i+1,hcfg,Nat.succ_pos i,hi,hasked,hno⟩

/-- After a success of a hop somebody owns the session when the call returns. -/
theorem next_owned (cfg : Config) (b : Bool) (dst : Destination) (i index : ℕ) (m : Life)
    (hw : Walking cfg b dst i m.state) (hi : i ≤ hops cfg.output) (hasked : Asked cfg.output dst i)
    (hs : Sheltered cfg dst i) :
    Held.Brings (connectNext addressText .noError index) m
      fun w => 0 < stored w ∧ Goes cfg b w := by
  rcases hs with hp | hacc
  · exact (next_goes addressText cfg b dst i index .noError m hw hi hasked).mono
      fun w h => ⟨goes_owned cfg b w h hp,h⟩
  · refine (next_granted addressText cfg b dst i index .noError m hw ErrorCode.noError_failed hi
      hasked hacc).mono fun w h => ?_
    rcases h with h | h
    · exact ⟨handler_owned w h.walking.standing.handler,.inl ⟨dst,i,h⟩⟩
    · exact ⟨h.kept (.inr rfl),.inr ⟨true,h⟩⟩

/-- The success of a hop, up to the end of the call. -/
theorem granted_calls (i index : ℕ) (s : ClientSessionSocks5.Session) (m : Life)
    (Q : World → Prop) (hh : s.userReadRespHandler = true)
    (h : Held.Brings (connectNext addressText .noError ((index+1) % 2^64))
      (m.modify fun w => behind (w.setHop i { s with
        connResp := ⟨.succeeded⟩
        userReadRespHandler := false })) Q) :
    Held.Brings (hopDoes i index (ClientSessionSocks5.callAndClearHandler
        { s with connResp := ⟨.succeeded⟩ } .readResp .noError) (callOutput addressText index)) m
      Q := by
  have hr : ClientSessionSocks5.callAndClearHandler
      { s with connResp := ⟨.succeeded⟩ } .readResp .noError = _ := if_pos hh
  rw [hr]
  refine h.after _ ?_
  exact responded_eq addressText index (m.modify (·.setHop i { s with
    connResp := ⟨.succeeded⟩
    userReadRespHandler := false })) rfl

theorem granted_owned (cfg : Config) (b : Bool) (dst : Destination) (i index : ℕ)
    (s : ClientSessionSocks5.Session) (m : Life) (hw : Walking cfg b dst i m.state)
    (hi : i < hops cfg.output) (hasked : Asked cfg.output dst (i+1))
    (hs : s.creds = hopCreds cfg.output i) (hsh : Sheltered cfg dst (i+1)) :
    Held.Brings (hopDoes i index (ClientSessionSocks5.callAndClearHandler
        { s with connResp := ⟨.succeeded⟩ } .readResp .noError) (callOutput addressText index)) m
      fun w => 0 < stored w ∧ Goes cfg b w := by
  have hset : ∀ t : ClientSessionSocks5.Session, t.creds = s.creds →
      Walking cfg b dst i (m.state.setHop i t) := fun t ht =>
    hop_walking cfg b dst i i _ t hw (ht.trans hs)
  by_cases hh : s.userReadRespHandler = true
  · refine granted_calls addressText i index s m _ hh ?_
    exact next_owned addressText cfg b dst (i+1) ((index+1) % 2^64) _
      (behind_walking cfg b dst i _ (hset _ rfl) hi) hi hasked hsh
  · have hr : ClientSessionSocks5.callAndClearHandler
        { s with connResp := ⟨.succeeded⟩ } .readResp .noError = _ := if_neg hh
    rw [hr]
    have hwalk := hset { s with connResp := ⟨.succeeded⟩ } rfl
    exact ⟨_,rfl,handler_owned _ hwalk.standing.handler,
      .inl ⟨dst,i,walking_connecting cfg b dst i _ hwalk⟩⟩

theorem store_creds (s : ClientSessionSocks5.Session) (data : Bytes)
    (k : ClientSessionSocks5.Callback) : (ClientSessionSocks5.store s data k).creds = s.creds := by
  cases k <;> rfl

/-- The hop with what has arrived for it. -/
def received (w : World) (i : ℕ) (op : StreamObject.Op UInt8 ClientSessionSocks5.Callback)
    (res : Completion) : ClientSessionSocks5.Session :=
  ClientSessionSocks5.store (w.hop i) res.data op.callback

theorem hop_over (i index : ℕ) (op : StreamObject.Op UInt8 ClientSessionSocks5.Callback)
    (res : Completion) (m : Life)
    (hg : AfterCall.Client.goesOn op.callback (received m.state i op res) res.err = false) :
    hopDone addressText i index op res m = hopDoes i index
      (ClientSessionSocks5.run op.callback (received m.state i op res) res.err)
      (callOutput addressText index) m := by
  unfold received at hg ⊢
  simp only [hopDone, hg, Bool.false_eq_true, if_false, AfterCall.Client.untilCall]

theorem hop_on (i index : ℕ) (op : StreamObject.Op UInt8 ClientSessionSocks5.Callback)
    (res : Completion) (m : Life)
    (hg : AfterCall.Client.goesOn op.callback (received m.state i op res) res.err = true) :
    hopDone addressText i index op res m = (hopDoes i index
      (ClientSessionSocks5.callAndClearHandler
        { received m.state i op res with connResp := ⟨.succeeded⟩ } .readResp .noError)
      (callOutput addressText index) m).resume stored (clearHop i) := by
  unfold received at hg ⊢
  simp only [hopDone, hg, if_true, AfterCall.Client.untilCall]
  rfl

/-- An operation of a hop has completed. -/
theorem hop_keeps (cfg : Config) (b : Bool) (dst : Destination) (i index : ℕ)
    (op : StreamObject.Op UInt8 ClientSessionSocks5.Callback) (res : Completion) (m : Life)
    (hx : ¬ Exposed cfg) (hw : Walking cfg b dst i m.state) (hi : i < hops cfg.output)
    (hasked : Asked cfg.output dst (i+1)) :
    Held.Keeps (hopDone addressText i index op res) m (Goes cfg b) := by
  have hs : (received m.state i op res).creds = hopCreds cfg.output i :=
    (store_creds _ _ _).trans (hw.creds i)
  cases hg : AfterCall.Client.goesOn op.callback (received m.state i op res) res.err with
  | true =>
    have h := granted_owned addressText cfg b dst i index _ m hw hi hasked hs
      (sheltered cfg b dst i m.state hx hw hasked)
    refine (Held.keeps_resume stored (clearHop i) (h.mono fun w hw' =>
      ⟨hw'.1,clearHop_goes cfg b i w hw'.2⟩)).of_eq ?_
    exact hop_on addressText i index op res m hg
  | false =>
    have hturn := AfterCall.Client.run_turn op.callback _ res.err hg
    have h := turn_goes addressText cfg b dst i index _ _ m hw hi hasked hs hturn
    exact (h.of_eq (hop_over addressText i index op res m hg)).keeps

/-- The output looks for its first stop. -/
structure Opening (cfg : Config) (b : Bool) (dst : Destination) (w : World) : Prop where
  walking : Walking cfg b dst 0 { w with pending := [] }
  pending : ∃ op, w.pending = [.output op] ∧ Waits cfg.output dst 0 (.output op)

theorem opening_connecting (cfg : Config) (b : Bool) (dst : Destination) (w : World)
    (h : Opening cfg b dst w) : Connecting cfg b dst 0 w := by
  obtain ⟨op,hp,hwaits⟩ := h.pending
  refine ⟨h.walking,fun op' hop => ?_,Nat.le_of_eq (congrArg List.length hp)⟩
  rw [hp] at hop
  rw [List.mem_singleton.mp hop]
  exact hwaits

theorem launch_opens (cfg : Config) (b : Bool) (dst : Destination) (w : World) (op : Output.Op)
    (h : Walking cfg b dst 0 w) (ho : Waits cfg.output dst 0 (.output op)) :
    Opening cfg b dst (w.launch op) := by
  have hp : (w.launch op).pending = [.output op] := by
    cases op <;> simp [World.launch, World.start, World.setSess, h.idle]
  refine ⟨?_,⟨op,hp,ho⟩⟩
  cases op with
  | asyncConnect _ _ _ =>
    have hsess := wired_sess cfg b w { w.sess with outputSock := true } h.wired rfl
    have hidle := wired_pending cfg b _ [] hsess
    exact ⟨hidle,h.standing,h.creds,h.dst,rfl⟩
  | asyncResolve _ _ _ => exact walking_idle cfg b dst 0 w h
  | writeConnectRequest _ _ _ => exact walking_idle cfg b dst 0 w h
  | readConnectResponse _ _ => exact walking_idle cfg b dst 0 w h

/-- The output without its resolver. -/
def resolved (w : World) : World :=
  w.setOutput { w.sess.output with resolver := false }

theorem resolved_walking (cfg : Config) (b : Bool) (dst : Destination) (i : ℕ) (w : World)
    (h : Walking cfg b dst i w) : Walking cfg b dst i (resolved w) := by
  obtain ⟨hw,hs,hc,hd,hp⟩ := h
  exact ⟨wired_sess cfg b _ _ hw rfl,⟨hs.chain,hs.config,hs.handler,hs.dst,hs.position⟩,hc,hd,hp⟩

theorem resolved_eq (hostname : Bytes) (port : UInt16) (index : ℕ) (res : Completion) (m : Life)
    (he : ¬ res.err.failed) :
    outputDone addressText (.asyncResolve hostname port index) res m =
      (m.modify resolved).modify (·.launch (.asyncConnect res.address port index)) :=
  if_neg he

/-- An operation of the output has completed. -/
theorem output_goes (cfg : Config) (b : Bool) (dst : Destination) (op : Output.Op)
    (res : Completion) (m : Life) (hw : Walking cfg b dst 0 m.state)
    (hop : Waits cfg.output dst 0 (.output op)) :
    Held.Brings (outputDone addressText op res) m (Goes cfg b) := by
  cases hop with
  | connect address port index =>
    exact next_goes addressText cfg b dst 0 index res.err m hw (Nat.zero_le _)
      fun j hj => absurd hj (Nat.not_lt_zero j)
  | resolve hostname port index =>
    have hclear := resolved_walking cfg b dst 0 m.state hw
    by_cases he : res.err.failed
    · exact ((called_ends addressText cfg b ⟨false,res.err,index,{}⟩ (m.modify resolved)
        hclear.wired hclear.idle hclear.standing.handler).mono fun _ h =>
          .inr ⟨false,h⟩).after resolved (if_pos he)
    · exact ⟨_,resolved_eq addressText hostname port index res m he,.inl ⟨dst,0,
        opening_connecting cfg b dst _
          (launch_opens cfg b dst _ _ hclear (.connect res.address port index))⟩⟩

end AddressText
end ProxySwiss.HopReturns
