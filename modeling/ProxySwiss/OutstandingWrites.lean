import ProxySwiss.SessionTransparency

/-!
# Writes that are outstanding

What a write was given is on its way before the write completes, so the other
end of a socket may have read more than the ledger says was sent. It has never
read more than the ledger has with the outstanding writes behind it, and that
is what a transparent session hands on as well.
-/

set_option autoImplicit false

namespace ProxySwiss.OutstandingWrites
open Memory TransitionSystem CallbackObject StreamObject StreamLedger Socks5 SessionLife
  SessionOwners RequestTraffic ReplyTraffic HopTraffic SessionTraffic SessionTransparency
open SessionTunnel (Side readOp writeOp sliceBuf)
open ChainWalk (hops)
open Session (Session)

theorem flatMap_filterMap {α β γ : Type*} (f : α → List γ) (g : α → Option β) (k : β → List γ)
    (l : List α) (h : ∀ x ∈ l, f x = ((g x).map k).getD []) :
    l.flatMap f = (l.filterMap g).flatMap k := by
  induction l with
  | nil => rfl
  | cons x l ih =>
    rw [List.flatMap_cons, h x List.mem_cons_self, ih fun y hy => h y (List.mem_cons_of_mem _ hy),
      List.filterMap_cons]
    cases g x <;> rfl

/-- The octets that an operation is writing to `sock`. -/
def writing (s : Session) (sock : Side) : SessionLife.Op → Bytes
  | .output _ => []
  | .hop _ _ op => if sock = .output then op.message else []
  | .socks5 op => if sock = .input then op.message else []
  | .https op => if sock = .input then op.message else []
  | .tunnel (.readSome _ _ _) => []
  | .tunnel (.write sink buf numBytes _) => if sock = sink then sliceBuf s buf 0 numBytes else []

def outstanding (w : World) (sock : Side) : Bytes := w.pending.flatMap (writing w.sess sock)

/-- The ledger with what may have arrived at the other ends already. -/
def reach (w : World) (l : Traffic) : Traffic where
  taken := l.taken
  sent := fun sock => l.sent sock ++ outstanding w sock

theorem reach_sent (w : World) (l : Traffic) (sock : Side) :
    (reach w l).sent sock = l.sent sock ++ outstanding w sock := rfl

/-- What stands in the ledger of a session, with what is outstanding behind it. -/
inductive Reached (fuel : ℕ) (cfg : Config) (w : World) (l : Traffic) : Prop
  | asking (hi : l.sent .input ++ outstanding w .input <+: [5,0])
      (ho : l.sent .output ++ outstanding w .output = [])
  | connecting (dst : Destination) (asked answered told : Bytes)
      (response : ConnectResponse → Bytes) (r : ConnectResponse)
      (hr : Requested fuel cfg.input dst asked answered response)
      (hi : l.taken .input = asked) (ht : l.sent .input = answered ++ told)
      (htold : told ++ outstanding w .input <+: response r)
      (ho : Scripted cfg.output dst (l.sent .output ++ outstanding w .output))
      (hs : r.major = .succeeded → Cleared cfg.output dst (hops cfg.output) (l.taken .output)
        (l.sent .output ++ outstanding w .output))
  | relaying (dst : Destination) (asked answered heard told up up' down down' : Bytes)
      (response : ConnectResponse → Bytes)
      (hr : Requested fuel cfg.input dst asked answered response)
      (hc : Cleared cfg.output dst (hops cfg.output) heard told)
      (hi : l.taken .input = asked ++ up) (ho : l.sent .output = told ++ up')
      (ht : l.taken .output = heard ++ down)
      (hs : l.sent .input = answered ++ response ⟨.succeeded⟩ ++ down')
      (hup : up' ++ outstanding w .output <+: up) (hdown : down' ++ outstanding w .input <+: down)

/-! One operation. -/

theorem outstanding_idle (w : World) (sock : Side) (h : w.pending = []) :
    outstanding w sock = [] := by
  rw [outstanding, h]
  rfl

theorem outstanding_single (w : World) (sock : Side) (op : SessionLife.Op) (h : w.pending = [op]) :
    outstanding w sock = writing w.sess sock op := by
  rw [outstanding, h]
  exact List.append_nil _

/-- Nothing but the answer to the greeting is written while the client is asked. -/
theorem listens_message (c : ServerSocks5Run.ServerState)
    (op : StreamObject.Op UInt8 ServerSessionSocks5.Callback)
    (h : ServerSocks5Run.Listens .any {} c) (hp : c.pending = [op]) :
    StreamObject.sent c ++ op.message <+: [5,0] := by
  have hread : ∀ n k t u es, At c [.read n k] t u es → u <+: [5,0] →
      StreamObject.sent c ++ op.message <+: [5,0] := by
    intro n k t u es h hu
    rw [at_message c op _ t u es h hp, message_read, List.append_nil]
    exact hu
  cases h with
  | greeting hl h => exact hread _ _ _ _ _ h List.nil_prefix
  | methods n hl hm h => exact hread _ _ _ _ _ h List.nil_prefix
  | answer g hg hl h => exact at_message c op _ _ _ _ h hp ▸ List.prefix_refl _
  | header g hg hl h => exact hread _ _ _ _ _ h (List.prefix_refl _)
  | ipv4 g rsv hg hl h => exact hread _ _ _ _ _ h (List.prefix_refl _)
  | length g rsv hg hl h => exact hread _ _ _ _ _ h (List.prefix_refl _)
  | domainname g rsv len hg hl hlen h => exact hread _ _ _ _ _ h (List.prefix_refl _)
  | ipv6 g rsv hg hl h => exact hread _ _ _ _ _ h (List.prefix_refl _)
  | answered g rsv atyp field hg hs h => exact absurd h (not_at_rest c op _ _ _ hp)
  | failed err t u herr ho why h => exact absurd h (not_at_rest c op _ _ _ hp)

theorem stage_message (fuel : ℕ) (c : ServerHttpsRun.ServerState)
    (op : StreamObject.Op UInt8 ServerSessionHttps.Callback)
    (h : HttpsReading.Stage fuel .any {} c) (hp : c.pending = [op]) :
    StreamObject.sent c ++ op.message = [] := by
  cases h with
  | first cur hcur hmax ho h => exact at_message c op _ _ _ _ h hp
  | header first p hs cur hacc hhs hcur hmax ho h => exact at_message c op _ _ _ _ h hp
  | done first p hs last hacc hhs hlast ho hd h => exact absurd h (not_at_rest c op _ _ _ hp)
  | failed err t es herr why hes ho hd h => exact absurd h (not_at_rest c op _ _ _ hp)
  | hung first hl hpar ho h => exact absurd h (not_at_rest c op _ _ _ hp)

/-- A hop is told the messages of the script and nothing else. -/
theorem phase_message (creds : Credentials) (dst : Destination) (old : ConnectResponse)
    (c : ClientSocks5Run.ClientState) (op : StreamObject.Op UInt8 ClientSessionSocks5.Callback)
    (h : ClientSocks5Run.Phase .any creds dst old c) (hp : c.pending = [op]) :
    StreamObject.sent c ++ op.message <+: preamble creds ++ connectRequest dst := by
  -- what was sent before a read is a part of the script as it is
  have hread : ∀ n k t u es, At c [.read n k] t u es →
      StreamObject.sent c ++ op.message <+: preamble creds ++ connectRequest dst := by
    intro n k t u es hat
    rw [at_message c op _ t u es hat hp, message_read, List.append_nil, ← hat.sent]
    exact phase_script creds dst old c h
  have hphase := h
  cases hphase with
  | asking h =>
    cases h with
    | greet hw h => exact at_message c op _ _ _ _ h hp ▸ greeting_preamble creds dst
    | method hw h => exact hread _ _ _ _ _ h
    | credentials hc hw h =>
      rw [at_message c op _ _ _ _ h hp, message_write, preamble, if_neg (by simp [hc])]
      exact List.prefix_append _ _
    | status hc hw h => exact hread _ _ _ _ _ h
    | request hw h => exact at_message c op _ _ _ _ h hp ▸ List.prefix_refl _
    | written hr hresp h => exact absurd h (not_at_rest c op _ _ _ hp)
    | refused err t u herr ho hresp why h => exact absurd h (not_at_rest c op _ _ _ hp)
  | reading h =>
    cases h with
    | header hr h => exact hread _ _ _ _ _ h
    | length rep rsv hrep hr hh h => exact hread _ _ _ _ _ h
    | address rep rsv atyp pre n k hrep hk hf hr hh h => exact hread _ _ _ _ _ h
    | answered rep m hm hresp h => exact absurd h (not_at_rest c op _ _ _ hp)
    | failed err t herr hresp why h => exact absurd h (not_at_rest c op _ _ _ hp)

/-! The tunnel. -/

/-- The direction that reads from a socket writes nothing to it. -/
theorem flowing_writes (w : World) (src : Side) (read written : Bytes)
    (h : Flowing w src read written) :
    ∀ t ∈ opsOf w src, writing w.sess src (.tunnel t) = [] := by
  cases h with
  | reading ho hb hd =>
    rw [ho]
    intro t ht
    rw [List.mem_singleton.mp ht]
    rfl
  | writing n ho hb hn hd =>
    rw [ho]
    intro t ht
    rw [List.mem_singleton.mp ht]
    exact if_neg (Ne.symm (SessionTunnel.other_ne src))
  | ended ho hd hc => simp [ho]

theorem outstanding_flow (w : World) (src : Side) (read written : Bytes) (h : Relaying w)
    (hback : Flowing w src.other read written) : outstanding w src.other =
      (opsOf w src).flatMap fun t => writing w.sess src.other (.tunnel t) := by
  have hnone := flowing_writes w src.other read written hback
  refine flatMap_filterMap _ _ _ _ fun op hop => ?_
  obtain ⟨t,rfl⟩ := h op hop
  by_cases ht : t.buf = src
  · rw [← ht, ofSide_self]
    rfl
  · rw [ofSide_other t src (Ne.symm ht)]
    refine hnone t (List.mem_filterMap.mpr ⟨_,hop,?_⟩)
    have hbuf : src.other = t.buf := by
      revert ht
      cases src <;> cases t.buf <;> simp [Side.other]
    rw [hbuf, ofSide_self]

/-- What is written and what is being written was read. -/
theorem flowing_reach (w : World) (src : Side) (read written back back' : Bytes)
    (h : Relaying w) (hf : Flowing w src read written)
    (hback : Flowing w src.other back back') :
    written ++ outstanding w src.other <+: read := by
  rw [outstanding_flow w src back back' h hback]
  cases hf with
  | reading ho hb hd =>
    rw [ho, hd]
    exact (List.append_nil read).symm ▸ List.prefix_refl _
  | writing n ho hb hn hd =>
    have hslice : writing w.sess src.other (.tunnel (writeOp src n)) = sliceBuf w.sess src 0 n :=
      if_pos rfl
    rw [ho, List.flatMap_singleton, hslice, hd]
  | ended ho hd hc =>
    rw [ho]
    exact (List.append_nil written).symm ▸ hd

/-! The stages. -/

section Stages

variable (fuel : ℕ) (cfg : Config) (w : World) (l : Traffic)

/-- Nothing that is outstanding goes to the client. -/
theorem understood_reached (dst : Destination) (asked answered : Bytes)
    (response : ConnectResponse → Bytes)
    (h : Understood fuel cfg w l dst asked answered response)
    (hi : outstanding w .input = [])
    (ho : Scripted cfg.output dst (l.sent .output ++ outstanding w .output)) :
    Reached fuel cfg w l :=
  .connecting dst asked answered [] response ⟨.unknownError⟩ h.requested h.taken
    (h.sent.trans (List.append_nil _).symm) (by rw [hi]; exact List.nil_prefix) ho
    fun hr => absurd hr (by simp)

/-- Nothing is outstanding. -/
theorem idle_asking (h : w.pending = []) (hi : l.sent .input <+: [5,0])
    (ho : l.sent .output = []) : Reached fuel cfg w l := by
  refine .asking ?_ ?_
  · rw [outstanding_idle w .input h, List.append_nil]
    exact hi
  · rw [outstanding_idle w .output h, List.append_nil]
    exact ho

theorem turned_reached (n : ℕ) (h : Turned fuel cfg false w l n) : Reached fuel cfg w l := by
  cases h with
  | socks5 s c op h hn =>
    refine .asking ?_ ?_
    · rw [outstanding_single w .input _ h.waits, h.carries.sent]
      exact listens_message c op h.listens h.pending
    · rw [outstanding_single w .output _ h.waits, h.silent.2]
      rfl
  | https s c op h =>
    refine .asking ?_ ?_
    · rw [outstanding_single w .input _ h.waits, h.carries.sent]
      change StreamObject.sent c ++ op.message <+: _
      rw [stage_message fuel c op h.stage h.pending]
      exact List.nil_prefix
    · rw [outstanding_single w .output _ h.waits, h.silent.2]
      rfl
  | opened dst asked answered response h =>
    obtain ⟨op,hop,hwaits⟩ := h.opening.pending
    have hnone : ∀ sock, outstanding w sock = [] := fun sock => outstanding_single w sock _ hop
    refine understood_reached fuel cfg w l dst asked answered response h.understood (hnone _)
      ⟨0,Nat.zero_le _,asked_none _ _,?_⟩
    rw [hnone, h.silent.2]
    exact List.nil_prefix
  | refused h hi ho => exact idle_asking fuel cfg w l h.idle hi ho.2
  | hung first h ht hi ho => exact idle_asking fuel cfg w l h.idle (hi ▸ List.nil_prefix) ho.2

/-- The response is outstanding. -/
theorem replying_reached (dst : Destination) (asked answered : Bytes)
    (response : ConnectResponse → Bytes) (r : ConnectResponse)
    (h : Replying fuel cfg w l dst asked answered response r) : Reached fuel cfg w l := by
  obtain ⟨hin,hout⟩ : outstanding w .input = response r ∧ outstanding w .output = [] := by
    cases h.writing with
    | socks5 s hs hread hwrite hp =>
      exact ⟨outstanding_single w _ _ hp,outstanding_single w _ _ hp⟩
    | https s hs hread hp => exact ⟨outstanding_single w _ _ hp,outstanding_single w _ _ hp⟩
  have hsent : l.sent .output ++ outstanding w .output = l.sent .output :=
    (congrArg _ hout).trans (List.append_nil _)
  exact .connecting dst asked answered [] response r h.concluded.requested h.concluded.taken
    (h.sent.trans (List.append_nil _).symm) (hin ▸ List.prefix_refl _)
    (hsent.symm ▸ h.concluded.told) fun hr => hsent.symm ▸ h.concluded.through hr

theorem settled_reached (h : Settled fuel cfg w l) : Reached fuel cfg w l := by
  cases h with
  | tunnelled dst asked answered heard told response read written h =>
    have hflow := fun src => flowing_reach w src _ _ _ _ h.flows.tunnels (h.flows.flow src)
      (h.flows.flow src.other)
    exact .relaying dst asked answered heard told (read .input) (written .input) (read .output)
      (written .output) response h.requested h.cleared (h.flows.taken .input)
      (h.flows.sent .input) (h.flows.taken .output) (h.flows.sent .output) (hflow .input)
      (hflow .output)
  | ended dst asked answered told response r h =>
    have hin := outstanding_idle w .input h.gone.idle
    have hsent : l.sent .output ++ outstanding w .output = l.sent .output :=
      (congrArg _ (outstanding_idle w .output h.gone.idle)).trans (List.append_nil _)
    refine .connecting dst asked answered told response r h.concluded.requested
      h.concluded.taken h.sent ?_ (hsent.symm ▸ h.concluded.told)
      fun hr => hsent.symm ▸ h.concluded.through hr
    rw [hin, List.append_nil]
    exact h.told

theorem going_reached (h : Going fuel cfg w l) : Reached fuel cfg w l := by
  cases h with
  | turned n h => exact turned_reached fuel cfg w l n h
  | onward dst asked answered response i n h =>
    cases h with
    | replied h =>
      cases h with
      | replying dst asked answered response r h =>
        exact replying_reached fuel cfg w l dst asked answered response r h
      | settled h => exact settled_reached fuel cfg w l h
    | hopping index base old c op h hn =>
      refine understood_reached fuel cfg w l dst asked answered response h.understood
        (outstanding_single w _ _ h.waits) ⟨i+1,h.lower,h.requests,?_⟩
      rw [outstanding_single w _ _ h.waits, h.carries.sent, List.append_assoc]
      exact (List.prefix_append_right_inj _).mpr (phase_message _ _ old c op h.talks h.pending)

/-- Also what may have arrived is what a transparent session hands on. -/
theorem stage_reached (h : Stage fuel cfg w l) : Reached fuel cfg w l := by
  cases h with
  | waiting h =>
    exact idle_asking fuel cfg w l h.fresh.idle (h.sent .input ▸ List.nil_prefix) (h.sent .output)
  | going h => exact going_reached fuel cfg w l h

end Stages

end ProxySwiss.OutstandingWrites
