import ProxySwiss.StreamRun

/-!
# Two objects on the two ends of a connection

Whatever one end has handed over is the stream arriving at the other end, in
order and without loss. Both ends move in chunks, in any interleaving.
-/

set_option autoImplicit false

namespace StreamDialogue
open TransitionSystem CallbackObject StreamObject

variable {σ κ ε σ' κ' ε' β η : Type*}

structure Pair (σ κ ε σ' κ' ε' β : Type*) where
  left : Wire σ κ β ε
  right : Wire σ' κ' β ε'

inductive Talk (a : Object σ κ β η ε) (b : Object σ' κ' β η ε') (fault : η → Prop) :
    Pair σ κ ε σ' κ' ε' β → Pair σ κ ε σ' κ' ε' β → Prop
  | left (p : Pair σ κ ε σ' κ' ε' β) (v : Wire σ κ β ε)
      (h : Flow a fault p.right.sent p.left v) : Talk a b fault p { p with left := v }
  | right (p : Pair σ κ ε σ' κ' ε' β) (v : Wire σ' κ' β ε')
      (h : Flow b fault p.left.sent p.right v) : Talk a b fault p { p with right := v }

/-- All that an end has handed over or is handing over. -/
def offered (c : State σ κ β η ε) : List β :=
  sent c ++ c.pending.flatMap fun op => match op with
    | .read _ _ => []
    | .write msg _ => msg

theorem offered_at (c : State σ κ β η ε) (op : Op β κ) (t u : List β) (es : List ε)
    (h : At c [op] t u es) : offered c = u ++ match op with
      | .read _ _ => []
      | .write msg _ => msg := by
  cases op <;> simp [offered, h.pending, h.sent]

theorem offered_idle (c : State σ κ β η ε) (t u : List β) (es : List ε) (h : At c [] t u es) :
    offered c = u := by
  simp [offered, h.pending, h.sent]

/-- What has been offered stays offered when the operation has moved all of it. -/
theorem offered_next (o : Object σ κ β η ε) (c : State σ κ β η ε) (op : Op β κ) (d : List β)
    (hp : c.pending = [op]) (hw : op.Whole d) :
    offered c <+: offered (c.next o [] [] op (.ok d)) := by
  refine List.IsPrefix.trans ?_ (List.prefix_append _ _)
  rw [sent_next, offered, hp]
  cases op with
  | read n k => simp
  | write msg k => simp [show d = msg from hw]

theorem tracks_offered (w : Wire σ κ β ε) (c : State σ κ β η ε) (h : Tracks w c) :
    w.sent <+: offered c := by
  obtain ⟨-,-,⟨-,-,-,hu⟩ | ⟨op,moved,hp,-,hpart,-,hu⟩⟩ := h
  · rw [hu]
    exact List.prefix_append _ _
  · rw [hu, offered, hp]
    cases op with
    | read n k => simp
    | write msg k =>
      have hm : moved <+: msg := hpart
      simpa using hm

/-- An invariant of a connection: each end is in the middle of an operation of
its own run, and has taken nothing that the other end did not hand over. -/
structure Joint (K : State σ κ β η ε → State σ' κ' β η ε' → Prop)
    (p : Pair σ κ ε σ' κ' ε' β) (c : State σ κ β η ε) (d : State σ' κ' β η ε') : Prop where
  left : Tracks p.left c
  right : Tracks p.right d
  coarse : K c d
  toLeft : p.left.taken <+: p.right.sent
  toRight : p.right.taken <+: p.left.sent

/-- A callback of one end is checked against what the other end has offered. -/
theorem joint_talk (a : Object σ κ β η ε) (b : Object σ' κ' β η ε') (fault : η → Prop)
    (K : State σ κ β η ε → State σ' κ' β η ε' → Prop)
    (hleft : ∀ c d op res, K c d → c.pending = [op] → Allowed fault op res →
      StreamObject.taken c ++ op.received res.data <+: offered d → K (c.next a [] [] op res) d)
    (hright : ∀ c d op res, K c d → d.pending = [op] → Allowed fault op res →
      StreamObject.taken d ++ op.received res.data <+: offered c → K c (d.next b [] [] op res))
    (p q : Pair σ κ ε σ' κ' ε' β) (h : ∃ c d, Joint K p c d) (ht : Talk a b fault p q) :
    ∃ c d, Joint K q c d := by
  obtain ⟨c,d,hl,hr,hk,htl,htr⟩ := h
  cases ht with
  | left v hf =>
    have htl' := flow_taken a fault _ _ _ hf htl
    have htr' := htr.trans (flow_sent a fault _ _ _ hf)
    rcases tracks_flow a fault _ _ _ c hl hf with hv | ⟨op,res,hp,ha,hv⟩
    · exact ⟨c,d,hv,hr,hk,htl',htr'⟩
    · refine ⟨_,d,hv,hr,hleft c d op res hk hp ha ?_,htl',htr'⟩
      have hsub : StreamObject.taken (c.next a [] [] op res) <+: v.taken := by
        obtain ⟨-,-,⟨-,-,hu,-⟩ | ⟨_,_,-,-,-,hu,-⟩⟩ := hv <;> simp [hu]
      rw [taken_next] at hsub
      exact (hsub.trans htl').trans (tracks_offered _ d hr)
  | right v hf =>
    have htr' := flow_taken b fault _ _ _ hf htr
    have htl' := htl.trans (flow_sent b fault _ _ _ hf)
    rcases tracks_flow b fault _ _ _ d hr hf with hv | ⟨op,res,hp,ha,hv⟩
    · exact ⟨c,d,hl,hv,hk,htl',htr'⟩
    · refine ⟨c,_,hl,hv,hright c d op res hk hp ha ?_,htl',htr'⟩
      have hsub : StreamObject.taken (d.next b [] [] op res) <+: v.taken := by
        obtain ⟨-,-,⟨-,-,hu,-⟩ | ⟨_,_,-,-,-,hu,-⟩⟩ := hv <;> simp [hu]
      rw [taken_next] at hsub
      exact (hsub.trans htr').trans (tracks_offered _ c hl)

end StreamDialogue
