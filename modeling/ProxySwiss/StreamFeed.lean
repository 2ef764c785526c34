import ProxySwiss.StreamRun

/-!
# Reading a stream whose content is known

While an object only reads, what has arrived determines where it goes. Each of
its reads is completed with the next part of the stream, in every run without
failures and however the parts arrive.
-/

set_option autoImplicit false

namespace StreamObject
open TransitionSystem CallbackObject

variable {σ κ β η ε : Type*}

/-- The reads that take exactly the given elements, one after the other. -/
inductive Feeds (o : Object σ κ β η ε) :
    State σ κ β η ε → List β → State σ κ β η ε → Prop
  | refl (c : State σ κ β η ε) : Feeds o c [] c
  | read (c c' : State σ κ β η ε) (n : ℕ) (k : κ) (d rest : List β)
      (hp : c.pending = [.read n k]) (hd : d.length = n)
      (h : Feeds o (c.next o [] [] (.read n k) (.ok d)) rest c') : Feeds o c (d ++ rest) c'

theorem Feeds.append (o : Object σ κ β η ε) (a b c : State σ κ β η ε) (d e : List β)
    (h : Feeds o a d b) (h' : Feeds o b e c) : Feeds o a (d ++ e) c := by
  induction h with
  | refl => exact h'
  | read a b n k d rest hp hd _ ih =>
    rw [List.append_assoc]
    exact .read a c n k d (rest ++ e) hp hd (ih h')

theorem Feeds.taken (o : Object σ κ β η ε) (a b : State σ κ β η ε) (d : List β)
    (h : Feeds o a d b) : StreamObject.taken b = StreamObject.taken a ++ d := by
  induction h with
  | refl => simp
  | read a b n k d rest hp hd _ ih => rw [ih, taken_next, received_read, data_ok, List.append_assoc]

/-- A read is completed with what comes next. -/
theorem read_inevitable (o : Object σ κ β η ε) (fault : η → Prop) (hfault : ∀ e, ¬ fault e)
    (inp : List β) (w : Wire σ κ β ε) (c : State σ κ β η ε) (n : ℕ) (k : κ) (d : List β)
    (h : Tracks w c) (hp : c.pending = [.read n k]) (hd : d.length = n)
    (ht : w.taken <+: inp) (hi : taken c ++ d <+: inp) :
    Inevitable (Flow o fault inp) (fun v => v.taken <+: inp ∧
      Tracks v (c.next o [] [] (.read n k) (.ok d))) w := by
  obtain ⟨ho,he,⟨hidle,-⟩ | ⟨op,moved,hp',hw,hpart,htk,hu⟩⟩ := h
  · exact absurd (hidle.symm.trans hp) (by simp)
  obtain rfl := List.singleton_inj.mp (hp'.symm.trans hp)
  -- by induction on what the read still waits for
  induction hm : n-moved.length using Nat.strong_induction_on generalizing w moved with
  | _ m ih =>
    have hpart' : moved.length ≤ n := hpart
    rw [received_read] at htk
    have hmoved : moved <+: d := by
      rw [htk] at ht
      apply (List.prefix_append_right_inj (taken c)).mp
      apply List.prefix_of_prefix_length_le ht hi
      rw [List.length_append, List.length_append]
      omega
    have havail : ∀ n' k', Op.read n k = (.read n' k' : Op β κ) → moved.length < n' →
        w.taken.length < inp.length := by
      rintro n' k' heq hlt
      obtain ⟨rfl,rfl⟩ := Op.read.inj heq
      have hlen := hi.length_le
      rw [List.length_append] at hlen
      rw [htk, List.length_append]
      omega
    refine .later (flow_live o fault inp w _ moved hw hpart ht havail) fun v hv => ?_
    have ht' := flow_taken o fault inp w v hv ht
    cases hv with
    | receive before after n' k' got chunk ha hc hn hin =>
      obtain ⟨rfl,h,rfl⟩ := only_active (hw ▸ ha)
      obtain ⟨hop,rfl⟩ := Prod.mk.inj h
      obtain ⟨rfl,rfl⟩ := Op.read.inj hop
      have hpos := List.length_pos_iff.mpr hc
      refine ih (n-(moved ++ chunk).length) ?_ _ ht' ho he (moved ++ chunk) rfl ?_ ?_ ?_ rfl
      · rw [List.length_append, ← hm]
        omega
      · change (moved ++ chunk).length ≤ n
        rw [List.length_append]
        exact hn
      · simp [htk]
      · simpa using hu
    | transmit before after msg k' gone chunk ha hc hn =>
      obtain ⟨rfl,h,rfl⟩ := only_active (hw ▸ ha)
      exact absurd (Prod.mk.inj h).1 (by simp)
    | complete before after op' moved' ha hwh =>
      obtain ⟨rfl,h,rfl⟩ := only_active (hw ▸ ha)
      obtain ⟨rfl,rfl⟩ := Prod.mk.inj h
      have hwh' : moved.length = n := hwh
      obtain rfl := hmoved.eq_of_length (by omega)
      exact .now ⟨ht',tracks_settle o w c _ _ ho he (by simpa using htk) hu⟩
    | fail before after op' moved' e ha hf => exact absurd hf (hfault e)

/-- Without failures, and with the elements on the stream, the reads are made. -/
theorem feeds_inevitable (o : Object σ κ β η ε) (fault : η → Prop) (hfault : ∀ e, ¬ fault e)
    (inp : List β) (w : Wire σ κ β ε) (c c' : State σ κ β η ε) (d : List β) (h : Feeds o c d c')
    (hw : Tracks w c) (ht : w.taken <+: inp) (hi : taken c ++ d <+: inp) :
    Inevitable (Flow o fault inp) (fun v => v.taken <+: inp ∧ Tracks v c') w := by
  induction h generalizing w with
  | refl c => exact .now ⟨ht,hw⟩
  | read c c' n k d rest hp hd _ ih =>
    have hpre : taken c ++ d <+: inp := by
      rw [← List.append_assoc] at hi
      exact (List.prefix_append _ _).trans hi
    refine (read_inevitable o fault hfault inp w c n k d hw hp hd ht hpre).bind ?_
    rintro v ⟨hv,htr⟩
    refine ih v htr hv ?_
    rw [taken_next, received_read, data_ok, List.append_assoc]
    exact hi

end StreamObject
