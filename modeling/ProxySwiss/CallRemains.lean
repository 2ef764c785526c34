import ProxySwiss.StreamRun

/-!
# What a call leaves behind

A call is to leave its object as it found it. Where only some of its branches
do, the streams on which it does are those that lead to no other branch, and
nothing may fail.
-/

set_option autoImplicit false

namespace StreamObject
open TransitionSystem CallbackObject

variable {σ κ β η ε : Type*}

/-- The call is `armed` until its user is `called`. It is over on a `bad` or on
a `good` part of the stream, or after a failure, and only `good` ones make the
object rest. -/
inductive Remains (fault : η → Prop) (bad good : List β → Prop) (armed rests : σ → Prop)
    (called : List ε → Prop) (c : State σ κ β η ε) : Prop
  | waits (ha : armed c.obj) (h : ¬ called c.events)
  | kept (hp : c.pending = []) (why : (∃ e, fault e) ∨ bad (taken c)) (hr : ¬ rests c.obj)
      (h : called c.events)
  | cleared (hp : c.pending = []) (why : good (taken c)) (hr : rests c.obj)
      (h : called c.events)

theorem Remains.armed (fault : η → Prop) (bad good : List β → Prop) (armed rests : σ → Prop)
    (called : List ε → Prop) (c : State σ κ β η ε) (op : Op β κ)
    (h : Remains fault bad good armed rests called c) (hp : c.pending = [op]) : armed c.obj := by
  cases h with
  | waits ha h => exact ha
  | kept hp' why hr h => exact absurd (hp.symm.trans hp') (by simp)
  | cleared hp' why hr h => exact absurd (hp.symm.trans hp') (by simp)

theorem Remains.starts (o : Object σ κ β η ε) (fault : η → Prop) (bad good : List β → Prop)
    (armed rests : σ → Prop) (called : List ε → Prop) (c : State σ κ β η ε) (op op' : Op β κ)
    (res : Result β η) (s : σ) (t u : List β) (es : List ε) (h : At c [op] t u es)
    (hd : o.done op res c.obj = (s,[.start op'])) (hs : armed s) (hn : ¬ called es) :
    Remains fault bad good armed rests called (c.next o [] [] op res) := by
  obtain ⟨hobj,hat⟩ := at_start o c op op' t u es res s h hd
  exact .waits (hobj ▸ hs) (hat.events ▸ hn)

theorem Remains.ends (o : Object σ κ β η ε) (fault : η → Prop) (bad good : List β → Prop)
    (armed rests : σ → Prop) (called : List ε → Prop) (c : State σ κ β η ε) (op : Op β κ)
    (res : Result β η) (s : σ) (t u : List β) (es : List ε) (e : ε) (h : At c [op] t u es)
    (hd : o.done op res c.obj = (s,[.emit e])) (hr : ¬ rests s) (hc : called (es ++ [e]))
    (why : (∃ e, fault e) ∨ bad (t ++ op.received res.data)) :
    Remains fault bad good armed rests called (c.next o [] [] op res) := by
  obtain ⟨hobj,hat⟩ := at_emit o c op t u es res s e h hd
  exact .kept hat.pending (hat.taken ▸ why) (hobj ▸ hr) (hat.events ▸ hc)

/-- Once nothing is outstanding, all that was taken has been given to a callback. -/
theorem tracks_taken (w : Wire σ κ β ε) (c : State σ κ β η ε) (h : Tracks w c)
    (hp : c.pending = []) : w.taken = taken c := by
  rcases h.moving with ⟨-,-,ht,-⟩ | ⟨op,moved,hop,-⟩
  · exact ht
  · exact absurd (hp.symm.trans hop) (by simp)

/-- The object rests after every run exactly if nothing fails and nothing on the
stream is `bad`. -/
theorem rests_iff (o : Object σ κ β η ε) (fault : η → Prop) (inp : List β)
    (bad good : List β → Prop) (armed rests : σ → Prop) (called : List ε → Prop)
    (I : State σ κ β η ε → Prop)
    (keep : ∀ c op res, I c → c.pending = [op] → Allowed fault op res → I (c.next o [] [] op res))
    (left : ∀ c, I c → Remains fault bad good armed rests called c)
    (r : σ × List (Action (Op β κ) ε)) (op : Op β κ) (hop : started r.2 = [op])
    (hi : I (Conf.begun r))
    (fails : ∀ e, fault e → called (emitted r.2 ++ emitted (o.done op (.error e []) r.1).2) ∧
      ¬ rests (o.done op (.error e []) r.1).1)
    (excl : ∀ t m, bad t → good m → t <+: inp → ¬ m <+: inp)
    (reach : (∀ e, ¬ fault e) → ∀ t, bad t → t <+: inp →
      ∃ w, Run (Flow o fault inp) (Wire.begun r) w ∧ called w.events) :
    (∀ w, Run (Flow o fault inp) (Wire.begun r) w → called w.events → rests w.obj) ↔
      (∀ e, ¬ fault e) ∧ ¬ ∃ t, bad t ∧ t <+: inp := by
  have hw := flow_tracks o fault inp I keep r (by simp [hop]) hi
  constructor
  · intro hall
    have hnone : ∀ e, ¬ fault e := by
      intro e he
      obtain ⟨v,hv,hs⟩ := settle_run o fault inp _ (Conf.begun r) op (.error e [])
        (settled_begun r) hop ⟨he,part_nil op⟩ (by simp)
      obtain ⟨hc,hr⟩ := fails e he
      have hrests := hall v hv (hs.events ▸ hc)
      rw [hs.obj] at hrests
      exact hr hrests
    refine ⟨hnone,?_⟩
    rintro ⟨t,hbad,ht⟩
    obtain ⟨w,hr,hc⟩ := reach hnone t hbad ht
    obtain ⟨htk,c,htr,hI⟩ := hw w hr
    have hrests := hall w hr hc
    cases left c hI with
    | waits ha h => exact h (htr.events ▸ hc)
    | kept hp why hr' h => exact hr' (htr.obj ▸ hrests)
    | cleared hp why hr' h => exact excl t _ hbad why ht (tracks_taken w c htr hp ▸ htk)
  · rintro ⟨hnone,hno⟩ w hr hc
    obtain ⟨htk,c,htr,hI⟩ := hw w hr
    cases left c hI with
    | waits ha h => exact absurd (htr.events ▸ hc) h
    | kept hp why hr' h =>
      exfalso
      rcases why with ⟨e,he⟩ | hbad
      · exact hnone e he
      · exact hno ⟨_,hbad,tracks_taken w c htr hp ▸ htk⟩
    | cleared hp why hr' h => exact htr.obj ▸ hr'

end StreamObject
