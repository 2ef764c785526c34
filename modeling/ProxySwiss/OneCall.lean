import ProxySwiss.StreamRun

/-!
# Calls that are answered once

A call is under way as long as one of its operations is outstanding. If each of
its callbacks starts the next operation or answers the call, but never both and
never neither, then the call is answered once, and nothing is left over then.
-/

set_option autoImplicit false

namespace StreamObject
open TransitionSystem CallbackObject

variable {σ κ β η ε : Type*}

/-- A call waits with its handler set, or has been answered by its last event. -/
inductive Once (armed : σ → Prop) (answer : ε → Prop) (w : Wire σ κ β ε) : Prop
  | waits (op : Op β κ) (moved : List β) (ha : w.active = [(op,moved)]) (hs : armed w.obj)
      (hn : ∀ e ∈ w.events, ¬ answer e)
  | answered (es : List ε) (e : ε) (ha : w.active = []) (he : w.events = es ++ [e])
      (h : answer e) (hn : ∀ x ∈ es, ¬ answer x)

/-- What a callback of the call may come back with. -/
inductive Outcome (mine : κ → Prop) (armed : σ → Prop) (answer : ε → Prop)
    (r : σ × List (Action (Op β κ) ε)) : Prop
  | starts (op : Op β κ) (hs : started r.2 = [op]) (hm : mine op.callback) (ha : armed r.1)
      (hn : ∀ e ∈ emitted r.2, ¬ answer e)
  | answers (es : List ε) (e : ε) (hs : started r.2 = []) (he : emitted r.2 = es ++ [e])
      (h : answer e) (hn : ∀ x ∈ es, ¬ answer x)

/-- The call is under way with an operation of its own, or is over. -/
def UnderWay (mine : κ → Prop) (armed : σ → Prop) (answer : ε → Prop)
    (w : Wire σ κ β ε) : Prop :=
  Once armed answer w ∧ ∀ op moved, w.active = [(op,moved)] → mine op.callback

theorem Outcome.start (mine : κ → Prop) (armed : σ → Prop) (answer : ε → Prop) (s : σ)
    (op : Op β κ) (hs : armed s) (hm : mine op.callback) :
    Outcome mine armed answer (s,[.start op]) :=
  .starts op rfl hm hs (by simp)

theorem Outcome.answer (mine : κ → Prop) (armed : σ → Prop) (answer : ε → Prop) (s : σ) (e : ε)
    (h : answer e) : Outcome mine armed answer (s,([.emit e] : List (Action (Op β κ) ε))) :=
  .answers [] e rfl rfl h (by simp)

/-- An event in front, such as a failed assertion, changes nothing. -/
theorem Outcome.behind (mine : κ → Prop) (armed : σ → Prop) (answer : ε → Prop)
    (r : σ × List (Action (Op β κ) ε)) (e : ε) (h : Outcome mine armed answer r)
    (he : ¬ answer e) : Outcome mine armed answer (r.1,.emit e::r.2) := by
  cases h with
  | starts op hs hm ha hn =>
    refine .starts op hs hm ha ?_
    intro x hx
    rcases List.mem_cons.mp hx with rfl | hx
    · exact he
    · exact hn x hx
  | answers es a hs hev h hn =>
    refine .answers (e::es) a hs (congrArg (e::·) hev) h ?_
    intro x hx
    rcases List.mem_cons.mp hx with rfl | hx
    · exact he
    · exact hn x hx

theorem underway_fresh (mine : κ → Prop) (armed : σ → Prop) (answer : ε → Prop)
    (r : σ × List (Action (Op β κ) ε)) (es : List ε) (t u : List β)
    (h : Outcome mine armed answer r) (hes : ∀ e ∈ es, ¬ answer e) :
    UnderWay mine armed answer
      ⟨r.1,(started r.2).map (·,[]),t,u,es ++ emitted r.2⟩ := by
  have hall : ∀ fs : List ε, (∀ e ∈ fs, ¬ answer e) → ∀ e ∈ es ++ fs, ¬ answer e := by
    intro fs hfs e he
    rcases List.mem_append.mp he with he | he
    · exact hes e he
    · exact hfs e he
  cases h with
  | starts op hs hm ha hn =>
    refine ⟨.waits op [] (by simp [hs]) ha (hall _ hn),fun op' moved hact => ?_⟩
    obtain ⟨rfl,-⟩ : op = op' ∧ [] = moved := by simpa [hs] using hact
    exact hm
  | answers fs e hs he h hn =>
    refine ⟨.answered (es ++ fs) e (by simp [hs]) (by simp [he]) h (hall fs hn),?_⟩
    intro op moved hact
    simp [hs] at hact

theorem underway_settle (o : Object σ κ β η ε) (mine : κ → Prop) (armed : σ → Prop)
    (answer : ε → Prop) (w : Wire σ κ β ε) (op : Op β κ) (res : Result β η)
    (h : Outcome mine armed answer (o.done op res w.obj)) (hn : ∀ e ∈ w.events, ¬ answer e) :
    UnderWay mine armed answer (w.settle o [] [] op res) := by
  have hf := underway_fresh mine armed answer _ w.events w.taken w.sent h hn
  simpa [Wire.settle] using hf

theorem underway_flow (o : Object σ κ β η ε) (fault : η → Prop) (inp : List β)
    (mine : κ → Prop) (armed : σ → Prop) (answer : ε → Prop)
    (hdone : ∀ op res s, mine op.callback → armed s →
      Outcome mine armed answer (o.done op res s)) (w v : Wire σ κ β ε)
    (hw : UnderWay mine armed answer w) (h : Flow o fault inp w v) :
    UnderWay mine armed answer v := by
  obtain ⟨hw,hm⟩ := hw
  cases hw with
  | answered es e ha he hans hn => exact absurd ha (flow_active o fault inp w v h)
  | waits op moved ha hs hn =>
    have hmine := hm op moved ha
    have hstep := fun res =>
      underway_settle o mine armed answer w op res (hdone op res w.obj hmine hs) hn
    -- a chunk changes only how far the operation has got
    have hchunk : ∀ (u : Wire σ κ β ε) moved', u.active = [(op,moved')] → u.obj = w.obj →
        u.events = w.events → UnderWay mine armed answer u := by
      intro u moved' hu ho he
      refine ⟨.waits op moved' hu (ho ▸ hs) (he ▸ hn),fun op' m hact => ?_⟩
      obtain ⟨rfl,-⟩ : op = op' ∧ moved' = m := by simpa [hu] using hact
      exact hmine
    cases h with
    | receive before after n k got chunk hact =>
      obtain ⟨rfl,h,rfl⟩ := only_active (ha ▸ hact)
      obtain ⟨rfl,rfl⟩ := Prod.mk.inj h
      exact hchunk _ _ rfl rfl rfl
    | transmit before after msg k gone chunk hact =>
      obtain ⟨rfl,h,rfl⟩ := only_active (ha ▸ hact)
      obtain ⟨rfl,rfl⟩ := Prod.mk.inj h
      exact hchunk _ _ rfl rfl rfl
    | complete before after op' moved' hact =>
      obtain ⟨rfl,h,rfl⟩ := only_active (ha ▸ hact)
      obtain ⟨rfl,rfl⟩ := Prod.mk.inj h
      exact hstep _
    | fail before after op' moved' e hact =>
      obtain ⟨rfl,h,rfl⟩ := only_active (ha ▸ hact)
      obtain ⟨rfl,rfl⟩ := Prod.mk.inj h
      exact hstep _

/-- A call whose callbacks go on or answer is answered once, whatever arrives and
whatever fails. -/
theorem once_run (o : Object σ κ β η ε) (fault : η → Prop) (inp : List β) (mine : κ → Prop)
    (armed : σ → Prop) (answer : ε → Prop) (hdone : ∀ op res s, mine op.callback → armed s →
      Outcome mine armed answer (o.done op res s)) (r : σ × List (Action (Op β κ) ε))
    (hr : Outcome mine armed answer r) (w : Wire σ κ β ε)
    (h : Run (Flow o fault inp) (Wire.begun r) w) : Once armed answer w := by
  have hbegun : UnderWay mine armed answer (Wire.begun r) :=
    underway_fresh mine armed answer r [] [] [] hr (by simp)
  exact (run_invariant (UnderWay mine armed answer)
    (fun u v hu hv => underway_flow o fault inp mine armed answer hdone u v hu hv) h hbegun).1

end StreamObject
