import Mathlib.Logic.Relation
import Mathlib.Order.Basic
import Mathlib.Algebra.Ring.Nat

/-!
# Runs of a transition system

A system is a bare step relation. Safety is an invariant carried along a run,
and liveness is inevitability: along every path the goal is met before the
path can end.
-/

set_option autoImplicit false

namespace TransitionSystem

variable {σ : Type*}

abbrev Run (step : σ → σ → Prop) : σ → σ → Prop := Relation.ReflTransGen step

theorem run_invariant {step : σ → σ → Prop} (I : σ → Prop)
    (keep : ∀ s t, I s → step s t → I t) {s t : σ}
    (h : Run step s t) (hs : I s) : I t := by
  induction h with
  | refl => exact hs
  | tail _ ht ih => exact keep _ _ ih ht

/-- Every path from the state meets `Q`, and no path stops short of it. -/
inductive Inevitable (step : σ → σ → Prop) (Q : σ → Prop) : σ → Prop
  | now {s : σ} (h : Q s) : Inevitable step Q s
  | later {s : σ} (live : ∃ t, step s t) (next : ∀ t, step s t → Inevitable step Q t) :
      Inevitable step Q s

/-- The same with at most `n` steps before the goal. -/
inductive Within (step : σ → σ → Prop) (Q : σ → Prop) : ℕ → σ → Prop
  | now {n : ℕ} {s : σ} (h : Q s) : Within step Q n s
  | later {n : ℕ} {s : σ} (live : ∃ t, step s t) (next : ∀ t, step s t → Within step Q n t) :
      Within step Q (n+1) s

theorem Within.inevitable {step : σ → σ → Prop} {Q : σ → Prop} {n : ℕ} {s : σ}
    (h : Within step Q n s) : Inevitable step Q s := by
  induction h with
  | now hq => exact .now hq
  | later live _ ih => exact .later live ih

/-- Progress under an invariant and a natural measure that every step lowers as
long as the goal is not met. -/
theorem within_of_descent {step : σ → σ → Prop} {Q : σ → Prop} (I : σ → Prop) (μ : σ → ℕ)
    (live : ∀ s, I s → ¬ Q s → ∃ t, step s t)
    (lower : ∀ s t, I s → ¬ Q s → step s t → I t ∧ μ t < μ s) (n : ℕ) :
    ∀ s, I s → μ s ≤ n → Within step Q n s := by
  -- on the bound, with the invariant re-established at each successor
  induction n with
  | zero =>
    intro s hs hn
    by_cases hq : Q s
    · exact .now hq
    · obtain ⟨t,ht⟩ := live s hs hq
      obtain ⟨-,hless⟩ := lower s t hs hq ht
      omega
  | succ n ih =>
    intro s hs hn
    by_cases hq : Q s
    · exact .now hq
    · refine .later (live s hs hq) fun t ht => ?_
      obtain ⟨hi,hless⟩ := lower s t hs hq ht
      exact ih t hi (by omega)

/-- Every step lowers the measure. -/
theorem inevitable_of_measure {step : σ → σ → Prop} {Q : σ → Prop} (I : σ → Prop) (μ : σ → ℕ)
    (keep : ∀ s t, I s → step s t → I t) (live : ∀ s, I s → Q s ∨ ∃ t, step s t)
    (lower : ∀ s t, I s → step s t → μ t < μ s) (s : σ) (hs : I s) : Inevitable step Q s :=
  (within_of_descent I μ (fun s hs hq => (live s hs).resolve_left hq)
    (fun s t hs _ ht => ⟨keep s t hs ht,lower s t hs ht⟩) (μ s) s hs (Nat.le_refl _)).inevitable

theorem Inevitable.reached {step : σ → σ → Prop} {Q : σ → Prop} {s : σ}
    (h : Inevitable step Q s) : ∃ t, Run step s t ∧ Q t := by
  induction h with
  | now hq => exact ⟨_,.refl,hq⟩
  | later live _ ih =>
    obtain ⟨t,ht⟩ := live
    obtain ⟨u,hu,hq⟩ := ih t ht
    exact ⟨u,.head ht hu,hq⟩

/-- A run that cannot go on has come to the goal, if nothing goes on behind it. -/
theorem Inevitable.ended {step : σ → σ → Prop} {Q : σ → Prop} {s t : σ}
    (h : Inevitable step Q s) (hq : ∀ u v, Q u → ¬ step u v) (hr : Run step s t)
    (ht : ∀ v, ¬ step t v) : Q t := by
  induction h with
  | now h =>
    rcases Relation.ReflTransGen.cases_head hr with rfl | ⟨u,hu,-⟩
    · exact h
    · exact absurd hu (hq _ _ h)
  | later live _ ih =>
    rcases Relation.ReflTransGen.cases_head hr with rfl | ⟨u,hu,hut⟩
    · obtain ⟨v,hv⟩ := live
      exact absurd hv (ht v)
    · exact ih u hu hut

/-- From one goal to the next. -/
theorem Inevitable.bind {step : σ → σ → Prop} {Q Q' : σ → Prop} {s : σ}
    (h : Inevitable step Q s) (hnext : ∀ t, Q t → Inevitable step Q' t) :
    Inevitable step Q' s := by
  induction h with
  | now hq => exact hnext _ hq
  | later live _ ih => exact .later live ih

/-- The goal may be sharpened by anything that holds along every run. -/
theorem Inevitable.strengthen {step : σ → σ → Prop} {Q Q' : σ → Prop} {s : σ}
    (h : Inevitable step Q s) (himp : ∀ t, Run step s t → Q t → Q' t) :
    Inevitable step Q' s := by
  induction h with
  | now hq => exact .now (himp _ .refl hq)
  | later live _ ih =>
    exact .later live fun t ht => ih t ht fun u hu => himp u (.head ht hu)

end TransitionSystem
