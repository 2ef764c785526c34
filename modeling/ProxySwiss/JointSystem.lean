import ProxySwiss.TransitionSystem
import Mathlib.Data.List.Chain

/-!
# Systems in a row

Several systems run next to one another, and each of them is bound to the one
behind it by what the two have in common. One of them takes a step at a time,
and only such a step as leaves the row bound.
-/

set_option autoImplicit false

namespace JointSystem
open TransitionSystem

variable {σ : Type*} (step link : σ → σ → Prop)

inductive Step : List σ → List σ → Prop
  | mk (before after : List σ) (s t : σ) (h : step s t)
      (hl : (before ++ t::after).IsChain link) : Step (before ++ s::after) (before ++ t::after)

theorem forall_replace (R : σ → σ → Prop) (keep : ∀ r s t, R r s → step s t → R r t)
    (before after : List σ) (s t : σ) (ht : step s t) (rs : List σ)
    (h : List.Forall₂ R rs (before ++ s::after)) : List.Forall₂ R rs (before ++ t::after) := by
  induction before generalizing rs with
  | nil =>
    cases h with
    | cons hs hafter => exact .cons (keep _ s t hs ht) hafter
  | cons b before ih =>
    cases h with
    | cons hb hrest => exact .cons hb (ih _ hrest)

/-- In a run of the row each system has had a run of its own. -/
theorem run_each (rs ss : List σ) (h : Run (Step step link) rs ss) :
    List.Forall₂ (Run step) rs ss := by
  refine run_invariant (List.Forall₂ (Run step) rs) ?_ h (List.forall₂_refl rs)
  rintro _ _ hs ⟨before,after,s,t,ht,-⟩
  exact forall_replace step (Run step) (fun r s t hr ht => hr.tail ht) before after s t ht rs hs

theorem run_bound (rs ss : List σ) (h : Run (Step step link) rs ss) (hr : rs.IsChain link) :
    ss.IsChain link := by
  refine run_invariant (List.IsChain link) ?_ h hr
  rintro _ _ - ⟨before,after,s,t,-,hl⟩
  exact hl

end JointSystem
