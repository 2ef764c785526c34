import Mathlib.Algebra.Ring.Nat
import Mathlib.Logic.Basic

/-!
# Loops that may not end

The body of a loop either goes round or returns. The loop is run for a bounded
number of rounds; it diverges when no number of rounds is enough.
-/

set_option autoImplicit false

namespace Loop

variable {σ ρ : Type*}

def eval (body : σ → σ ⊕ ρ) : ℕ → σ → Option ρ
  | 0, _ => none
  | n+1, s => match body s with
    | .inl t => eval body n t
    | .inr r => some r

def Diverges (body : σ → σ ⊕ ρ) (s : σ) : Prop := ∀ n, eval body n s = none

theorem diverges_round (body : σ → σ ⊕ ρ) (s t : σ) (h : body s = .inl t) :
    Diverges body s ↔ Diverges body t := by
  constructor
  · intro hs n
    have := hs (n+1)
    rwa [eval, h] at this
  · intro ht n
    cases n with
    | zero => rfl
    | succ n => rw [eval, h]; exact ht n

theorem diverges_return (body : σ → σ ⊕ ρ) (s : σ) (r : ρ) (h : body s = .inr r) :
    ¬ Diverges body s := by
  intro hs
  have := hs 1
  rw [eval, h] at this
  simp at this

/-- A round that changes nothing is repeated for ever. -/
theorem diverges_stuck (body : σ → σ ⊕ ρ) (s : σ) (h : body s = .inl s) : Diverges body s := by
  intro n
  induction n with
  | zero => rfl
  | succ n ih => rw [eval, h]; exact ih

theorem returns_iff (body : σ → σ ⊕ ρ) (s : σ) :
    (∃ n, (eval body n s).isSome) ↔ ¬ Diverges body s := by
  simp only [Diverges, Option.isSome_iff_ne_none, ne_eq, not_forall]

/-- What has been returned is returned with more rounds as well. -/
theorem eval_mono (body : σ → σ ⊕ ρ) (n m : ℕ) (s : σ) (r : ρ) (h : eval body n s = some r)
    (hm : n ≤ m) : eval body m s = some r := by
  induction n generalizing m s with
  | zero => exact absurd h (by simp [eval])
  | succ n ih =>
    obtain ⟨k,rfl⟩ := Nat.exists_eq_add_of_le' (Nat.le_trans (Nat.le_add_left 1 n) hm)
    cases hb : body s with
    | inl t =>
      rw [eval, hb] at h
      rw [eval, hb]
      exact ih k t h (by omega)
    | inr x =>
      rw [eval, hb] at h
      rw [eval, hb]
      exact h

/-- With enough rounds the loop returns `r`, and with more rounds as well. -/
def Returns (body : σ → σ ⊕ ρ) (s : σ) (r : ρ) : Prop := ∃ N, ∀ n, N ≤ n → eval body n s = some r

theorem Returns.now (body : σ → σ ⊕ ρ) (s : σ) (r : ρ) (h : body s = .inr r) :
    Returns body s r := by
  refine ⟨1,fun n hn => ?_⟩
  obtain ⟨m,rfl⟩ := Nat.exists_eq_add_of_le' hn
  rw [eval, h]

theorem Returns.round (body : σ → σ ⊕ ρ) (s t : σ) (r : ρ) (h : body s = .inl t)
    (ht : Returns body t r) : Returns body s r := by
  obtain ⟨N,hN⟩ := ht
  refine ⟨N+1,fun n hn => ?_⟩
  obtain ⟨m,rfl⟩ := Nat.exists_eq_add_of_le' (Nat.le_trans (Nat.le_add_left 1 N) hn)
  rw [eval, h]
  exact hN m (by omega)

theorem Returns.of_eval (body : σ → σ ⊕ ρ) (n : ℕ) (s : σ) (r : ρ) (h : eval body n s = some r) :
    Returns body s r := ⟨n,fun m hm => eval_mono body n m s r h hm⟩

theorem returns_round (body : σ → σ ⊕ ρ) (s t : σ) (r : ρ) (h : body s = .inl t) :
    Returns body s r ↔ Returns body t r := by
  refine ⟨fun ⟨N,hN⟩ => ⟨N,fun n hn => ?_⟩,Returns.round body s t r h⟩
  have hs := hN (n+1) (by omega)
  rwa [eval, h] at hs

theorem returns_return (body : σ → σ ⊕ ρ) (s : σ) (r x : ρ) (h : body s = .inr x) :
    Returns body s r ↔ r = x := by
  constructor
  · rintro ⟨N,hN⟩
    have hs := hN (N+1) (by omega)
    rw [eval, h] at hs
    exact (Option.some.inj hs).symm
  · rintro rfl
    exact Returns.now body s r h

/-- The states that the loop comes to, round after round. -/
inductive Reached (body : σ → σ ⊕ ρ) (s : σ) : σ → Prop where
  | start : Reached body s s
  | round (t u : σ) (ht : Reached body s t) (h : body t = .inl u) : Reached body s u

theorem Reached.invariant (body : σ → σ ⊕ ρ) (P : σ → Prop) (s t : σ) (hs : P s)
    (hround : ∀ t u, P t → body t = .inl u → P u) (h : Reached body s t) : P t := by
  induction h with
  | start => exact hs
  | round t u _ hu ih => exact hround t u ih hu

/-- Two loops that go round and return together, as far as `f` and `g` tell. -/
theorem eval_simulation {τ υ α : Type*} (body : σ → σ ⊕ ρ) (body' : τ → τ ⊕ υ) (f : ρ → α)
    (g : υ → α) (R : σ → τ → Prop)
    (hround : ∀ s t, R s t → (∃ s' t', body s = .inl s' ∧ body' t = .inl t' ∧ R s' t') ∨
      ∃ r r', body s = .inr r ∧ body' t = .inr r' ∧ f r = g r')
    (n : ℕ) (s : σ) (t : τ) (h : R s t) : (eval body n s).map f = (eval body' n t).map g := by
  induction n generalizing s t with
  | zero => rfl
  | succ n ih =>
    rcases hround s t h with ⟨s',t',hs,ht,hnext⟩ | ⟨r,r',hs,ht,hr⟩
    · rw [eval, eval, hs, ht]
      exact ih s' t' hnext
    · rw [eval, eval, hs, ht]
      exact congrArg some hr

end Loop
