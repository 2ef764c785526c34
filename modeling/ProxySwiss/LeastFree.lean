import Mathlib.Data.List.Nodup
import Mathlib.Data.List.Range
import Mathlib.Algebra.Ring.Nat
import Mathlib.Data.List.Perm.Subperm

/-!
# The least free number

A counting loop tries one number after the other and takes the first one that
is free. It fails only if all of its numbers are taken, and then at least as
many are taken as it tries.
-/

set_option autoImplicit false

namespace LeastFree

variable (taken : ℕ → Prop) [DecidablePred taken]

/-- The first free number of the `n` numbers from `i` on. -/
def search : ℕ → ℕ → Option ℕ
  | 0, _ => none
  | n+1, i => if taken i then search n (i+1) else some i

theorem search_some (n i k : ℕ) (h : search taken n i = some k) :
    i ≤ k ∧ k < i+n ∧ ¬ taken k ∧ ∀ j, i ≤ j → j < k → taken j := by
  induction n generalizing i with
  | zero => exact absurd h (by simp [search])
  | succ n ih =>
    rw [search] at h
    split_ifs at h with hi
    · obtain ⟨hlo,hhi,hfree,hleast⟩ := ih (i+1) h
      refine ⟨by omega,by omega,hfree,fun j hj hk => ?_⟩
      by_cases hij : j = i
      · rw [hij]
        exact hi
      · exact hleast j (by omega) hk
    · obtain rfl := Option.some.inj h
      exact ⟨Nat.le_refl i,by omega,hi,fun j hj hk => absurd hj (by omega)⟩

theorem search_none (n i : ℕ) (h : search taken n i = none) :
    ∀ j, i ≤ j → j < i+n → taken j := by
  induction n generalizing i with
  | zero => exact fun j hj hn => absurd hj (by omega)
  | succ n ih =>
    rw [search] at h
    split_ifs at h with hi
    intro j hj hn
    by_cases hij : j = i
    · rw [hij]
      exact hi
    · exact ih (i+1) h j (by omega) (by omega)

/-- Numbers that are all in a table cannot be more than its entries. -/
theorem taken_length (table : List ℕ) (n : ℕ) (h : ∀ j < n, j ∈ table) : n ≤ table.length := by
  have hsub : List.range n ⊆ table := fun j hj => h j (List.mem_range.mp hj)
  have hperm := (List.nodup_range (n := n)).subperm hsub
  simpa using hperm.length_le

/-- As long as the table is shorter than the loop, the loop finds the least
number that is free. -/
theorem search_least (table : List ℕ) (n : ℕ) (ht : ∀ j < n, taken j → j ∈ table)
    (h : table.length < n) :
    ∃ k, search taken n 0 = some k ∧ k < n ∧ ¬ taken k ∧ ∀ j < k, taken j := by
  cases hs : search taken n 0 with
  | none =>
    have hall := search_none taken n 0 hs
    have := taken_length table n fun j hj => ht j hj (hall j (Nat.zero_le j) (by omega))
    omega
  | some k =>
    obtain ⟨-,hn,hfree,hleast⟩ := search_some taken n 0 k hs
    exact ⟨k,rfl,by omega,hfree,fun j hj => hleast j (Nat.zero_le j) hj⟩

end LeastFree
