import Mathlib.Data.List.Nodup
import Mathlib.Data.List.Count
import Mathlib.Data.List.Induction
import Mathlib.Algebra.Ring.Nat

/-!
# Logs without repetition

A journal keeps what it has written beside a set of what it has seen, and
writes a value only if the set does not have it. Fed with any sequence, it has
written the first occurrences of its values, in their order.
-/

set_option autoImplicit false

namespace FirstOccurrences

variable {α β : Type*} [DecidableEq α] [DecidableEq β]

theorem nodup_eraseDups (xs : List α) : xs.eraseDups.Nodup := by
  induction hn : xs.length using Nat.strongRecOn generalizing xs with
  | ind n ih =>
    cases xs with
    | nil => exact List.nodup_nil
    | cons x xs =>
      rw [List.length_cons] at hn
      rw [List.eraseDups_cons, List.nodup_cons]
      refine ⟨by simp,ih _ ?_ _ rfl⟩
      have := List.length_filter_le (fun y => !y == x) xs
      omega

/-- One more value is added behind the others, unless it has occurred. -/
theorem eraseDups_concat (xs : List α) (x : α) :
    (xs ++ [x]).eraseDups = if x ∈ xs then xs.eraseDups else xs.eraseDups ++ [x] := by
  rw [List.eraseDups_append]
  by_cases h : x ∈ xs <;> simp [List.removeAll, h, List.eraseDups_cons]

/-- Keys that tell all values apart may be written in their place. -/
theorem eraseDups_map (f : α → β) (hf : Function.Injective f) (xs : List α) :
    (xs.map f).eraseDups = xs.eraseDups.map f := by
  induction xs using List.reverseRecOn with
  | nil => rfl
  | append_singleton xs x ih =>
    rw [List.map_append, List.map_singleton, eraseDups_concat, eraseDups_concat, ih]
    simp only [List.mem_map_of_injective hf]
    split_ifs <;> simp

theorem count_eraseDups (xs : List α) (x : α) :
    xs.eraseDups.count x = if x ∈ xs then 1 else 0 := by
  rw [List.Nodup.count (nodup_eraseDups xs)]
  simp only [List.mem_eraseDups]

structure Journal (α : Type*) where
  log : List α := []
  history : List α := []

def Journal.note (j : Journal α) (x : α) : Journal α :=
  if x ∈ j.history then j else ⟨j.log ++ [x],j.history ++ [x]⟩

/-- What has been written and what has been seen are the first occurrences. -/
structure Journal.Holds (j : Journal α) (xs : List α) : Prop where
  log : j.log = xs.eraseDups
  history : j.history = xs.eraseDups

theorem Journal.holds_empty : ({} : Journal α).Holds [] := ⟨rfl,rfl⟩

theorem Journal.holds_note (j : Journal α) (xs : List α) (x : α) (h : j.Holds xs) :
    (j.note x).Holds (xs ++ [x]) := by
  have hmem : x ∈ j.history ↔ x ∈ xs := by rw [h.history, List.mem_eraseDups]
  unfold Journal.note
  constructor <;> rw [eraseDups_concat] <;> split_ifs with hx hin hin
  · exact h.log
  · exact absurd (hmem.mp hx) hin
  · exact absurd (hmem.mpr hin) hx
  · rw [h.log]
  · exact h.history
  · exact absurd (hmem.mp hx) hin
  · exact absurd (hmem.mpr hin) hx
  · rw [h.history]

theorem Journal.holds_notes (j : Journal α) (xs ys : List α) (h : j.Holds xs) :
    (ys.foldl Journal.note j).Holds (xs ++ ys) := by
  induction ys generalizing j xs with
  | nil => simpa using h
  | cons y ys ih =>
    have hstep := ih (j.note y) (xs ++ [y]) (j.holds_note xs y h)
    rwa [List.append_assoc] at hstep

end FirstOccurrences
