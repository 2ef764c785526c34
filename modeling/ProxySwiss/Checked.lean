import Mathlib.Data.List.Basic
import Mathlib.Algebra.Ring.Nat

/-!
# Computations with checked accesses

A computation on texts and arrays ends with a fault where an access is out of
range, it rejects its input, or it has a result. What it meets is stated by two
conditions, one for each of the two ends that are no fault; there is one rule
for each way to put a computation together.
-/

set_option autoImplicit false

namespace Checked

inductive Fault where
  | index (i length : ℕ)
  | position (pos length : ℕ)
  | negative (a b : ℕ)
  | overflow (v : ℕ)
  deriving DecidableEq, Repr

inductive Outcome (α : Type) where
  | fault (f : Fault)
  | rejected
  | done (a : α)

variable {α β : Type}

def Outcome.bind : Outcome α → (α → Outcome β) → Outcome β
  | .fault f, _ => .fault f
  | .rejected, _ => .rejected
  | .done a, k => k a

instance : Monad Outcome where
  pure := .done
  bind := Outcome.bind

def Outcome.result : Outcome α → Option α
  | .done a => some a
  | _ => none

/-- The element at the length of a string is the one that ends it. -/
def index (s : List α) (terminator : α) (i : ℕ) : Outcome α :=
  if i ≤ s.length then .done (s.getD i terminator) else .fault (.index i s.length)

/-- A substring begins inside the string or at its end, and is cut off there. -/
def substr (s : List α) (pos len : ℕ) : Outcome (List α) :=
  if pos ≤ s.length then .done ((s.drop pos).take len) else .fault (.position pos s.length)

def substrFrom (s : List α) (pos : ℕ) : Outcome (List α) :=
  if pos ≤ s.length then .done (s.drop pos) else .fault (.position pos s.length)

/-- A difference of two unsigned numbers, which must not wrap. -/
def sub (a b : ℕ) : Outcome ℕ := if b ≤ a then .done (a-b) else .fault (.negative a b)

/-- An element of an array, which nothing ends. -/
def load (s : List α) (i : ℕ) : Outcome α :=
  match s[i]? with
  | some a => .done a
  | none => .fault (.index i s.length)

def store (s : List α) (i : ℕ) (a : α) : Outcome (List α) :=
  if i < s.length then .done (s.set i a) else .fault (.index i s.length)

/-- A value kept in so many bits, which must not wrap. -/
def word (bits v : ℕ) : Outcome ℕ := if v < 2^bits then .done v else .fault (.overflow v)

/-! Inside their ranges the accesses have results. -/

theorem index_inside (s : List α) (terminator : α) (i : ℕ) (h : i ≤ s.length) :
    index s terminator i = .done (s.getD i terminator) := if_pos h

theorem substr_inside (s : List α) (pos len : ℕ) (h : pos ≤ s.length) :
    substr s pos len = .done ((s.drop pos).take len) := if_pos h

theorem substrFrom_inside (s : List α) (pos : ℕ) (h : pos ≤ s.length) :
    substrFrom s pos = .done (s.drop pos) := if_pos h

theorem sub_inside (a b : ℕ) (h : b ≤ a) : sub a b = .done (a-b) := if_pos h

theorem load_inside (s : List α) (i : ℕ) (a : α) (h : s[i]? = some a) : load s i = .done a := by
  rw [load, h]

theorem store_inside (s : List α) (i : ℕ) (a : α) (h : i < s.length) :
    store s i a = .done (s.set i a) := if_pos h

theorem word_inside (bits v : ℕ) (h : v < 2^bits) : word bits v = .done v := if_pos h

@[simp] theorem done_bind (a : α) (k : α → Outcome β) : (Outcome.done a >>= k) = k a := rfl
@[simp] theorem pure_done (a : α) : (pure a : Outcome α) = .done a := rfl

/-- There is no fault; `R` holds if the input is rejected, and `P` of the result. -/
def Meets (m : Outcome α) (R : Prop) (P : α → Prop) : Prop :=
  match m with
  | .fault _ => False
  | .rejected => R
  | .done a => P a

section Rules

variable {R R' : Prop} {P P' : α → Prop} {Q : β → Prop} {m : Outcome α}

@[simp] theorem meets_done (a : α) : Meets (.done a) R P ↔ P a := Iff.rfl
@[simp] theorem meets_rejected : Meets (.rejected : Outcome α) R P ↔ R := Iff.rfl

theorem Meets.mono (h : Meets m R P) (hr : R → R') (hp : ∀ a, P a → P' a) : Meets m R' P' := by
  cases m with
  | fault f => exact h
  | rejected => exact hr h
  | done a => exact hp a h

/-- What is done behind a computation may use what it meets. -/
theorem Meets.bind {k : α → Outcome β} (h : Meets m R P) (hr : R → R')
    (hk : ∀ a, P a → Meets (k a) R' Q) : Meets (m >>= k) R' Q := by
  cases m with
  | fault f => exact h
  | rejected => exact hr h
  | done a => exact hk a h

theorem Meets.no_fault (h : Meets m R P) (f : Fault) : m ≠ .fault f := by
  rintro rfl
  exact h

end Rules

end Checked
