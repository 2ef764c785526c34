import Mathlib.Data.List.Basic
import Mathlib.Data.List.Infix

/-!
# Occurrences of a delimiter

The cuts of a list are the leftmost occurrences of a delimiter, each of them
looked for behind the one before. They are unique, and the pieces between them
are the list without the delimiters.
-/

set_option autoImplicit false

namespace Occurrences

variable {α : Type*} (d s : List α)

/-- The first occurrence at or after a position. -/
structure Leftmost (pos c : ℕ) : Prop where
  behind : pos ≤ c
  here : d <+: s.drop c
  first : ∀ j, pos ≤ j → j < c → ¬ d <+: s.drop j

def Absent (pos : ℕ) : Prop := ∀ j, pos ≤ j → ¬ d <+: s.drop j

inductive Cuts : ℕ → List ℕ → Prop
  | done (pos : ℕ) (h : Absent d s pos) : Cuts pos []
  | cut (pos c : ℕ) (cs : List ℕ) (h : Leftmost d s pos c) (hcs : Cuts (c+d.length) cs) :
      Cuts pos (c::cs)

/-- The pieces from a position on, with the cuts behind it. -/
def pieces (n : ℕ) : ℕ → List ℕ → List (List α)
  | pos, [] => [s.drop pos]
  | pos, c::cs => (s.drop pos).take (c-pos)::pieces n (c+n) cs

variable {d s}

theorem leftmost_end (pos c : ℕ) (h : Leftmost d s pos c) (hd : d ≠ []) :
    c+d.length ≤ s.length := by
  have hlen := h.here.length_le
  have hpos : 0 < d.length := List.length_pos_iff.mpr hd
  rw [List.length_drop] at hlen
  omega

theorem leftmost_unique (pos c c' : ℕ) (h : Leftmost d s pos c) (h' : Leftmost d s pos c') :
    c = c' := by
  rcases Nat.lt_trichotomy c c' with hlt | heq | hgt
  · exact absurd h.here (h'.first c h.behind hlt)
  · exact heq
  · exact absurd h'.here (h.first c' h'.behind hgt)

theorem cuts_unique (pos : ℕ) (cs cs' : List ℕ) (h : Cuts d s pos cs) (h' : Cuts d s pos cs') :
    cs = cs' := by
  induction h generalizing cs' with
  | done pos habsent =>
    cases h' with
    | done => rfl
    | cut _ c cs' hc _ => exact absurd hc.here (habsent c hc.behind)
  | cut pos c cs hc _ ih =>
    cases h' with
    | done _ habsent => exact absurd hc.here (habsent c hc.behind)
    | cut _ c' cs' hc' hcs' =>
      obtain rfl := leftmost_unique pos c c' hc hc'
      rw [ih cs' hcs']

theorem pieces_length (n pos : ℕ) (cs : List ℕ) : (pieces s n pos cs).length = cs.length+1 := by
  induction cs generalizing pos with
  | nil => rfl
  | cons c cs ih => rw [pieces, List.length_cons, ih, List.length_cons]

theorem pieces_ne (n pos : ℕ) (cs : List ℕ) : pieces s n pos cs ≠ [] := by
  cases cs <;> simp [pieces]

theorem absent_inside (pos : ℕ) (h : Absent d s pos) : ¬ d <:+: s.drop pos := by
  rintro ⟨a,b,hab⟩
  refine h (pos+a.length) (Nat.le_add_right _ _) ⟨b,?_⟩
  rw [← List.drop_drop, ← hab, List.append_assoc, List.drop_left]

/-- A list up to an occurrence, the delimiter, and the rest. -/
theorem leftmost_parts (pos c : ℕ) (h : Leftmost d s pos c) :
    s.drop pos = (s.drop pos).take (c-pos) ++ (d ++ s.drop (c+d.length)) := by
  obtain ⟨t,ht⟩ := h.here
  have hrest : s.drop (c+d.length) = t := by
    rw [← List.drop_drop, ← ht, List.drop_left]
  have hbehind : (s.drop pos).drop (c-pos) = s.drop c := by
    rw [List.drop_drop, Nat.add_sub_cancel' h.behind]
  rw [hrest, ht, ← hbehind, List.take_append_drop]

/-- The pieces with the delimiter between each two are the list. -/
theorem pieces_join (pos : ℕ) (cs : List ℕ) (h : Cuts d s pos cs) :
    d.intercalate (pieces s d.length pos cs) = s.drop pos := by
  induction h with
  | done pos h => simp [pieces, List.intercalate]
  | cut pos c cs h hcs ih =>
    have hparts := leftmost_parts pos c h
    obtain ⟨p,ps,hp⟩ := List.exists_cons_of_ne_nil (pieces_ne (s := s) d.length (c+d.length) cs)
    rw [pieces, hp, List.intercalate_cons_cons, ← hp, ih, List.append_assoc, ← hparts]

/-- No piece has the delimiter in it. -/
theorem pieces_clear (pos : ℕ) (cs : List ℕ) (hd : d ≠ []) (h : Cuts d s pos cs) :
    ∀ p ∈ pieces s d.length pos cs, ¬ d <:+: p := by
  induction h with
  | done pos h =>
    intro p hp
    obtain rfl := List.mem_singleton.mp hp
    exact absent_inside pos h
  | cut pos c cs h hcs ih =>
    intro p hp hin
    rcases List.mem_cons.mp hp with rfl | hp
    · obtain ⟨a,b,hab⟩ := hin
      have hlen := congrArg List.length hab
      have hpos : 0 < d.length := List.length_pos_iff.mpr hd
      simp only [List.length_append, List.length_take] at hlen
      refine h.first (pos+a.length) (Nat.le_add_right _ _) (by omega) ?_
      have hparts := leftmost_parts pos c h
      rw [← hab] at hparts
      rw [← List.drop_drop, hparts]
      simp only [List.append_assoc, List.drop_left]
      exact List.prefix_append _ _
    · exact ih p hp hin

end Occurrences
