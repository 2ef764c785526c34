import ProxySwiss.Text
import Mathlib.Data.List.TakeWhile

/-!
# Searching a text for a separator

A search reports a position. What the parsers need is the text on either side
of it, so each search is given here as the two parts into which it divides what
lies behind the position where it began.
-/

set_option autoImplicit false

namespace ProxySwiss
open Memory Text

/-- What both types of a character have in common: it is its code, the code of
an ASCII character is its number, and a character is made narrow by its code. -/
class LawfulCharT (T : Type) [CharT T] : Prop where
  code_inj : ∀ a b : T, CharT.code a = CharT.code b → a = b
  code_ofChar : ∀ c : UInt8, c.toNat < 128 → CharT.code (CharT.ofChar c : T) = c.toNat
  toChar_code : ∀ c : T, CharT.toChar c = UInt8.ofNat (CharT.code c)

instance : LawfulCharT UInt8 where
  code_inj _ _ h := UInt8.toNat_inj.mp h
  code_ofChar _ _ := rfl
  toChar_code _ := UInt8.ofNat_toNat.symm

instance : LawfulCharT UInt16 where
  code_inj _ _ h := UInt16.toNat_inj.mp h
  code_ofChar c h := by
    change (charToWchar c).toNat = _
    rw [charToWchar, if_pos h]
    exact UInt16.toNat_ofNat_of_lt' (Nat.lt_trans h (by decide))
  toChar_code c := by
    change wcharToChar c = UInt8.ofNat c.toNat
    apply UInt8.toNat_inj.mp
    simp [wcharToChar]

namespace Text

theorem prefix_single {α : Type} (c : α) (s : List α) : [c] <+: s ↔ ∃ t, s = c::t := by
  constructor
  · rintro ⟨t,rfl⟩
    exact ⟨t,rfl⟩
  · rintro ⟨t,rfl⟩
    exact ⟨t,rfl⟩

variable {T : Type} [CharT T]

/-- The text in front of the first `c`, and the text from it on. -/
def before (c : T) (s : List T) : List T := s.takeWhile (· ≠ c)
def behind (c : T) (s : List T) : List T := s.dropWhile (· ≠ c)

theorem before_behind (c : T) (s : List T) : before c s ++ behind c s = s :=
  List.takeWhile_append_dropWhile

theorem not_mem_before (c : T) (s : List T) : c ∉ before c s := by
  intro h
  simpa using List.mem_takeWhile_imp h

theorem before_append (c : T) (a s : List T) (h : c ∉ a) :
    before c (a ++ s) = a ++ before c s :=
  List.takeWhile_append_of_pos fun x hx => by
    simp only [ne_eq, decide_eq_true_eq]
    rintro rfl
    exact h hx

theorem behind_append (c : T) (a s : List T) (h : c ∉ a) : behind c (a ++ s) = behind c s :=
  List.dropWhile_append_of_pos fun x hx => by
    simp only [ne_eq, decide_eq_true_eq]
    rintro rfl
    exact h hx

@[simp] theorem before_self (c : T) (s : List T) : before c (c::s) = [] := by simp [before]
@[simp] theorem behind_self (c : T) (s : List T) : behind c (c::s) = c::s := by simp [behind]
@[simp] theorem before_nil (c : T) : before c [] = [] := rfl
@[simp] theorem behind_nil (c : T) : behind c [] = [] := rfl

theorem before_absent (c : T) (s : List T) (h : c ∉ s) : before c s = s := by
  simpa using before_append c s [] h

theorem behind_absent (c : T) (s : List T) (h : c ∉ s) : behind c s = [] := by
  simpa using behind_append c s [] h

theorem behind_cons (c : T) (s : List T) (h : c ∈ s) : ∃ t, behind c s = c::t := by
  obtain ⟨a,b,rfl,ha⟩ := List.eq_append_cons_of_mem h
  exact ⟨b,by rw [behind_append c a _ ha, behind_self]⟩

theorem behind_head (c : T) (s : List T) : behind c s = [] ∨ ∃ t, behind c s = c::t := by
  by_cases h : c ∈ s
  · exact .inr (behind_cons c s h)
  · exact .inl (behind_absent c s h)

theorem find_some (needle s : List T) (pos i : ℕ) :
    find needle s pos = some i ↔ pos ≤ i ∧ i ≤ s.length ∧ needle <+: s.drop i ∧
      ∀ j, pos ≤ j → j < i → ¬ needle <+: s.drop j := by
  simp only [find, List.find?_range'_eq_some, List.isPrefixOf_iff_prefix, List.mem_range'_1,
    Bool.not_eq_true', Bool.eq_false_iff, ne_eq]
  constructor
  · rintro ⟨h,⟨hlo,hhi⟩,hfirst⟩
    exact ⟨hlo,by omega,h,hfirst⟩
  · rintro ⟨hlo,hhi,h,hfirst⟩
    exact ⟨h,⟨hlo,by omega⟩,hfirst⟩

theorem find_none (needle s : List T) (pos : ℕ) :
    find needle s pos = none ↔ ∀ j, pos ≤ j → j ≤ s.length → ¬ needle <+: s.drop j := by
  simp only [find, List.find?_eq_none, List.isPrefixOf_iff_prefix, List.mem_range'_1]
  constructor
  · intro h j hlo hhi
    exact h j ⟨hlo,by omega⟩
  · intro h j hj
    exact h j hj.1 (by omega)

theorem find_char (c : T) (p s : List T) : find [c] (p ++ s) p.length =
    if c ∈ s then some (p.length+(before c s).length) else none := by
  split_ifs with h
  · obtain ⟨a,b,rfl,ha⟩ := List.eq_append_cons_of_mem h
    rw [before_append c a _ ha, before_self, List.append_nil, find_some]
    refine ⟨by omega,by simp,?_,?_⟩
    · rw [← List.append_assoc, List.drop_left' (by simp)]
      exact ⟨b,rfl⟩
    · intro j hlo hhi hpre
      obtain ⟨k,rfl⟩ := Nat.exists_eq_add_of_le hlo
      rw [← List.drop_drop, List.drop_left, List.drop_append_of_le_length (by omega),
        prefix_single] at hpre
      obtain ⟨t,ht⟩ := hpre
      have hk : a.drop k ≠ [] := by
        simp only [ne_eq, List.drop_eq_nil_iff]
        omega
      obtain ⟨x,xs,hx⟩ := List.exists_cons_of_ne_nil hk
      rw [hx, List.cons_append, List.cons.injEq] at ht
      exact ha (List.drop_subset k a (by simp [hx, ht.1]))
  · rw [find_none]
    intro j hlo hhi hpre
    obtain ⟨k,rfl⟩ := Nat.exists_eq_add_of_le hlo
    rw [← List.drop_drop, List.drop_left, prefix_single] at hpre
    obtain ⟨t,ht⟩ := hpre
    exact h (List.drop_subset k s (by simp [ht]))

/-- A text that does not occur is not found, and one that occurs is. -/
theorem find_absent (needle s : List T) : find needle s 0 = none ↔ ¬ needle <:+: s := by
  rw [find_none, List.infix_iff_prefix_suffix]
  constructor
  · rintro h ⟨t,ht,hs⟩
    obtain ⟨a,rfl⟩ := hs
    exact h a.length (Nat.zero_le _) (by simp) (by simpa using ht)
  · intro h j _ _ hpre
    exact h ⟨s.drop j,hpre,List.drop_suffix j s⟩

theorem charAt_append (p s : List T) :
    charAt (p ++ s) p.length = s.headD (CharT.ofChar 0) := by
  cases s <;> simp [charAt]

/-! The parts of a text between the occurrences of a delimiter. -/

/-- The delimiter does not begin inside `a`. -/
def Clear (delim a rest : List T) : Prop := ∀ j < a.length, ¬ delim <+: (a ++ rest).drop j

theorem splitFrom_skip (delim cur a rest : List T) :
    splitFrom delim a.length cur (a ++ rest) = splitFrom delim 0 cur rest := by
  induction a with
  | nil => rfl
  | cons c cs ih => exact ih

theorem splitFrom_delim (delim cur rest : List T) (hd : delim ≠ []) :
    splitFrom delim 0 cur (delim ++ rest) = cur::splitFrom delim 0 [] rest := by
  obtain ⟨d,ds,rfl⟩ := List.exists_cons_of_ne_nil hd
  have hpre : (d::ds).isPrefixOf (d::(ds ++ rest)) = true :=
    List.isPrefixOf_iff_prefix.mpr ⟨rest,rfl⟩
  rw [List.cons_append, splitFrom, if_pos hpre]
  exact congrArg (cur::·) (splitFrom_skip _ _ ds rest)

theorem splitFrom_clear (delim cur a rest : List T) (h : Clear delim a rest) :
    splitFrom delim 0 cur (a ++ rest) = splitFrom delim 0 (cur ++ a) rest := by
  induction a generalizing cur with
  | nil => rw [List.append_nil, List.nil_append]
  | cons c cs ih =>
    have hno : ¬ delim.isPrefixOf (c::(cs ++ rest)) = true := by
      rw [List.isPrefixOf_iff_prefix]
      exact h 0 (by simp)
    rw [List.cons_append, splitFrom, if_neg hno,
      ih (cur ++ [c]) fun j hj => h (j+1) (by simpa using hj)]
    simp

theorem split_at (delim a rest : List T) (hd : delim ≠ []) (h : Clear delim a (delim ++ rest)) :
    strSplit (a ++ (delim ++ rest)) delim = a::strSplit rest delim := by
  rw [strSplit, splitFrom_clear _ _ _ _ h, splitFrom_delim _ _ _ hd]
  rfl

theorem split_whole (delim s : List T) (h : ¬ delim <:+: s) : strSplit s delim = [s] := by
  have hclear : Clear delim s [] := by
    intro j _ hpre
    rw [List.append_nil] at hpre
    exact h (hpre.isInfix.trans (List.drop_suffix j s).isInfix)
  have hsplit := splitFrom_clear delim [] s [] hclear
  rw [List.append_nil, List.nil_append] at hsplit
  rw [strSplit, hsplit]
  cases delim <;> rfl

/-- Either the delimiter does not occur, or it ends the first part. -/
theorem split_cases (delim s : List T) (hd : delim ≠ []) :
    (¬ delim <:+: s ∧ strSplit s delim = [s]) ∨
      ∃ a rest, s = a ++ (delim ++ rest) ∧ Clear delim a (delim ++ rest) ∧
        strSplit s delim = a::strSplit rest delim := by
  cases hf : find delim s 0 with
  | none =>
    have hno := (find_absent delim s).mp hf
    exact .inl ⟨hno,split_whole delim s hno⟩
  | some i =>
    obtain ⟨-,hi,⟨rest,hrest⟩,hfirst⟩ := (find_some delim s 0 i).mp hf
    have hs : s = s.take i ++ (delim ++ rest) := by rw [hrest, List.take_append_drop]
    have hclear : Clear delim (s.take i) (delim ++ rest) := by
      intro j hj
      rw [← hs]
      rw [List.length_take] at hj
      exact hfirst j (Nat.zero_le _) (by omega)
    refine .inr ⟨s.take i,rest,hs,hclear,?_⟩
    nth_rewrite 1 [hs]
    exact split_at delim _ rest hd hclear

omit [CharT T] in
theorem clear_single (c : T) (a rest : List T) : Clear [c] a (c::rest) ↔ c ∉ a := by
  constructor
  · intro h hin
    obtain ⟨x,y,rfl⟩ := List.append_of_mem hin
    refine h x.length (by simp) ?_
    rw [List.append_assoc, List.drop_left]
    exact ⟨y ++ c::rest,rfl⟩
  · intro h j hj hpre
    rw [List.drop_append_of_le_length (by omega), prefix_single] at hpre
    obtain ⟨t,ht⟩ := hpre
    obtain ⟨x,xs,hx⟩ := List.exists_cons_of_ne_nil
      (show a.drop j ≠ [] by simp only [ne_eq, List.drop_eq_nil_iff]; omega)
    rw [hx, List.cons_append, List.cons.injEq] at ht
    exact h (List.drop_subset j a (by simp [hx, ht.1]))

omit [CharT T] in
theorem infix_single (c : T) (s : List T) : [c] <:+: s ↔ c ∈ s := by
  constructor
  · exact fun h => h.subset (by simp)
  · intro h
    obtain ⟨x,y,rfl⟩ := List.append_of_mem h
    exact ⟨x,y,by simp⟩

/-- A text of one part, and a text of more. -/
theorem split_one (c : T) (s x : List T) : strSplit s [c] = [x] ↔ s = x ∧ c ∉ x := by
  rcases split_cases [c] s (by simp) with ⟨hno,h⟩ | ⟨a,rest,rfl,-,h⟩
  · rw [infix_single] at hno
    rw [h]
    constructor
    · intro hx
      obtain rfl := List.singleton_inj.mp hx
      exact ⟨rfl,hno⟩
    · rintro ⟨rfl,-⟩
      rfl
  · have hmore : strSplit rest [c] ≠ [] := by
      rcases split_cases [c] rest (by simp) with ⟨-,h⟩ | ⟨b,r,-,-,h⟩ <;> simp [h]
    rw [h]
    constructor
    · intro hx
      exact absurd (List.cons.inj hx).2 hmore
    · rintro ⟨rfl,hno⟩
      exact absurd (by simp) hno

theorem split_more (c : T) (s x y : List T) (ys : List (List T)) :
    strSplit s [c] = x::y::ys ↔
      ∃ rest, s = x ++ c::rest ∧ c ∉ x ∧ strSplit rest [c] = y::ys := by
  constructor
  · intro h
    rcases split_cases [c] s (by simp) with ⟨-,h'⟩ | ⟨a,rest,rfl,hclear,h'⟩
    · rw [h'] at h
      exact absurd h (by simp)
    · rw [h'] at h
      obtain ⟨rfl,hrest⟩ := List.cons.inj h
      exact ⟨rest,rfl,(clear_single c a rest).mp hclear,hrest⟩
  · rintro ⟨rest,rfl,hx,hrest⟩
    rw [← hrest]
    exact split_at [c] x rest (by simp) ((clear_single c x rest).mpr hx)

theorem split_three (c : T) (s x y z : List T) : strSplit s [c] = [x,y,z] ↔
    s = x ++ c::(y ++ c::z) ∧ c ∉ x ∧ c ∉ y ∧ c ∉ z := by
  simp only [split_more, split_one]
  constructor
  · rintro ⟨_,rfl,hx,_,rfl,hy,rfl,hz⟩
    exact ⟨rfl,hx,hy,hz⟩
  · rintro ⟨rfl,hx,hy,hz⟩
    exact ⟨_,rfl,hx,_,rfl,hy,rfl,hz⟩

end Text

end ProxySwiss
