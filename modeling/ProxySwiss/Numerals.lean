import ProxySwiss.TextSearch

/-!
# Numbers in a text

The routines that scan a number take white space and a sign in front of its
digits, and a negative number is taken modulo the range. What they accept is
stated here as a grammar, beside the plain decimal numbers.
-/

set_option autoImplicit false

namespace ProxySwiss.Text
open Memory

variable {T : Type} [CharT T]

def Digit (c : T) : Prop := 48 ≤ CharT.code c ∧ CharT.code c ≤ 57

instance (c : T) : Decidable (Digit c) := inferInstanceAs (Decidable (_ ∧ _))

def decValue (s : List T) : ℕ := s.foldl (fun v c => v*10+(CharT.code c-48)) 0

/-- One or more digits, and the number they denote. -/
structure Decimal (s : List T) (v : ℕ) : Prop where
  nonempty : s ≠ []
  digit : ∀ c ∈ s, Digit c
  value : decValue s = v

/-- The sign that may precede the digits, and whether it is a minus. -/
inductive Mark : List T → Bool → Prop
  | absent : Mark [] false
  | plus (c : T) (h : CharT.code c = 43) : Mark [c] false
  | minus (c : T) (h : CharT.code c = 45) : Mark [c] true

/-- White space, a sign and digits: a number as the scanning routines take it. -/
def ScannedAs (wrapped : Bool → ℕ → ℕ) (s : List T) (v : ℕ) : Prop :=
  ∃ blanks mark ds minus n, s = blanks ++ mark ++ ds ∧ (∀ c ∈ blanks, isSpace c = true) ∧
    Mark mark minus ∧ Decimal ds n ∧ v = wrapped minus n

def Numeral (s : List T) (v : ℕ) : Prop := ScannedAs wrap s v

/-- A number as the format takes it. -/
def HalfNumeral (s : List T) (v : ℕ) : Prop := ScannedAs wrapHalf s v

def NoDigit (s : List T) : Prop := ∀ c ∈ s.head?, ¬ Digit c

theorem decDigit_some (c : T) (h : Digit c) : decDigit c = some (CharT.code c-48) := if_pos h

theorem decDigit_none (c : T) (h : ¬ Digit c) : decDigit c = none := if_neg h

theorem decDigit_isSome (c : T) : (decDigit c).isSome ↔ Digit c := by
  by_cases h : Digit c
  · simp [decDigit_some c h, h]
  · simp [decDigit_none c h, h]

theorem noDigit_nil : NoDigit ([] : List T) := by simp [NoDigit]

theorem noDigit_cons (c : T) (s : List T) : NoDigit (c::s) ↔ ¬ Digit c := by
  simp [NoDigit]

theorem digit_not_space (c : T) (h : Digit c) : isSpace c = false := by
  have hlo := h.1
  simp only [isSpace, Bool.or_eq_false_iff, Bool.and_eq_false_iff, decide_eq_false_iff_not]
  omega

/-- The digits are read as far as they go. -/
theorem digits_append (ds rest : List T) (v : ℕ) (h : ∀ c ∈ ds, Digit c) (hrest : NoDigit rest) :
    digits (ds ++ rest) v = (ds.foldl (fun v c => v*10+(CharT.code c-48)) v,rest) := by
  induction ds generalizing v with
  | nil =>
    cases rest with
    | nil => rfl
    | cons c cs =>
      rw [List.nil_append, digits, decDigit_none c ((noDigit_cons c cs).mp hrest)]
      rfl
  | cons d ds ih =>
    rw [List.cons_append, digits, decDigit_some d (h d (by simp))]
    exact ih _ fun c hc => h c (by simp [hc])

theorem digits_all (s : List T) (h : s.all (fun c => decide (Digit c)) = true) :
    ∀ c ∈ s, Digit c := by simpa using h

theorem digits_split (s : List T) :
    ∃ ds rest, s = ds ++ rest ∧ (∀ c ∈ ds, Digit c) ∧ NoDigit rest := by
  induction s with
  | nil => exact ⟨[],[],rfl,by simp,noDigit_nil⟩
  | cons c cs ih =>
    by_cases h : Digit c
    · obtain ⟨ds,rest,rfl,hds,hrest⟩ := ih
      exact ⟨c::ds,rest,rfl,by simpa [h] using hds,hrest⟩
    · exact ⟨[],c::cs,rfl,by simp,(noDigit_cons c cs).mpr h⟩

theorem sign_mark (s : List T) : ∃ mark, s = mark ++ (sign s).2 ∧ Mark mark (sign s).1 := by
  cases s with
  | nil => exact ⟨[],rfl,.absent⟩
  | cons c cs =>
    simp only [sign]
    split_ifs with h45 h43
    · exact ⟨[c],rfl,.minus c h45⟩
    · exact ⟨[c],rfl,.plus c h43⟩
    · exact ⟨[],rfl,.absent⟩

theorem mark_sign (mark s : List T) (minus : Bool) (h : Mark mark minus)
    (hs : ∃ c cs, s = c::cs ∧ Digit c) : sign (mark ++ s) = (minus,s) := by
  obtain ⟨d,ds,rfl,hd⟩ := hs
  have hlo := hd.1
  cases h with
  | absent =>
    rw [List.nil_append, sign, if_neg (by omega), if_neg (by omega)]
  | plus c h => simp [sign, h]
  | minus c h => simp [sign, h]

theorem mark_not_space (mark s : List T) (minus : Bool) (h : Mark mark minus)
    (hs : ∃ c cs, s = c::cs ∧ Digit c) : (mark ++ s).dropWhile isSpace = mark ++ s := by
  obtain ⟨d,ds,rfl,hd⟩ := hs
  cases h with
  | absent => rw [List.nil_append, List.dropWhile_cons_of_neg (by simp [digit_not_space d hd])]
  | plus c h => rw [List.singleton_append, List.dropWhile_cons_of_neg (by simp [isSpace, h])]
  | minus c h => rw [List.singleton_append, List.dropWhile_cons_of_neg (by simp [isSpace, h])]

theorem decimal_head (s : List T) (v : ℕ) (h : Decimal s v) : ∃ c cs, s = c::cs ∧ Digit c := by
  obtain ⟨c,cs,rfl⟩ := List.exists_cons_of_ne_nil h.nonempty
  exact ⟨c,cs,rfl,h.digit c (by simp)⟩

/-- The scan takes a number off the front of the text, and all of its digits. -/
theorem scanNumber_iff (wrapped : Bool → ℕ → ℕ) (s rest : List T) (v : ℕ) :
    scanNumber wrapped s = some (v,rest) ↔
      ∃ front, s = front ++ rest ∧ ScannedAs wrapped front v ∧ NoDigit rest := by
  constructor
  · intro h
    obtain ⟨mark,hmark,hsign⟩ := sign_mark (s.dropWhile isSpace)
    have hs : s.takeWhile isSpace ++ s.dropWhile isSpace = s := List.takeWhile_append_dropWhile
    unfold scanNumber at h
    generalize sign (s.dropWhile isSpace) = r at h hmark hsign
    obtain ⟨minus,w⟩ := r
    obtain ⟨ds,tail,hw,hds,htail⟩ := digits_split w
    cases w with
    | nil => exact absurd h (by simp)
    | cons c cs =>
      by_cases hc : Digit c
      · simp only [decDigit_isSome, hc, if_true, hw, digits_append ds tail 0 hds htail,
          Option.some.injEq, Prod.mk.injEq] at h
        obtain ⟨rfl,rfl⟩ := h
        have hne : ds ≠ [] := by
          rintro rfl
          rw [List.nil_append] at hw
          exact (noDigit_cons c cs).mp (hw ▸ htail) hc
        refine ⟨s.takeWhile isSpace ++ mark ++ ds,?_,⟨_,mark,ds,minus,_,rfl,?_,hsign,
          ⟨hne,hds,rfl⟩,rfl⟩,htail⟩
        · rw [List.append_assoc, ← hw, List.append_assoc, ← hmark, hs]
        · exact fun c hc => List.mem_takeWhile_imp hc
      · simp [decDigit_isSome, hc] at h
  · rintro ⟨front,rfl,⟨blanks,mark,ds,minus,n,rfl,hblanks,hmark,hds,rfl⟩,hrest⟩
    have hhead : ∃ c cs, ds ++ rest = c::cs ∧ Digit c := by
      obtain ⟨c,cs,rfl,hc⟩ := decimal_head ds n hds
      exact ⟨c,cs ++ rest,rfl,hc⟩
    have hskip : (blanks ++ mark ++ ds ++ rest).dropWhile isSpace = mark ++ (ds ++ rest) := by
      rw [List.append_assoc, List.append_assoc, List.dropWhile_append_of_pos hblanks,
        mark_not_space mark _ minus hmark hhead]
    have hdigits := digits_append ds rest 0 hds.digit hrest
    unfold scanNumber
    rw [hskip, mark_sign mark _ minus hmark hhead]
    obtain ⟨c,cs,hc,hd⟩ := hhead
    rw [hc] at hdigits
    simp only [hc, decDigit_isSome, hd, if_true, hdigits, Option.some.injEq, Prod.mk.injEq,
      and_true]
    exact congrArg (wrapped minus) hds.value

theorem scanUint_iff (s rest : List T) (v : ℕ) :
    scanUint s = some (v,rest) ↔ ∃ front, s = front ++ rest ∧ Numeral front v ∧ NoDigit rest :=
  scanNumber_iff wrap s rest v

theorem scanfUint_iff (s rest : List T) (v : ℕ) : scanfUint s = some (v,rest) ↔
    ∃ front, s = front ++ rest ∧ HalfNumeral front v ∧ NoDigit rest :=
  scanNumber_iff wrapHalf s rest v

/-- The text in front of the character that ends it. -/
def upToNul (s : List T) : List T := s.takeWhile fun c => CharT.code c ≠ 0

theorem strToUint_iff (s : List T) (v : ℕ) :
    strToUint s = some v ↔ (upToNul s = [] ∧ v = 0) ∨ Numeral (upToNul s) v := by
  have hscan : ∀ w, scanUint (upToNul s) = some (w,[]) ↔ Numeral (upToNul s) w := by
    intro w
    rw [scanUint_iff]
    constructor
    · rintro ⟨front,h,hn,-⟩
      rwa [h, List.append_nil]
    · intro h
      exact ⟨_,(List.append_nil _).symm,h,noDigit_nil⟩
  rw [← hscan v]
  unfold strToUint upToNul
  dsimp only
  generalize s.takeWhile (fun c => decide (CharT.code c ≠ 0)) = z
  cases h : scanUint z with
  | none =>
    by_cases h0 : z = []
    · simp only [h0, if_true, Option.some.injEq, true_and, reduceCtorEq, or_false]
      exact eq_comm
    · simp [h0]
  | some r =>
    obtain ⟨w,rest⟩ := r
    have hne : z ≠ [] := by
      intro h0
      rw [h0] at h
      simp [scanUint, scanNumber, sign] at h
    cases rest with
    | nil => simp [hne]
    | cons c cs => simp [hne]

theorem decimal_scanned (wrapped : Bool → ℕ → ℕ) (s : List T) (n : ℕ) (h : Decimal s n) :
    ScannedAs wrapped s (wrapped false n) := ⟨[],[],s,false,n,rfl,by simp,.absent,h,rfl⟩

theorem decimal_numeral (s : List T) (v : ℕ) (h : Decimal s v) (hv : v ≤ 0xffffffff) :
    Numeral s v := by
  have hs := decimal_scanned wrap s v h
  rwa [wrap, if_neg (by omega)] at hs

theorem wrapHalf_small (v : ℕ) (hv : v < 2^32) : wrapHalf false v = v := by
  rw [wrapHalf, if_neg (by omega)]
  exact Nat.mod_eq_of_lt hv

theorem decimal_half (s : List T) (v : ℕ) (h : Decimal s v) (hv : v < 2^32) :
    HalfNumeral s v := by
  have hs := decimal_scanned wrapHalf s v h
  rwa [wrapHalf_small v hv] at hs

/-- Nothing but white space, a sign and digits. -/
theorem scanned_mem (wrapped : Bool → ℕ → ℕ) (s : List T) (v : ℕ) (h : ScannedAs wrapped s v)
    (c : T) (hc : c ∈ s) :
    isSpace c = true ∨ CharT.code c = 43 ∨ CharT.code c = 45 ∨ Digit c := by
  obtain ⟨blanks,mark,ds,minus,n,rfl,hblanks,hmark,hds,-⟩ := h
  simp only [List.mem_append] at hc
  rcases hc with (hc | hc) | hc
  · exact .inl (hblanks c hc)
  · cases hmark with
    | absent => simp at hc
    | plus d h => exact .inr (.inl (List.mem_singleton.mp hc ▸ h))
    | minus d h => exact .inr (.inr (.inl (List.mem_singleton.mp hc ▸ h)))
  · exact .inr (.inr (.inr (hds.digit c hc)))

theorem decimal_unique (s : List T) (v w : ℕ) (h : Decimal s v) (h' : Decimal s w) : v = w :=
  h.value.symm.trans h'.value

/-- A number without white space and sign is read from all of its digits. -/
theorem scanned_digits (wrapped : Bool → ℕ → ℕ) (s : List T) (v : ℕ) (h : ScannedAs wrapped s v)
    (hs : ∀ c ∈ s, Digit c) : ∃ n, Decimal s n ∧ v = wrapped false n := by
  obtain ⟨blanks,mark,ds,minus,n,rfl,hblanks,hmark,hds,rfl⟩ := h
  have hb : blanks = [] := by
    apply List.eq_nil_iff_forall_not_mem.mpr
    intro c hc
    have hspace := hblanks c hc
    rw [digit_not_space c (hs c (by simp [hc]))] at hspace
    exact absurd hspace (by simp)
  subst hb
  cases hmark with
  | absent => exact ⟨n,hds,rfl⟩
  | plus c h => exact absurd (hs c (by simp)).1 (by omega)
  | minus c h => exact absurd (hs c (by simp)).1 (by omega)

/-- A number without white space and sign is what its digits denote, as far as
it fits. -/
theorem numeral_digits (s : List T) (v : ℕ) (h : Numeral s v) (hs : ∀ c ∈ s, Digit c)
    (hv : v < 0xffffffff) : Decimal s v := by
  obtain ⟨n,hn,rfl⟩ := scanned_digits wrap s v h hs
  unfold wrap at hv ⊢
  split_ifs at hv ⊢ with hlarge hminus
  · omega
  · exact absurd hminus (by simp)
  · exact hn

theorem digits_upToNul (s : List T) (h : ∀ c ∈ s, Digit c) : upToNul s = s := by
  apply List.takeWhile_eq_self_iff.mpr
  intro c hc
  have hlo := (h c hc).1
  simp only [ne_eq, decide_eq_true_eq]
  omega

/-- A decimal number that fits is read as what it denotes. -/
theorem strToUint_decimal (s : List T) (v : ℕ) (h : Decimal s v) (hv : v ≤ 0xffffffff) :
    strToUint s = some v := by
  rw [strToUint_iff, digits_upToNul s h.digit]
  exact .inr (decimal_numeral s v h hv)

section Narrow

variable [LawfulCharT T]

theorem digit_toChar (c : T) (h : Digit c) : CharT.code (CharT.toChar c) = CharT.code c := by
  have hhi := h.2
  rw [LawfulCharT.toChar_code]
  exact UInt8.toNat_ofNat_of_lt' (Nat.lt_of_le_of_lt hhi (by decide))

theorem narrow_digits (s : List T) (h : ∀ c ∈ s, Digit c) :
    ∀ c ∈ s.map CharT.toChar, Digit c := by
  intro c hc
  obtain ⟨d,hd,rfl⟩ := List.mem_map.mp hc
  rw [Digit, digit_toChar d (h d hd)]
  exact h d hd

theorem decimal_narrow (s : List T) (v : ℕ) (h : Decimal s v) :
    Decimal (s.map CharT.toChar) v := by
  refine ⟨by simpa using h.nonempty,narrow_digits s h.digit,?_⟩
  rw [← h.value, decValue, decValue, List.foldl_map]
  refine List.foldl_ext _ _ _ fun v c hc => ?_
  rw [digit_toChar c (h.digit c hc)]

theorem narrow_decimal (s : List T) (v : ℕ) (hs : ∀ c ∈ s, Digit c)
    (h : Decimal (s.map CharT.toChar) v) : Decimal s v := by
  have hne : s ≠ [] := by simpa using h.nonempty
  have hs' := decimal_narrow s _ ⟨hne,hs,rfl⟩
  exact ⟨hne,hs,decimal_unique _ _ _ hs' h⟩

theorem decimal_wide (s : Bytes) (v : ℕ) (h : Decimal s v) : Decimal (strToTstr s : List T) v := by
  have hcode : ∀ c ∈ s, CharT.code (CharT.ofChar c : T) = CharT.code c := by
    intro c hc
    have hhi := (h.digit c hc).2
    exact LawfulCharT.code_ofChar c (Nat.lt_of_le_of_lt hhi (by decide))
  refine ⟨by simpa [strToTstr] using h.nonempty,?_,?_⟩
  · intro c hc
    obtain ⟨d,hd,rfl⟩ := List.mem_map.mp hc
    rw [Digit, hcode d hd]
    exact h.digit d hd
  · rw [← h.value, decValue, decValue, strToTstr, List.foldl_map]
    refine List.foldl_ext _ _ _ fun v c hc => ?_
    rw [hcode c hc]

end Narrow

/-! Numbers that are printed in decimal. -/

theorem digitChar_digit : ∀ d < 10, (UInt8.ofNat (Nat.digitChar d).toNat).toNat = 48+d := by
  decide

theorem decimal_digit (c : UInt8) (d : ℕ) (h : c.toNat = 48+d) (hd : d < 10) : Decimal [c] d := by
  have hc : CharT.code c = 48+d := h
  refine ⟨by simp,?_,?_⟩
  · intro x hx
    obtain rfl := List.mem_singleton.mp hx
    exact ⟨by omega,by omega⟩
  · simp only [decValue, List.foldl_cons, List.foldl_nil]
    omega

theorem decimal_snoc (s : Bytes) (c : UInt8) (v d : ℕ) (h : Decimal s v) (hc : c.toNat = 48+d)
    (hd : d < 10) : Decimal (s ++ [c]) (v*10+d) := by
  have hlast := decimal_digit c d hc hd
  refine ⟨by simp,?_,?_⟩
  · intro x hx
    rcases List.mem_append.mp hx with hx | hx
    · exact h.digit x hx
    · exact hlast.digit x hx
  · have hcode : CharT.code c = 48+d := hc
    rw [decValue, List.foldl_append, ← decValue, h.value]
    simp only [List.foldl_cons, List.foldl_nil]
    omega

theorem strFromUint_decimal (v : ℕ) : Decimal (strFromUint v) v := by
  induction v using Nat.strong_induction_on with
  | _ v ih =>
    unfold strFromUint
    rw [Nat.toDigits_eq_if (by decide)]
    split_ifs with h
    · exact decimal_digit _ v (digitChar_digit v h) h
    · have hlt : v % 10 < 10 := Nat.mod_lt _ (by decide)
      have hstep := decimal_snoc _ _ _ _ (ih (v / 10) (by omega)) (digitChar_digit _ hlt) hlt
      rw [Nat.div_add_mod' v 10] at hstep
      rw [List.map_append]
      exact hstep

theorem strFromUint_length (v k : ℕ) (hk : 0 < k) (h : v < 10^k) : (strFromUint v).length ≤ k := by
  rw [strFromUint, List.length_map]
  exact (Nat.length_toDigits_le_iff (by decide) hk).mpr h

end ProxySwiss.Text
