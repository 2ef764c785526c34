import ProxySwiss.Numerals
import Mathlib.Data.Nat.Digits.Defs

/-!
# Unsigned numbers and their texts

The two conversions of `str.h` with their radix. One prints a number as if it
were signed, or in decimal whatever the radix is; the other takes white space, a
sign and the letters of a hexadecimal number. They agree with the decimal
conversions that the rest of the program is described with.
-/

set_option autoImplicit false

namespace ProxySwiss.UintText
open Memory Text

/-- The value of 32 bits in two's complement. -/
def signed (v : UInt32) : ℤ := if v.toNat < 2^31 then v.toNat else v.toNat-2^32

/-- What `%d` makes of an integer. -/
def formatD : ℤ → Bytes
  | .ofNat n => Text.strFromUint n
  | .negSucc n => 0x2d::Text.strFromUint (n+1)

/-- What `%I64u` makes of an unsigned number. -/
def formatI64u (v : UInt32) : Bytes := Text.strFromUint v.toNat

/-- There is no text for any other radix; the buffer that is printed to holds every number. -/
def strFromUint (v : UInt32) (radix : ℕ) : Option Bytes :=
  if radix = 10 then some (formatD (signed v))
  else if radix = 16 then some (formatI64u v)
  else none

section Reading

variable {T : Type} [CharT T]

def letterValue (c : T) : Option ℕ :=
  if 48 ≤ CharT.code c ∧ CharT.code c ≤ 57 then some (CharT.code c-48)
  else if 97 ≤ CharT.code c ∧ CharT.code c ≤ 122 then some (CharT.code c-97+10)
  else if 65 ≤ CharT.code c ∧ CharT.code c ≤ 90 then some (CharT.code c-65+10)
  else none

def digit (radix : ℕ) (c : T) : Option ℕ := (letterValue c).filter (· < radix)

def digits (radix : ℕ) : List T → ℕ → ℕ × List T
  | [], v => (v,[])
  | c::cs, v => match digit radix c with
    | some d => digits radix cs (v*radix+d)
    | none => (v,c::cs)

/-- A hexadecimal number may begin with "0x" if a digit follows. -/
def skip0x (radix : ℕ) (s : List T) : List T :=
  match s with
  | z::x::c::cs =>
    if radix = 16 ∧ CharT.code z = 48 ∧ (CharT.code x = 120 ∨ CharT.code x = 88) ∧
      (digit radix c).isSome then c::cs else s
  | _ => s

/-- The number and what follows it. -/
def strtoul (radix : ℕ) (s : List T) : Option (ℕ × List T) :=
  let (minus,s) := sign (s.dropWhile isSpace)
  match skip0x radix s with
  | c::cs =>
    if (digit radix c).isSome then
      let (v,rest) := digits radix (c::cs) 0
      some (wrap minus v,rest)
    else none
  | [] => none

/-- The whole text has to be taken. Where there is no number nothing is taken, and the
number is zero. -/
def strToUint (radix : ℕ) (s : List T) : Option UInt32 :=
  let s := s.takeWhile fun c => CharT.code c ≠ 0
  match strtoul radix s with
  | some (v,[]) => some (UInt32.ofNat v)
  | some (_,_::_) => none
  | none => if s = [] then some 0 else none

theorem digit_ten (c : T) : digit 10 c = decDigit c := by
  unfold digit letterValue decDigit
  split_ifs with h1 h2 h3
  · exact Option.filter_some_pos (by simp; omega)
  · exact Option.filter_some_neg (by simp)
  · exact Option.filter_some_neg (by simp)
  · rfl

theorem digits_ten (s : List T) (v : ℕ) : digits 10 s v = Text.digits s v := by
  induction s generalizing v with
  | nil => rfl
  | cons c cs ih =>
    rw [digits, Text.digits, digit_ten]
    cases decDigit c with
    | none => rfl
    | some d => exact ih _

theorem skip0x_ten (s : List T) : skip0x 10 s = s := by
  unfold skip0x
  split
  · exact if_neg (by simp)
  · rfl

/-- In decimal the numbers are read as in the rest of the program. -/
theorem strToUint_ten (s : List T) :
    strToUint 10 s = (Text.strToUint s).map UInt32.ofNat := by
  have hscan : ∀ s : List T, strtoul 10 s = scanUint s := by
    intro s
    unfold strtoul scanUint scanNumber
    generalize sign (s.dropWhile isSpace) = r
    obtain ⟨minus,w⟩ := r
    dsimp only
    rw [skip0x_ten]
    cases w with
    | nil => rfl
    | cons c cs =>
      dsimp only
      rw [digit_ten, digits_ten]
  unfold strToUint Text.strToUint
  dsimp only
  rw [hscan]
  cases scanUint (s.takeWhile fun c => decide (CharT.code c ≠ 0)) with
  | none =>
    dsimp only
    split_ifs <;> rfl
  | some r =>
    obtain ⟨v,rest⟩ := r
    cases rest with
    | nil => rfl
    | cons c cs => rfl

end Reading

/-! Digits of one radix that are read in another. -/

def digitText (radix v : ℕ) : Bytes :=
  (Nat.toDigits radix v).map fun c => UInt8.ofNat c.toNat

def reread (radix base v : ℕ) : ℕ := Nat.ofDigits base (Nat.digits radix v)

theorem reread_same (radix v : ℕ) : reread radix radix v = v := Nat.ofDigits_digits radix v

theorem reread_step (radix base v : ℕ) (hr : 1 < radix) :
    reread radix base v = reread radix base (v/radix)*base+v % radix := by
  unfold reread
  rcases Nat.eq_zero_or_pos v with rfl | hv
  · simp
  · rw [Nat.digits_def' hr hv, Nat.ofDigits_cons, Nat.mul_comm, Nat.add_comm]

theorem le_reread (radix base v : ℕ) (hb : radix ≤ base) : v ≤ reread radix base v := by
  have hmono := Nat.ofDigits_monotone (Nat.digits radix v) hb
  rwa [Nat.ofDigits_digits] at hmono

/-- More than one digit denotes a larger number in a larger radix. -/
theorem reread_eq_iff (radix base v : ℕ) (hr : 1 < radix) (hb : radix < base) :
    reread radix base v = v ↔ v < radix := by
  rw [reread_step radix base v hr]
  have hdiv := Nat.div_add_mod' v radix
  constructor
  · intro h
    by_contra hv
    have hpos : 0 < v/radix := Nat.div_pos (by omega) (by omega)
    have hle := le_reread radix base (v/radix) (Nat.le_of_lt hb)
    have hlt : v/radix*radix < reread radix base (v/radix)*base := by
      calc v/radix*radix < v/radix*base := Nat.mul_lt_mul_of_pos_left hb hpos
        _ ≤ reread radix base (v/radix)*base := Nat.mul_le_mul_right base hle
    omega
  · intro hv
    rw [Nat.div_eq_of_lt hv, Nat.mod_eq_of_lt hv]
    simp [reread]

theorem digit_digitChar : ∀ d < 16, ∀ base ≤ 16, d < base →
    digit base (UInt8.ofNat (Nat.digitChar d).toNat) = some d := by
  decide

theorem digits_snoc (base : ℕ) (s : Bytes) (c : UInt8) (u v d : ℕ)
    (hs : digits base s u = (v,[])) (hc : digit base c = some d) :
    digits base (s ++ [c]) u = (v*base+d,[]) := by
  induction s generalizing u with
  | nil =>
    have hu : u = v := congrArg Prod.fst hs
    simp only [List.nil_append, digits, hc, hu]
  | cons x xs ih =>
    rw [digits] at hs
    rw [List.cons_append, digits]
    cases hx : digit base x with
    | none =>
      rw [hx] at hs
      exact absurd (congrArg Prod.snd hs) (by simp)
    | some y =>
      rw [hx] at hs
      exact ih _ hs

theorem digits_digitText (radix base v : ℕ) (hr : 1 < radix) (hb : radix ≤ base)
    (h16 : base ≤ 16) : digits base (digitText radix v) 0 = (reread radix base v,[]) := by
  induction v using Nat.strong_induction_on with
  | _ v ih =>
    unfold digitText
    rw [Nat.toDigits_eq_if hr, reread_step radix base v hr]
    have hmod := Nat.mod_lt v (by omega : 0 < radix)
    split_ifs with h
    · rw [Nat.div_eq_of_lt h, Nat.mod_eq_of_lt h]
      rw [List.map_singleton, digits, digit_digitChar v (by omega) base h16 (by omega)]
      simp [digits, reread]
    · have hlt : v/radix < v := Nat.div_lt_self (by omega) hr
      rw [List.map_append]
      exact digits_snoc base _ _ 0 _ _ (ih _ hlt)
        (digit_digitChar _ (by omega) base h16 (by omega))

/-! Texts that are printed, and the numbers that are read from them. -/

theorem skip0x_digits (radix : ℕ) (s : Bytes) (hs : ∀ c ∈ s, Digit c) : skip0x radix s = s := by
  unfold skip0x
  split
  · rename_i z x c cs
    refine if_neg ?_
    rintro ⟨-,-,hx,-⟩
    have hhi := (hs x (by simp)).2
    omega
  · rfl

/-- A text of digits alone is read as far as it goes. -/
theorem strToUint_digits (radix w : ℕ) (s : Bytes) (hs : ∀ c ∈ s, Digit c) (hne : s ≠ [])
    (hr : 10 ≤ radix) (hread : digits radix s 0 = (w,[])) :
    strToUint radix s = some (UInt32.ofNat (wrap false w)) := by
  obtain ⟨c,cs,rfl⟩ := List.exists_cons_of_ne_nil hne
  have hc := hs c (by simp)
  have hall : (c::cs).takeWhile (fun c => decide (CharT.code c ≠ 0)) = c::cs :=
    digits_upToNul _ hs
  have hskip : (c::cs).dropWhile isSpace = c::cs :=
    mark_not_space [] (c::cs) false .absent ⟨c,cs,rfl,hc⟩
  have hsign : sign (c::cs) = (false,c::cs) := mark_sign [] (c::cs) false .absent ⟨c,cs,rfl,hc⟩
  have hdigit : (digit radix c).isSome = true := by
    have hlo := hc.1
    have hhi := hc.2
    rw [digit, letterValue, if_pos ⟨hlo,hhi⟩, Option.filter_some_pos (by simp; omega)]
    rfl
  have hstrtoul : strtoul radix (c::cs) = some (wrap false w,[]) := by
    unfold strtoul
    rw [hskip, hsign]
    dsimp only
    rw [skip0x_digits radix _ hs]
    dsimp only
    rw [if_pos hdigit, hread]
  unfold strToUint
  rw [hall]
  dsimp only
  rw [hstrtoul]

theorem strFromUint_ten (v : UInt32) :
    strFromUint v 10 = some (if v.toNat < 2^31 then Text.strFromUint v.toNat
      else 0x2d::Text.strFromUint (2^32-v.toNat)) := by
  have hv := v.toNat_lt
  rw [strFromUint, if_pos rfl, signed]
  split_ifs with h
  · rfl
  · obtain ⟨n,hn⟩ : ∃ n, v.toNat+(n+1) = 2^32 := ⟨2^32-v.toNat-1,by omega⟩
    have hneg : (v.toNat : ℤ)-2^32 = Int.negSucc n := by omega
    rw [hneg, formatD, ← hn, Nat.add_sub_cancel_left]

/-- In decimal every number is read back, also one that was printed with a sign. -/
theorem strToUint_strFromUint_ten (v : UInt32) :
    (strFromUint v 10).bind (strToUint 10) = some v := by
  have hv := v.toNat_lt
  have hread : ∀ s : Bytes, Text.strToUint s = some v.toNat → strToUint 10 s = some v := by
    intro s hs
    rw [strToUint_ten, hs, Option.map_some, UInt32.ofNat_toNat]
  rw [strFromUint_ten, Option.bind_some]
  apply hread
  split_ifs with h
  · exact strToUint_decimal _ _ (strFromUint_decimal _) (by omega)
  · have hdec := strFromUint_decimal (2^32-v.toNat)
    have hall : upToNul (0x2d::Text.strFromUint (2^32-v.toNat)) =
        0x2d::Text.strFromUint (2^32-v.toNat) := by
      rw [upToNul, List.takeWhile_cons_of_pos (by decide)]
      exact congrArg _ (digits_upToNul _ hdec.digit)
    refine (strToUint_iff _ _).mpr (.inr ⟨[],[0x2d],_,true,_,hall,by simp,.minus _ rfl,hdec,?_⟩)
    rw [wrap, if_neg (by omega), if_pos rfl]
    omega

/-- A number printed in decimal and read as a hexadecimal one. -/
theorem strToUint_strFromUint_sixteen (v : UInt32) :
    (strFromUint v 16).bind (strToUint 16) = some v ↔ v.toNat < 10 ∨ v = 0xffffffff := by
  have hdec := strFromUint_decimal v.toNat
  have hread := strToUint_digits 16 _ (Text.strFromUint v.toNat) hdec.digit hdec.nonempty
    (by decide) (digits_digitText 10 16 v.toNat (by decide) (by decide) (by decide))
  have hbind : (strFromUint v 16).bind (strToUint 16) =
      some (UInt32.ofNat (wrap false (reread 10 16 v.toNat))) := by
    rw [strFromUint, if_neg (by decide), if_pos rfl, Option.bind_some]
    exact hread
  have hle := le_reread 10 16 v.toNat (by decide)
  have hiff := reread_eq_iff 10 16 v.toNat (by decide) (by decide)
  have hv := v.toNat_lt
  rw [hbind, Option.some.injEq, ← UInt32.toNat_inj, ← UInt32.toNat_inj, UInt32.toNat_ofNat', wrap]
  change _ ↔ v.toNat < 10 ∨ v.toNat = 4294967295
  simp only [Bool.false_eq_true, if_false]
  split_ifs with h
  · omega
  · rw [Nat.mod_eq_of_lt (by omega)]
    omega

def lower (c : UInt8) : UInt8 := if 65 ≤ c.toNat ∧ c.toNat ≤ 90 then c+32 else c

/-- The digits of a number, without a sign; letters may be of either case. -/
def Usual (radix v : ℕ) (text : Bytes) : Prop := text.map lower = digitText radix v

/-- What the two conversions promise: the usual text, and the number read back from it. -/
def Converts (v : UInt32) (radix : ℕ) : Prop :=
  ∃ text, strFromUint v radix = some text ∧ Usual radix v.toNat text ∧
    strToUint radix text = some v

theorem lower_digits (s : Bytes) (hs : ∀ c ∈ s, Digit c) : s.map lower = s := by
  refine (List.map_congr_left fun c hc => ?_).trans (List.map_id s)
  have hhi : c.toNat ≤ 57 := (hs c hc).2
  exact if_neg (by omega)

theorem converts_iff (v : UInt32) (radix : ℕ) (text : Bytes)
    (h : strFromUint v radix = some text) :
    Converts v radix ↔ Usual radix v.toNat text ∧ strToUint radix text = some v := by
  constructor
  · rintro ⟨t,ht,hconv⟩
    obtain rfl := Option.some.inj (h.symm.trans ht)
    exact hconv
  · exact fun hconv => ⟨text,h,hconv⟩

theorem converts_ten (v : UInt32) : Converts v 10 ↔ v.toNat < 2^31 := by
  have hread := strToUint_strFromUint_ten v
  rw [strFromUint_ten, Option.bind_some] at hread
  rw [converts_iff v 10 _ (strFromUint_ten v)]
  split_ifs at hread ⊢ with h
  · have husual : Usual 10 v.toNat (Text.strFromUint v.toNat) :=
      lower_digits _ (strFromUint_decimal v.toNat).digit
    exact iff_of_true ⟨husual,hread⟩ h
  · refine iff_of_false ?_ h
    rintro ⟨husual,-⟩
    -- a minus sign is not one of the digits
    have hmem : (0x2d : UInt8) ∈ Text.strFromUint v.toNat := by
      change (0x2d : UInt8) ∈ digitText 10 v.toNat
      rw [← husual]
      exact List.mem_cons_self
    exact absurd ((strFromUint_decimal v.toNat).digit _ hmem) (by decide)

theorem converts_sixteen (v : UInt32) : Converts v 16 ↔ v.toNat < 10 := by
  have hprint : strFromUint v 16 = some (Text.strFromUint v.toNat) := rfl
  have hread := strToUint_strFromUint_sixteen v
  rw [hprint, Option.bind_some] at hread
  rw [converts_iff v 16 _ hprint, hread, Usual,
    lower_digits _ (strFromUint_decimal v.toNat).digit]
  change digitText 10 v.toNat = digitText 16 v.toNat ∧ _ ↔ _
  constructor
  · rintro ⟨htext,-⟩
    have hdec := digits_digitText 10 16 v.toNat (by decide) (by decide) (by decide)
    have hhex := digits_digitText 16 16 v.toNat (by decide) (by decide) (by decide)
    rw [htext, hhex, reread_same] at hdec
    exact (reread_eq_iff 10 16 v.toNat (by decide) (by decide)).mp (congrArg Prod.fst hdec).symm
  · intro h
    refine ⟨?_,.inl h⟩
    rw [digitText, digitText, Nat.toDigits_of_lt_base h, Nat.toDigits_of_lt_base (by omega)]

/-- Decimal numbers below 2^31 are converted as promised, and hexadecimal ones of one decimal
digit. -/
theorem uint_text_law (v : UInt32) (radix : ℕ) :
    Converts v radix ↔ (radix = 10 ∧ v.toNat < 2^31) ∨ (radix = 16 ∧ v.toNat < 10) := by
  by_cases h10 : radix = 10
  · subst h10
    rw [converts_ten]
    simp
  · by_cases h16 : radix = 16
    · subst h16
      rw [converts_sixteen]
      simp
    · simp [Converts, strFromUint, h10, h16]

/-- A sign is printed from 2^31 on, and ten is printed in decimal and read as sixteen. -/
theorem uint_text_wrong :
    (strFromUint 0x80000000 10 = some (ascii "-2147483648") ∧ ¬ Converts 0x80000000 10) ∧
    strFromUint 10 16 = some (ascii "10") ∧ strToUint 16 (ascii "10") = some 16 ∧
      ¬ Converts 10 16 := by
  have hsigned : strFromUint 0x80000000 10 = some (ascii "-2147483648") := by decide +kernel
  have hten : strFromUint 10 16 = some (ascii "10") := by decide +kernel
  have hread : strToUint 16 (ascii "10") = some 16 := by decide +kernel
  refine ⟨⟨hsigned,?_⟩,hten,hread,?_⟩
  · rw [converts_iff _ _ _ hsigned, Usual]
    decide +kernel
  · rw [converts_iff _ _ _ hten, hread]
    rintro ⟨-,h⟩
    exact absurd h (by decide)

end ProxySwiss.UintText
