import ProxySwiss.Memory

/-!
# Strings of narrow and wide characters

The parsers are templates over the type of a character. A narrow character is
an octet, a wide one has sixteen bits; a narrow character is made wide with its
sign, and a wide one narrow by its low octet.
-/

set_option autoImplicit false

namespace ProxySwiss
open Memory

namespace Text

def charToWchar (c : UInt8) : UInt16 :=
  if c.toNat < 128 then UInt16.ofNat c.toNat else UInt16.ofNat (0xff00+c.toNat)

def wcharToChar (c : UInt16) : UInt8 := UInt8.ofNat (c.toNat % 256)

theorem wcharToChar_charToWchar (c : UInt8) : wcharToChar (charToWchar c) = c := by
  have hc := c.toNat_lt
  unfold wcharToChar charToWchar
  apply UInt8.toNat_inj.mp
  split_ifs
  · simp
  · simp
    omega

end Text

open Text in
class CharT (T : Type) where
  decEq : DecidableEq T
  ofChar : UInt8 → T
  toChar : T → UInt8
  toWide : T → UInt16
  code : T → ℕ
  toChar_ofChar : ∀ c, toChar (ofChar c) = c
  toChar_toWide : ∀ c, wcharToChar (toWide c) = toChar c

namespace Text

instance (T : Type) [CharT T] : DecidableEq T := CharT.decEq

instance : CharT UInt8 where
  decEq := inferInstance
  ofChar c := c
  toChar c := c
  toWide := charToWchar
  code := UInt8.toNat
  toChar_ofChar _ := rfl
  toChar_toWide := wcharToChar_charToWchar

instance : CharT UInt16 where
  decEq := inferInstance
  ofChar := charToWchar
  toChar := wcharToChar
  toWide c := c
  code := UInt16.toNat
  toChar_ofChar := wcharToChar_charToWchar
  toChar_toWide _ := rfl

def strFromUint (v : ℕ) : Bytes := (Nat.toDigits 10 v).map fun c => UInt8.ofNat c.toNat

def ascii (s : String) : Bytes := s.toList.map fun c => UInt8.ofNat c.toNat

variable {T : Type} [CharT T]

/-- The text before the character that ends it. -/
def cstr (s : Bytes) : Bytes := s.takeWhile (· ≠ 0)

def strToTstr (s : Bytes) : List T := s.map CharT.ofChar

def find (needle s : List T) (pos : ℕ) : Option ℕ :=
  (List.range' pos (s.length+1-pos)).find? fun i => needle.isPrefixOf (s.drop i)

def substr (s : List T) (pos len : ℕ) : List T := (s.drop pos).take len

/-- The character at the length of a string is the one that ends it. -/
def charAt (s : List T) (i : ℕ) : T := s.getD i (CharT.ofChar 0)

def isSpace (c : T) : Bool := CharT.code c = 32 || (9 ≤ CharT.code c && CharT.code c ≤ 13)

def decDigit (c : T) : Option ℕ :=
  if 48 ≤ CharT.code c ∧ CharT.code c ≤ 57 then some (CharT.code c-48) else none

def digits : List T → ℕ → ℕ × List T
  | [], v => (v,[])
  | c::cs, v => match decDigit c with
    | some d => digits cs (v*10+d)
    | none => (v,c::cs)

def sign : List T → Bool × List T
  | [] => (false,[])
  | c::cs =>
    if CharT.code c = 45 then (true,cs)
    else if CharT.code c = 43 then (false,cs)
    else (false,c::cs)

/-- What does not fit is the largest number, whatever its sign. -/
def wrap (minus : Bool) (v : ℕ) : ℕ :=
  if v > 0xffffffff then 0xffffffff else if minus then (2^32-v) % 2^32 else v

/-- What `%u` stores. The C standard leaves it open for a number that does not fit
in 32 bits: here a number of 64 bits is read, and its lower half is stored. -/
def wrapHalf (minus : Bool) (v : ℕ) : ℕ :=
  (if v > 2^64-1 then 2^64-1 else if minus then 2^64-v else v) % 2^32

/-- A number behind white space and a sign, and what follows it. -/
def scanNumber (wrapped : Bool → ℕ → ℕ) (s : List T) : Option (ℕ × List T) :=
  let (minus,s) := sign (s.dropWhile isSpace)
  match s with
  | c::cs =>
    if (decDigit c).isSome then
      let (v,rest) := digits (c::cs) 0
      some (wrapped minus v,rest)
    else none
  | [] => none

def scanUint (s : List T) : Option (ℕ × List T) := scanNumber wrap s

/-- One `%u` of the format. -/
def scanfUint (s : List T) : Option (ℕ × List T) := scanNumber wrapHalf s

/-- The whole text has to be a number, or nothing. -/
def strToUint (s : List T) : Option ℕ :=
  let s := s.takeWhile fun c => CharT.code c ≠ 0
  match scanUint s with
  | some (v,[]) => some v
  | some (_,_::_) => none
  | none => if s = [] then some 0 else none

/-- Parts between the occurrences of a delimiter; `cur` is the part that has been
read so far, and `skip` what remains of an occurrence. -/
def splitFrom (delim : List T) : ℕ → List T → List T → List (List T)
  | _, cur, [] => [cur]
  | 0, cur, c::cs =>
    if delim.isPrefixOf (c::cs) then cur::splitFrom delim (delim.length-1) [] cs
    else splitFrom delim 0 (cur ++ [c]) cs
  | skip+1, cur, _::cs => splitFrom delim skip cur cs

def strSplit (subject delim : List T) : List (List T) := splitFrom delim 0 [] subject

end Text

end ProxySwiss
