import ProxySwiss.Text
import ProxySwiss.Loop

/-!
# Addresses from text

The loop over the characters of an IPv6 address is an automaton of five states,
run for a bounded number of rounds: `none` says that they were not enough. Some
rounds take a character, some only change the state, and the round at the end of
a scope identifier does neither.
-/

set_option autoImplicit false

namespace ProxySwiss.InetPton
open Memory Text

inductive State where
  | fword
  | fcolon
  | bword
  | scope
  | done
  deriving DecidableEq, Repr

/-- `p` is the text from the pointer on; `front` and `back` are the two arrays
up to the numbers of their octets. -/
structure Scan where
  state : State := .fword
  p : Bytes
  currentWord : ℕ := 0
  front : Bytes := []
  back : Bytes := []
  deriving DecidableEq, Repr

abbrev Round := Scan ⊕ Option (Buffer 16)

def hexDigit (c : UInt8) : Option ℕ :=
  if 48 ≤ c.toNat ∧ c.toNat ≤ 57 then some (c.toNat-48)
  else if 97 ≤ c.toNat ∧ c.toNat ≤ 102 then some (c.toNat-97+10)
  else if 65 ≤ c.toNat ∧ c.toNat ≤ 70 then some (c.toNat-65+10)
  else none

def wordBytes (s : Scan) : Bytes := [UInt8.ofNat (s.currentWord / 256),UInt8.ofNat s.currentWord]

def pushFront (s : Scan) : Option Scan :=
  if s.front.length = 16 then none
  else some { s with front := s.front ++ wordBytes s, currentWord := 0 }

def pushBack (s : Scan) : Option Scan :=
  if s.front.length+s.back.length = 16 then none
  else some { s with back := s.back ++ wordBytes s, currentWord := 0 }

/-- A round in a word: `push` stores it, and `colon` is the state behind a colon. -/
def word (push : Scan → Option Scan) (colon : State) (s : Scan) : Round :=
  match s.p with
  | [] => match push s with
    | none => .inr none
    | some s => .inl { s with state := .done }
  | c::p => match hexDigit c with
    | some d => .inl { s with currentWord := s.currentWord*16+d, p := p }
    | none => match push s with
      | none => .inr none
      | some s =>
        if c = 0x3a then .inl { s with state := colon, p := p }
        else if c = 0x25 then .inl { s with state := .scope, p := p }
        else .inr none

def result (s : Scan) : Buffer 16 :=
  ((default : Buffer 16).fill s.front).fillAt (16-s.back.length) s.back

def round (s : Scan) : Round :=
  if s.state = .done then .inr (some (result s))
  else if s.currentWord > 0xffff then .inr none
  else match s.state with
  | .fword => word pushFront .fcolon s
  | .fcolon => match s.p with
    | c::p => if c = 0x3a then .inl { s with state := .bword, p := p }
      else .inl { s with state := .fword }
    | [] => .inl { s with state := .fword }
  | .bword => word pushBack .bword s
  | .scope => match s.p with
    | c::p => match decDigit c with
      | some d => .inl { s with currentWord := s.currentWord*10+d, p := p }
      | none => .inr none
    -- at the end of the text neither the state nor the pointer changes
    | [] => .inl s
  | .done => .inl s

def inetPton6 (fuel : ℕ) (src : Bytes) : Option (Option (Buffer 16)) :=
  Loop.eval round fuel { p := cstr src }

def dot (s : Bytes) : Option Bytes :=
  match s with
  | c::cs => if c = 0x2e then some cs else none
  | [] => none

/-- The four numbers that the format asks for; what follows them is ignored. -/
def inetPton4 (src : Bytes) : Option UInt32 := do
  let (b0,s) ← scanfUint (cstr src)
  let (b1,s) ← scanfUint (← dot s)
  let (b2,s) ← scanfUint (← dot s)
  let (b3,_) ← scanfUint (← dot s)
  if b0 > 255 ∨ b1 > 255 ∨ b2 > 255 ∨ b3 > 255 then none
  else some (ofLe32 (UInt8.ofNat b0) (UInt8.ofNat b1) (UInt8.ofNat b2) (UInt8.ofNat b3))

inductive IpAddress where
  | v4 (addr : UInt32)
  | v6 (bytes : Buffer 16)
  deriving DecidableEq

inductive Family where
  | inet
  | inet6
  deriving DecidableEq, Repr

def inetPton (fuel : ℕ) (af : Family) (src : Bytes) : Option (Option IpAddress) :=
  match af with
  | .inet => some ((inetPton4 src).map .v4)
  | .inet6 => (inetPton6 fuel src).map fun r => r.map .v6

def inetPtonWide (fuel : ℕ) (af : Family) (src : List UInt16) : Option (Option IpAddress) :=
  inetPton fuel af ((src.takeWhile (· ≠ 0)).map wcharToChar)

/-! The three members of `ip_address`: they work on wide strings, and a narrow
string is made wide before. -/

section FromString

variable {T : Type} [CharT T]

def fromStringIpv4 (fuel : ℕ) (str : List T) : Option (Option IpAddress) :=
  inetPtonWide fuel .inet (str.map CharT.toWide)

/-- The loop would take the empty text for an address. -/
def fromStringIpv6 (fuel : ℕ) (str : List T) : Option (Option IpAddress) :=
  if str = [] then some none else inetPtonWide fuel .inet6 (str.map CharT.toWide)

def fromString (fuel : ℕ) (str : List T) : Option (Option IpAddress) :=
  match fromStringIpv4 fuel str with
  | some none => fromStringIpv6 fuel str
  | r => r

end FromString

end ProxySwiss.InetPton
