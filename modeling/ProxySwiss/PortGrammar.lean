import ProxySwiss.UrlParts
import ProxySwiss.Numerals

/-!
# The port behind a host

The port is the whole text behind the colon as the scanning routine of the
library takes it: nothing at all, white space and a sign, and whatever stands
behind a character that ends the text. Numbers without these are taken exactly
as the grammar has it.
-/

set_option autoImplicit false

namespace ProxySwiss.PortGrammar
open Memory Text InetPton UrlParser

variable {T : Type} [CharT T]

/-- The port that a text denotes by its grammar. -/
def PortText (t : List T) (port : UInt16) : Prop := Decimal t port.toNat

/-- What is promised of a host with `t` behind its colon. -/
structure Strict (h t : List T) : Prop where
  accepted : ∀ fuel, (∃ up, parse fuel (h ++ tchar ':'::t) = some (some up)) ↔
    ∃ port, PortText t port
  port : ∀ fuel up port, parse fuel (h ++ tchar ':'::t) = some (some up) → PortText t port →
    up.port = some port

/-- A text that the scanning routine takes for a port. -/
def TakenPort (t : List T) : Prop :=
  upToNul t = [] ∨ ∃ v, v ≤ 0xffff ∧ Numeral (upToNul t) v

def NotDigits (t : List T) : Prop := t = [] ∨ ∃ c ∈ t, ¬ Digit c

instance (t : List T) : Decidable (NotDigits t) :=
  inferInstanceAs (Decidable (t = [] ∨ ∃ c ∈ t, ¬ Digit c))

/-- A text that is taken for a port and is not only digits. -/
def Loose (t : List T) : Prop := TakenPort t ∧ NotDigits t

theorem portText_iff (t : List T) :
    (∃ port, PortText t port) ↔ ∃ v, v ≤ 0xffff ∧ Decimal t v := by
  constructor
  · rintro ⟨port,h⟩
    have hlt := port.toNat_lt
    exact ⟨port.toNat,by omega,h⟩
  · rintro ⟨v,hv,h⟩
    refine ⟨UInt16.ofNat v,?_⟩
    rw [PortText, UInt16.toNat_ofNat_of_lt' (show v < UInt16.size by
      simp only [UInt16.size]
      omega)]
    exact h

/-- Only the port decides whether the text is accepted. -/
theorem parse_port (fuel : ℕ) (h t : List T) (hh : PlainHost h) (hslash : tchar '/' ∉ t)
    (hat : tchar '@' ∉ t) : parse fuel (h ++ tchar ':'::t) =
      some ((strToUint t).bind fun v => if v > 0xffff then none
        else some ⟨none,none,none,namedHost h,some (UInt16.ofNat v),[]⟩) := by
  have hurl : tchar '/' ∉ h ++ tchar ':'::t := by
    simp [hh.slash, hslash, slash_ne_colon]
  have huser : tchar '@' ∉ h ++ tchar ':'::t := by
    simp [hh.userinfo, hat, tchar_ne '@' ':' (by decide)]
  have hport : portPart (tchar ':'::t) = (strToUint t).bind fun v =>
      if v > 0xffff then none else some (some (UInt16.ofNat v),[]) := by
    rw [← port_written t [] hslash (.inl rfl), List.append_nil]
  rw [parse_parts, parseParts, scheme_absent _ (no_scheme _ hurl)]
  simp only [userinfo_absent _ huser, host_written fuel h _ hh (.inr (.inl ⟨t,rfl⟩)),
    Option.map_some, Option.bind_some, hport]
  cases strToUint t with
  | none => rfl
  | some v =>
    simp only [Option.bind_some]
    split_ifs <;> rfl

theorem accepted_iff (fuel : ℕ) (h t : List T) (hh : PlainHost h) (hslash : tchar '/' ∉ t)
    (hat : tchar '@' ∉ t) : (∃ up, parse fuel (h ++ tchar ':'::t) = some (some up)) ↔
      ∃ v, v ≤ 0xffff ∧ strToUint t = some v := by
  rw [parse_port fuel h t hh hslash hat]
  cases strToUint t with
  | none => simp
  | some v =>
    by_cases hv : v ≤ 0xffff
    · simp [hv]
    · simp [hv, Nat.lt_of_not_le hv]

theorem takenPort_iff (t : List T) :
    (∃ v, v ≤ 0xffff ∧ strToUint t = some v) ↔ TakenPort t := by
  constructor
  · rintro ⟨v,hv,h⟩
    rcases (strToUint_iff t v).mp h with ⟨h0,-⟩ | hn
    · exact .inl h0
    · exact .inr ⟨v,hv,hn⟩
  · rintro (h0 | ⟨v,hv,hn⟩)
    · exact ⟨0,by decide,(strToUint_iff t 0).mpr (.inl ⟨h0,rfl⟩)⟩
    · exact ⟨v,hv,(strToUint_iff t v).mpr (.inr hn)⟩

/-- What is taken for a port and is only digits is the port that it denotes. -/
theorem digits_decimal (t : List T) (v : ℕ) (hd : ¬ NotDigits t) (h : strToUint t = some v)
    (hv : v ≤ 0xffff) : Decimal t v := by
  simp only [NotDigits, not_or, not_exists, not_and, not_not] at hd
  rcases (strToUint_iff t v).mp h with ⟨h0,-⟩ | hn
  · rw [digits_upToNul t hd.2] at h0
    exact absurd h0 hd.1
  · rw [digits_upToNul t hd.2] at hn
    exact numeral_digits t v hn hd.2 (by omega)

theorem taken_iff (t : List T) : (∃ v, v ≤ 0xffff ∧ strToUint t = some v) ↔
    Loose t ∨ ∃ v, v ≤ 0xffff ∧ Decimal t v := by
  constructor
  · rintro ⟨v,hv,h⟩
    by_cases hd : NotDigits t
    · exact .inl ⟨(takenPort_iff t).mp ⟨v,hv,h⟩,hd⟩
    · exact .inr ⟨v,hv,digits_decimal t v hd h hv⟩
  · rintro (⟨h,-⟩ | ⟨v,hv,hd⟩)
    · exact (takenPort_iff t).mpr h
    · exact ⟨v,hv,strToUint_decimal t v hd (by omega)⟩

theorem loose_not_decimal (t : List T) (v : ℕ) (h : Loose t) : ¬ Decimal t v := by
  intro hd
  rcases h.2 with rfl | ⟨c,hc,hno⟩
  · exact hd.nonempty rfl
  · exact hno (hd.digit c hc)

/-- The port is taken by its grammar exactly for the texts that are not loose. -/
theorem port_grammar (h t : List T) (hh : PlainHost h) (hslash : tchar '/' ∉ t)
    (hat : tchar '@' ∉ t) : Strict h t ↔ ¬ Loose t := by
  constructor
  · intro hs hloose
    have hup := (accepted_iff 0 h t hh hslash hat).mpr ((taken_iff t).mpr (.inl hloose))
    obtain ⟨v,-,hd⟩ := (portText_iff t).mp ((hs.accepted 0).mp hup)
    exact loose_not_decimal t v hloose hd
  · intro hloose
    constructor
    · intro fuel
      rw [accepted_iff fuel h t hh hslash hat, taken_iff, portText_iff]
      exact or_iff_right hloose
    · intro fuel up port hup hport
      have hlt := port.toNat_lt
      rw [parse_port fuel h t hh hslash hat, strToUint_decimal t _ hport (by omega),
        Option.bind_some, if_neg (by omega)] at hup
      cases hup
      exact congrArg some (UInt16.ofNat_toNat)

theorem port_grammar_plain : Strict (ascii "h") (ascii "80") := by
  refine (port_grammar (ascii "h") (ascii "80") ⟨by decide,by decide,by decide,by decide,
    by decide⟩ (by decide) (by decide)).mpr ?_
  exact fun hl => loose_not_decimal (ascii "80") 80 hl ⟨by decide,digits_all _ rfl,rfl⟩

/-- No text at all behind the colon is taken for port zero. -/
theorem empty_port : PlainHost (ascii "h") ∧ ¬ Strict (ascii "h") [] := by
  refine ⟨⟨by decide,by decide,by decide,by decide,by decide⟩,fun hs => ?_⟩
  obtain ⟨port,hport⟩ := (hs.accepted 0).mp
    ⟨⟨none,none,none,.hostname (ascii "h"),some 0,[]⟩,rfl⟩
  exact hport.nonempty rfl

end ProxySwiss.PortGrammar
