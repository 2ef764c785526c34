import ProxySwiss.Ipv4Literal
import ProxySwiss.InetNtop

/-!
# The text of an address

The formatter writes into an array of a given length; a piece that does not fit
with the character behind it is the end of the program. The array of the
callers is never filled, so that their text is the one of the whole loop, and it
is read back as the address it was written for.
-/

set_option autoImplicit false

namespace ProxySwiss.IpText
open Memory Text InetPton InetNtop UrlParser Ipv4Literal

/-- `none` where the piece does not fit. -/
def sprintfS (length : ℕ) (dest piece : Bytes) : Option Bytes :=
  if (dest ++ piece).length < length then some (dest ++ piece) else none

/-- The loop over the words with the array that it fills. -/
def fillLoop (length : ℕ) : ℕ → Bool → Bool → List ℕ → Bytes → Option Bytes
  | _, _, _, [], dest => some dest
  | skip+1, first, z, _::ws, dest => fillLoop length skip first z ws dest
  | 0, first, z, w::ws, dest =>
    if dest.length < length then
      if w = 0 ∧ z = false then
        let run := (ws.takeWhile (· = 0)).length
        (sprintfS length dest (0x3a::(if run < ws.length then [] else [0x3a]))).bind
          (fillLoop length run false true ws)
      else (sprintfS length dest ((if first then [] else [0x3a]) ++ hexText w)).bind
        (fillLoop length 0 false z ws)
    else some dest

def inetNtopA (length scopeId : ℕ) : IpAddress → Option Bytes
  | .v4 addr => sprintfS length [] (inetNtop scopeId (.v4 addr))
  | .v6 a => (fillLoop length 0 true false (words a.bytes) []).bind fun dest =>
      if scopeId = 0 then some dest
      else sprintfS length dest (ascii "%" ++ strFromUint scopeId)

def bufSize : ℕ := 128

/-- The array is read up to its first zero. -/
def toWstring (ip : IpAddress) : Option (List UInt16) :=
  (inetNtopA bufSize 0 ip).map fun dest => (cstr dest).map CharT.toWide

def toString (ip : IpAddress) : Option Bytes :=
  (toWstring ip).map fun text => text.map wcharToChar

theorem sprintfS_fits (length : ℕ) (dest piece : Bytes) (h : dest.length+piece.length < length) :
    sprintfS length dest piece = some (dest ++ piece) :=
  if_pos (by rwa [List.length_append])

/-- An array that is large enough gets the text of the whole loop. -/
theorem fillLoop_fits (length skip : ℕ) (first z : Bool) (ws : List ℕ) (dest : Bytes)
    (h : dest.length+(ntopLoop skip first z ws).length < length) :
    fillLoop length skip first z ws dest = some (dest ++ ntopLoop skip first z ws) := by
  induction ws generalizing skip first z dest with
  | nil => cases skip <;> simp [fillLoop, ntopLoop]
  | cons w ws ih =>
    cases skip with
    | succ skip => exact ih skip first z dest h
    | zero =>
      rw [fillLoop, if_pos (by omega)]
      rw [ntopLoop] at h ⊢
      by_cases hgap : w = 0 ∧ z = false
      · simp only [if_pos hgap] at h ⊢
        rw [← List.cons_append, List.length_append] at h
        rw [sprintfS_fits _ _ _ (by omega), Option.bind_some,
          ih _ _ _ _ (by rw [List.length_append]; omega)]
        simp
      · simp only [if_neg hgap] at h ⊢
        rw [List.length_append] at h
        rw [sprintfS_fits _ _ _ (by omega), Option.bind_some,
          ih _ _ _ _ (by rw [List.length_append]; omega)]
        simp

/-- Four digits and a colon for each word, and one more colon for a gap. -/
theorem ntopLoop_length (skip : ℕ) (first z : Bool) (ws : List ℕ) (h : ∀ w ∈ ws, w ≤ 0xffff) :
    (ntopLoop skip first z ws).length ≤ 5*ws.length := by
  induction ws generalizing skip first z with
  | nil => cases skip <;> simp [ntopLoop]
  | cons w ws ih =>
    have hrest : ∀ skip first z, (ntopLoop skip first z ws).length ≤ 5*ws.length :=
      fun skip first z => ih skip first z fun x hx => h x (by simp [hx])
    have hgroup := (hexText_group w (h w (by simp))).2.1
    cases skip with
    | succ skip =>
      have := hrest skip first z
      simp only [ntopLoop, List.length_cons]
      omega
    | zero =>
      have hcolon : ∀ p [Decidable p], (if p then [] else [(0x3a : UInt8)]).length ≤ 1 := by
        intro p _
        split_ifs <;> decide
      rw [ntopLoop]
      by_cases hgap : w = 0 ∧ z = false
      · have hrun := hrest (ws.takeWhile (· = 0)).length false true
        have hc := hcolon ((ws.takeWhile (· = 0)).length < ws.length)
        simp only [if_pos hgap, List.length_cons, List.length_append]
        omega
      · have hnext := hrest 0 false z
        have hc := hcolon (first = true)
        simp only [if_neg hgap, List.length_cons, List.length_append]
        omega

theorem ntop4_dotted (addr : UInt32) : Dotted (inetNtop 0 (.v4 addr)) (byte32 addr 0)
    (byte32 addr 1) (byte32 addr 2) (byte32 addr 3) := by
  refine ⟨_,_,_,_,?_,strFromUint_decimal _,strFromUint_decimal _,strFromUint_decimal _,
    strFromUint_decimal _⟩
  simp only [inetNtop, List.append_assoc]
  rfl

theorem ntop_short (ip : IpAddress) : (inetNtop 0 ip).length < 46 := by
  cases ip with
  | v4 addr =>
    have hnum : ∀ i, (strFromUint (byte32 addr i).toNat).length ≤ 3 := by
      intro i
      have hlt := (byte32 addr i).toNat_lt
      exact strFromUint_length _ 3 (by decide) (by omega)
    have h0 := hnum 0
    have h1 := hnum 1
    have h2 := hnum 2
    have h3 := hnum 3
    have hdot : (ascii ".").length = 1 := rfl
    simp only [inetNtop, List.length_append]
    omega
  | v6 a =>
    obtain ⟨hlen,-,hle⟩ := words_spec 8 a.bytes a.size
    have hloop := ntopLoop_length 0 true false (words a.bytes) hle
    simp only [inetNtop, if_true, List.append_nil]
    omega

/-- The array of the callers gets the whole text. -/
theorem inetNtopA_text (ip : IpAddress) : inetNtopA bufSize 0 ip = some (inetNtop 0 ip) := by
  have hlen : (inetNtop 0 ip).length < bufSize := Nat.lt_trans (ntop_short ip) (by decide)
  cases ip with
  | v4 addr => exact sprintfS_fits _ [] _ (by simpa using hlen)
  | v6 a =>
    simp only [inetNtop, if_true, List.append_nil] at hlen ⊢
    rw [inetNtopA, fillLoop_fits _ _ _ _ _ _ (by simpa using hlen), List.nil_append]
    rfl

theorem cstr_ntop (ip : IpAddress) : cstr (inetNtop 0 ip) = inetNtop 0 ip := by
  cases ip with
  | v4 addr =>
    have hplain := (dotted_plain _ _ _ _ _ (ntop4_dotted addr)).1
    have hmap : (inetNtop 0 (.v4 addr)).map CharT.toChar = inetNtop 0 (.v4 addr) :=
      List.map_id'' (fun _ => rfl) _
    have htext := hostText_plain _ hplain
    rwa [hostText, hmap] at htext
  | v6 a => exact cstr_ipv6Text _ _ (inetNtop6_text a)

theorem toString_text (ip : IpAddress) : toString ip = some (inetNtop 0 ip) := by
  rw [toString, toWstring, inetNtopA_text, Option.map_some, Option.map_some, cstr_ntop,
    List.map_map]
  exact congrArg some (List.map_id'' CharT.toChar_toWide _)

section Read

variable {T : Type} [CharT T] [LawfulCharT T]

theorem dotted_wide (s : Bytes) (a b c d : UInt8) (h : Dotted s a b c d) :
    Dotted (strToTstr s : List T) a b c d := by
  obtain ⟨w,x,y,z,rfl,hw,hx,hy,hz⟩ := h
  refine ⟨strToTstr w,strToTstr x,strToTstr y,strToTstr z,?_,?_⟩
  · simp only [strToTstr, List.map_append, List.map_cons]
    rfl
  · exact ⟨decimal_wide w _ hw,decimal_wide x _ hx,decimal_wide y _ hy,decimal_wide z _ hz⟩

omit [LawfulCharT T] in
/-- A text form has no dot in it, so that only the second of the two attempts takes it. -/
theorem ipv6_fromString (fuel : ℕ) (s x : Bytes) (h : Ipv6Text s x) :
    fromString fuel (strToTstr s : List T) = fromStringIpv6 fuel (strToTstr s : List T) := by
  have hfour : inetPton4 (hostText (strToTstr s : List T)) = none := by
    rw [hostText_strToTstr, cstr_ipv6Text s x h]
    by_contra hne
    obtain ⟨a,ha⟩ := Option.ne_none_iff_exists'.mp hne
    have hdot := inetPton4_dot s a ha
    rw [cstr_ipv6Text s x h] at hdot
    rcases ipv6Text_mem s x h _ hdot with h0 | h0
    · exact absurd h0 (by decide)
    · exact h0 rfl
  have hnone : fromStringIpv4 fuel (strToTstr s : List T) = some none := by
    rw [fromStringIpv4_eq, hfour]
    rfl
  simp only [fromString, hnone]

/-- The text that is written for an address is read back as it. -/
theorem ntop_read (ip : IpAddress) : ∃ N, ∀ fuel, N ≤ fuel →
    fromString fuel (strToTstr (inetNtop 0 ip) : List T) = some (some ip) := by
  cases ip with
  | v4 addr =>
    refine ⟨0,fun fuel _ => ?_⟩
    have htaken := dotted_accepted fuel _ _ _ _ _ (dotted_wide (T := T) _ _ _ _ _
      (ntop4_dotted addr))
    rw [ofLe32_byte32] at htaken
    simp only [fromString, htaken]
  | v6 a =>
    obtain ⟨N,hN⟩ := inetNtop6_taken (T := T) a
    refine ⟨N,fun fuel hfuel => ?_⟩
    rw [ipv6_fromString fuel _ _ (inetNtop6_text a)]
    exact hN fuel hfuel

end Read

theorem ip_text_read (a : IpAddress) : ∃ text, toString a = some text ∧
    ∃ N, ∀ fuel, N ≤ fuel → fromString fuel text = some (some a) := by
  have hmap : (strToTstr (inetNtop 0 a) : List UInt8) = inetNtop 0 a :=
    List.map_id'' (fun _ => rfl) _
  have hread := ntop_read (T := UInt8) a
  rw [hmap] at hread
  exact ⟨_,toString_text a,hread⟩

/-- What is printed for an address is read as that address, and for no two
addresses the same is printed. -/
theorem ip_text_round_trip :
    (∀ a, ∃ text, toString a = some text ∧
      ∃ N, ∀ fuel, N ≤ fuel → fromString fuel text = some (some a)) ∧
    ∀ a b, toString a = toString b → a = b := by
  refine ⟨ip_text_read,fun a b h => ?_⟩
  obtain ⟨s,hs,N,ha⟩ := ip_text_read a
  obtain ⟨t,ht,M,hb⟩ := ip_text_read b
  obtain rfl : s = t := Option.some.inj (hs.symm.trans (h.trans ht))
  have hfirst := ha (N+M) (Nat.le_add_right _ _)
  rw [hb (N+M) (Nat.le_add_left _ _)] at hfirst
  exact (Option.some.inj (Option.some.inj hfirst)).symm

end ProxySwiss.IpText
