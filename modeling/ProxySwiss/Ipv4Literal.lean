import ProxySwiss.UrlParts
import ProxySwiss.Numerals

/-!
# Addresses of four numbers

The format of the scanning routine asks for four numbers with a dot between
each two. White space and signs may stand in front of each of them, a number that
is too large is cut to its lower half, and what follows the last is not looked
at. A host is classified by this routine alone.
-/

set_option autoImplicit false

namespace ProxySwiss.Ipv4Literal
open Memory Text InetPton UrlParser

variable {T : Type} [CharT T]

/-- Four decimal numbers of one octet each with single dots between them. -/
def Dotted (s : List T) (a b c d : UInt8) : Prop :=
  ∃ w x y z, s = w ++ tchar '.'::(x ++ tchar '.'::(y ++ tchar '.'::z)) ∧
    Decimal w a.toNat ∧ Decimal x b.toNat ∧ Decimal y c.toNat ∧ Decimal z d.toNat

def IsDotted (s : List T) : Prop := ∃ a b c d, Dotted s a b c d

/-- Four decimal numbers of any size with single dots between them. -/
def Numbers (s : List T) (a b c d : ℕ) : Prop :=
  ∃ w x y z, s = w ++ tchar '.'::(x ++ tchar '.'::(y ++ tchar '.'::z)) ∧
    Decimal w a ∧ Decimal x b ∧ Decimal y c ∧ Decimal z d

/-- One of the four numbers is no octet. -/
def Large (s : List T) : Prop :=
  ∃ a b c d, Numbers s a b c d ∧ (255 < a ∨ 255 < b ∨ 255 < c ∨ 255 < d)

/-- What the scanning routine takes for such numbers, and what is left. -/
def Scanned (s : Bytes) (a b c d : UInt8) : Prop :=
  ∃ w x y z rest, s = w ++ 0x2e::(x ++ 0x2e::(y ++ 0x2e::(z ++ rest))) ∧ NoDigit rest ∧
    HalfNumeral w a.toNat ∧ HalfNumeral x b.toNat ∧ HalfNumeral y c.toNat ∧
      HalfNumeral z d.toNat

/-- A text that is taken for an address, with another character than a digit or
a dot in it, with a fourth dot, or with a number above 255. -/
def Loose (s : List T) : Prop :=
  (∃ a b c d, Scanned (hostText s) a b c d) ∧
    ((∃ c ∈ s, ¬ Digit c ∧ c ≠ tchar '.') ∨ 3 < s.count (tchar '.') ∨ Large s)

/-- What is promised of the routine, and of the parser that calls it. -/
structure Recognised (s : List T) : Prop where
  accepted : ∀ fuel, (∃ ip, fromStringIpv4 fuel s = some (some ip)) ↔ IsDotted s
  octets : ∀ fuel a b c d, Dotted s a b c d →
    fromStringIpv4 fuel s = some (some (.v4 (ofLe32 a b c d)))
  classified : PlainHost s → ∀ fuel up, parse fuel s = some (some up) →
    ((∃ name, up.host = .hostname name) ↔ ¬ IsDotted s)

theorem dot_iff (s t : Bytes) : dot s = some t ↔ s = 0x2e::t := by
  cases s with
  | nil => simp [dot]
  | cons c cs =>
    by_cases hc : c = 0x2e
    · simp [dot, hc]
    · simp [dot, hc]

theorem dot_not_digit (s : Bytes) : NoDigit (0x2e::s) := (noDigit_cons _ s).mpr (by decide)

/-- A number and the dot behind it. -/
theorem field_iff (s t : Bytes) (v : ℕ) :
    (∃ u, scanfUint s = some (v,u) ∧ dot u = some t) ↔ ∃ w, s = w ++ 0x2e::t ∧ HalfNumeral w v := by
  simp only [dot_iff, scanfUint_iff]
  constructor
  · rintro ⟨u,⟨w,rfl,hw,-⟩,rfl⟩
    exact ⟨w,rfl,hw⟩
  · rintro ⟨w,rfl,hw⟩
    exact ⟨0x2e::t,⟨w,rfl,hw,dot_not_digit t⟩,rfl⟩

theorem octet (v : ℕ) (h : ¬ v > 255) : (UInt8.ofNat v).toNat = v :=
  UInt8.toNat_ofNat_of_lt' (show v < UInt8.size by simp only [UInt8.size]; omega)

theorem inetPton4_iff (src : Bytes) (addr : UInt32) :
    inetPton4 src = some addr ↔
      ∃ a b c d, Scanned (cstr src) a b c d ∧ addr = ofLe32 a b c d := by
  simp only [inetPton4, Option.bind_eq_bind, Option.bind_eq_some_iff, Prod.exists]
  constructor
  · rintro ⟨v0,s0,h0,t0,d0,v1,s1,h1,t1,d1,v2,s2,h2,t2,d2,v3,rest,h3,hv⟩
    split_ifs at hv with hlarge
    push Not at hlarge
    obtain ⟨w,hs,hw⟩ := (field_iff _ t0 v0).mp ⟨s0,h0,d0⟩
    obtain ⟨x,rfl,hx⟩ := (field_iff _ t1 v1).mp ⟨s1,h1,d1⟩
    obtain ⟨y,rfl,hy⟩ := (field_iff _ t2 v2).mp ⟨s2,h2,d2⟩
    obtain ⟨z,rfl,hz,hrest⟩ := (scanfUint_iff _ _ v3).mp h3
    refine ⟨UInt8.ofNat v0,UInt8.ofNat v1,UInt8.ofNat v2,UInt8.ofNat v3,
      ⟨w,x,y,z,rest,hs,hrest,?_,?_,?_,?_⟩,(Option.some.inj hv).symm⟩
    · rwa [octet v0 (by omega)]
    · rwa [octet v1 (by omega)]
    · rwa [octet v2 (by omega)]
    · rwa [octet v3 (by omega)]
  · rintro ⟨a,b,c,d,⟨w,x,y,z,rest,hs,hrest,hw,hx,hy,hz⟩,rfl⟩
    have ha := a.toNat_lt
    have hb := b.toNat_lt
    have hc := c.toNat_lt
    have hd := d.toNat_lt
    obtain ⟨s0,h0,d0⟩ := (field_iff _ _ _).mpr ⟨w,hs,hw⟩
    obtain ⟨s1,h1,d1⟩ := (field_iff _ _ _).mpr ⟨x,rfl,hx⟩
    obtain ⟨s2,h2,d2⟩ := (field_iff _ _ _).mpr ⟨y,rfl,hy⟩
    refine ⟨_,s0,h0,_,d0,_,s1,h1,_,d1,_,s2,h2,_,d2,_,rest,
      (scanfUint_iff _ _ _).mpr ⟨z,rfl,hz,hrest⟩,?_⟩
    rw [if_neg (by omega)]
    simp only [UInt8.ofNat_toNat]

theorem fromStringIpv4_some (fuel : ℕ) (s : List T) (ip : IpAddress) :
    fromStringIpv4 fuel s = some (some ip) ↔
      ∃ a b c d, Scanned (hostText s) a b c d ∧ ip = .v4 (ofLe32 a b c d) := by
  rw [fromStringIpv4_eq]
  simp only [Option.some.injEq, Option.map_eq_some_iff, inetPton4_iff]
  have hcstr : cstr (hostText s) = hostText s := cstr_cstr _
  rw [hcstr]
  constructor
  · rintro ⟨_,⟨a,b,c,d,h,rfl⟩,rfl⟩
    exact ⟨a,b,c,d,h,rfl⟩
  · rintro ⟨a,b,c,d,h,rfl⟩
    exact ⟨_,⟨a,b,c,d,h,rfl⟩,rfl⟩

theorem numeral_dot (s : Bytes) (v : ℕ) (h : HalfNumeral s v) : 0x2e ∉ s := by
  intro hin
  rcases scanned_mem wrapHalf s v h _ hin with hc | hc | hc | hc <;> exact absurd hc (by decide)

section Plain

variable [LawfulCharT T]

/-- Only digits and dots. -/
def Plain (s : List T) : Prop := ∀ c ∈ s, Digit c ∨ c = tchar '.'

omit [LawfulCharT T] in
theorem toChar_dot : CharT.toChar (tchar '.' : T) = 0x2e := CharT.toChar_ofChar _

omit [LawfulCharT T] in
theorem dot_digit (s : List T) (h : ∀ c ∈ s, Digit c) (hc : CharT.code (tchar '.' : T) = 46) :
    tchar '.' ∉ s := by
  intro hin
  have hlo := (h _ hin).1
  omega

theorem code_dot : CharT.code (tchar '.' : T) = 46 := LawfulCharT.code_ofChar _ (by decide)

theorem plain_char (c : T) (h : Digit c ∨ c = tchar '.') :
    (CharT.toChar c = 0x2e ↔ c = tchar '.') ∧ CharT.toChar c ≠ 0 := by
  rcases h with h | rfl
  · have hcode := digit_toChar c h
    have hlo := h.1
    have hval : (CharT.toChar c).toNat = CharT.code c := hcode
    refine ⟨⟨fun h0 => ?_,fun h0 => by rw [h0, toChar_dot]⟩,fun h0 => ?_⟩
    · rw [h0] at hval
      exact absurd (hval ▸ hlo : 48 ≤ (0x2e : UInt8).toNat) (by decide)
    · rw [h0] at hval
      exact absurd (hval ▸ hlo : 48 ≤ (0 : UInt8).toNat) (by decide)
  · exact ⟨⟨fun _ => rfl,fun _ => toChar_dot⟩,by rw [toChar_dot]; decide⟩

theorem hostText_plain (s : List T) (h : Plain s) : hostText s = s.map CharT.toChar := by
  apply List.takeWhile_eq_self_iff.mpr
  intro c hc
  obtain ⟨d,hd,rfl⟩ := List.mem_map.mp hc
  simpa using (plain_char d (h d hd)).2

/-- A number in front of a dot comes from digits in front of a dot. -/
theorem field_split (s : List T) (w t : Bytes) (v : ℕ) (h : Plain s)
    (hs : s.map CharT.toChar = w ++ 0x2e::t) (hw : HalfNumeral w v) :
    ∃ w' t' n, s = w' ++ tchar '.'::t' ∧ t'.map CharT.toChar = t ∧ Decimal w' n ∧
      v = wrapHalf false n := by
  obtain ⟨w',u,rfl,rfl,hu⟩ := List.map_eq_append_iff.mp hs
  obtain ⟨c,t',rfl,hc,ht⟩ := List.map_eq_cons_iff.mp hu
  obtain rfl := (plain_char c (h c (by simp))).1.mp hc
  have hdigit : ∀ c ∈ w', Digit c := by
    intro c hc
    rcases h c (by simp [hc]) with hd | rfl
    · exact hd
    · exact absurd (List.mem_map.mpr ⟨_,hc,toChar_dot⟩) (numeral_dot _ v hw)
  obtain ⟨n,hn,hv⟩ := scanned_digits wrapHalf _ v hw (narrow_digits w' hdigit)
  exact ⟨w',t',n,rfl,ht,narrow_decimal w' n hdigit hn,hv⟩

/-- Four numbers of digits alone, with no more than three dots in all. -/
theorem scanned_numbers (s : List T) (a b c d : UInt8) (hplain : Plain s)
    (hcount : s.count (tchar '.') ≤ 3) (h : Scanned (hostText s) a b c d) :
    ∃ k l m n, Numbers s k l m n ∧ a.toNat = wrapHalf false k ∧ b.toNat = wrapHalf false l ∧
      c.toNat = wrapHalf false m ∧ d.toNat = wrapHalf false n := by
  rw [hostText_plain s hplain] at h
  obtain ⟨w,x,y,z,rest,hs,hrest,hw,hx,hy,hz⟩ := h
  obtain ⟨w',t,k,rfl,ht,hw',hk⟩ := field_split s w _ _ hplain hs hw
  have hplain1 : Plain t := fun c hc => hplain c (by simp [hc])
  obtain ⟨x',u,l,rfl,hu,hx',hl⟩ := field_split t x _ _ hplain1 ht hx
  have hplain2 : Plain u := fun c hc => hplain1 c (by simp [hc])
  obtain ⟨y',v,m,rfl,hv,hy',hm⟩ := field_split u y _ _ hplain2 hu hy
  have hplain3 : Plain v := fun c hc => hplain2 c (by simp [hc])
  have hdigit : ∀ c ∈ v, Digit c := by
    intro c hc
    refine (hplain3 c hc).resolve_right ?_
    rintro rfl
    have := List.count_pos_iff.mpr hc
    simp only [List.count_append, List.count_cons_self] at hcount
    omega
  have hnarrow := narrow_digits v hdigit
  rw [hv] at hnarrow
  have hnil : rest = [] := by
    cases rest with
    | nil => rfl
    | cons e es => exact absurd (hnarrow e (by simp)) ((noDigit_cons e es).mp hrest)
  subst hnil
  rw [List.append_nil] at hv hnarrow
  subst hv
  obtain ⟨n,hz',hn⟩ := scanned_digits wrapHalf _ _ hz hnarrow
  exact ⟨k,l,m,n,⟨w',x',y',v,rfl,hw',hx',hy',narrow_decimal v n hdigit hz'⟩,hk,hl,hm,hn⟩

theorem octet_wrapped (a : UInt8) (n : ℕ) (h : a.toNat = wrapHalf false n) (hn : ¬ 255 < n) :
    n = a.toNat := by
  rw [h, wrapHalf_small n (by omega)]

/-- What is scanned is what is written where no number is too large. -/
theorem scanned_dotted (s : List T) (a b c d : UInt8) (hplain : Plain s)
    (hcount : s.count (tchar '.') ≤ 3) (hlarge : ¬ Large s)
    (h : Scanned (hostText s) a b c d) : Dotted s a b c d := by
  obtain ⟨k,l,m,n,hnum,hk,hl,hm,hn⟩ := scanned_numbers s a b c d hplain hcount h
  have hsmall : ¬ (255 < k ∨ 255 < l ∨ 255 < m ∨ 255 < n) := fun h => hlarge ⟨k,l,m,n,hnum,h⟩
  simp only [not_or] at hsmall
  obtain ⟨h1,h2,h3,h4⟩ := hsmall
  obtain rfl := octet_wrapped a k hk h1
  obtain rfl := octet_wrapped b l hl h2
  obtain rfl := octet_wrapped c m hm h3
  obtain rfl := octet_wrapped d n hn h4
  exact hnum

theorem dotted_plain (s : List T) (a b c d : UInt8) (h : Dotted s a b c d) :
    Plain s ∧ s.count (tchar '.') = 3 := by
  obtain ⟨w,x,y,z,rfl,hw,hx,hy,hz⟩ := h
  have hcount : ∀ w : List T, (∀ c ∈ w, Digit c) → w.count (tchar '.') = 0 :=
    fun w hw => List.count_eq_zero.mpr (dot_digit w hw code_dot)
  constructor
  · intro c hc
    simp only [List.mem_append, List.mem_cons] at hc
    rcases hc with hc | hc | hc | hc | hc | hc | hc
    · exact .inl (hw.digit c hc)
    · exact .inr hc
    · exact .inl (hx.digit c hc)
    · exact .inr hc
    · exact .inl (hy.digit c hc)
    · exact .inr hc
    · exact .inl (hz.digit c hc)
  · simp [List.count_append, hcount w hw.digit, hcount x hx.digit, hcount y hy.digit,
      hcount z hz.digit]

/-- An address in its plain form is taken as it is written. -/
theorem dotted_scanned (s : List T) (a b c d : UInt8) (h : Dotted s a b c d) :
    Scanned (hostText s) a b c d := by
  have hnarrow : ∀ (w : List T) (v : UInt8), Decimal w v.toNat →
      HalfNumeral (w.map CharT.toChar) v.toNat := by
    intro w v hw
    have hlt := v.toNat_lt
    exact decimal_half _ _ (decimal_narrow w _ hw) (by omega)
  rw [hostText_plain s (dotted_plain s a b c d h).1]
  obtain ⟨w,x,y,z,rfl,hw,hx,hy,hz⟩ := h
  refine ⟨_,_,_,_,[],?_,noDigit_nil,hnarrow w a hw,hnarrow x b hx,hnarrow y c hy,hnarrow z d hz⟩
  simp [toChar_dot]

omit [LawfulCharT T] in
theorem field_same (hc : CharT.code (tchar '.' : T) = 46) (w w' t t' : List T) (v v' : ℕ)
    (h : w ++ tchar '.'::t = w' ++ tchar '.'::t') (hw : Decimal w v) (hw' : Decimal w' v') :
    v = v' ∧ t = t' := by
  have hno : ∀ (w : List T) (v : ℕ), Decimal w v → tchar '.' ∉ w := fun w v hw =>
    dot_digit w hw.digit hc
  have hbefore := congrArg (before (tchar '.')) h
  rw [before_append _ _ _ (hno w v hw), before_append _ _ _ (hno w' v' hw'), before_self,
    before_self, List.append_nil, List.append_nil] at hbefore
  subst hbefore
  exact ⟨decimal_unique w v v' hw hw',(List.cons.inj (List.append_cancel_left h)).2⟩

/-- The four numbers are those of the text. -/
theorem numbers_unique (s : List T) (a b c d a' b' c' d' : ℕ) (h : Numbers s a b c d)
    (h' : Numbers s a' b' c' d') : a = a' ∧ b = b' ∧ c = c' ∧ d = d' := by
  obtain ⟨w,x,y,z,rfl,hw,hx,hy,hz⟩ := h
  obtain ⟨w',x',y',z',hs,hw',hx',hy',hz'⟩ := h'
  obtain ⟨rfl,hs⟩ := field_same code_dot _ _ _ _ _ _ hs hw hw'
  obtain ⟨rfl,hs⟩ := field_same code_dot _ _ _ _ _ _ hs hx hx'
  obtain ⟨rfl,rfl⟩ := field_same code_dot _ _ _ _ _ _ hs hy hy'
  exact ⟨rfl,rfl,rfl,decimal_unique z d d' hz hz'⟩

theorem dotted_accepted (fuel : ℕ) (s : List T) (a b c d : UInt8) (h : Dotted s a b c d) :
    fromStringIpv4 fuel s = some (some (.v4 (ofLe32 a b c d))) :=
  (fromStringIpv4_some fuel s _).mpr ⟨a,b,c,d,dotted_scanned s a b c d h,rfl⟩

theorem accepted_iff (fuel : ℕ) (s : List T) :
    (∃ ip, fromStringIpv4 fuel s = some (some ip)) ↔ Loose s ∨ IsDotted s := by
  constructor
  · rintro ⟨ip,h⟩
    obtain ⟨a,b,c,d,hscan,rfl⟩ := (fromStringIpv4_some fuel s ip).mp h
    by_cases hl : (∃ c ∈ s, ¬ Digit c ∧ c ≠ tchar '.') ∨ 3 < s.count (tchar '.') ∨ Large s
    · exact .inl ⟨⟨a,b,c,d,hscan⟩,hl⟩
    · push Not at hl
      refine .inr ⟨a,b,c,d,scanned_dotted s a b c d (fun x hx => ?_) hl.2.1 hl.2.2 hscan⟩
      by_cases hd : Digit x
      · exact .inl hd
      · exact .inr (hl.1 x hx hd)
  · rintro (⟨⟨a,b,c,d,h⟩,-⟩ | ⟨a,b,c,d,h⟩)
    · exact ⟨_,(fromStringIpv4_some fuel s _).mpr ⟨a,b,c,d,h,rfl⟩⟩
    · exact ⟨_,dotted_accepted fuel s a b c d h⟩

theorem loose_not_dotted (s : List T) (h : Loose s) : ¬ IsDotted s := by
  rintro ⟨a,b,c,d,hd⟩
  obtain ⟨hplain,hcount⟩ := dotted_plain s a b c d hd
  rcases h.2 with ⟨x,hx,hno,hdot⟩ | hmore | ⟨k,l,m,n,hnum,hlarge⟩
  · exact (hplain x hx).elim hno hdot
  · omega
  · obtain ⟨rfl,rfl,rfl,rfl⟩ := numbers_unique s _ _ _ _ _ _ _ _ hnum hd
    have ha := a.toNat_lt
    have hb := b.toNat_lt
    have hc := c.toNat_lt
    have hd := d.toNat_lt
    omega

omit [LawfulCharT T] in
/-- A plain host is a name exactly if it is not taken for an address. -/
theorem parse_plain (fuel : ℕ) (s : List T) (hs : PlainHost s) :
    parse fuel s = some (some ⟨none,none,none,namedHost s,none,[]⟩) := by
  have hhost := host_written fuel s [] hs (.inl rfl)
  rw [List.append_nil] at hhost
  rw [parse_parts, parseParts, scheme_absent s (no_scheme s hs.slash)]
  simp only [userinfo_absent s hs.userinfo, hhost, Option.map_some, Option.bind_some,
    port_absent ([] : List T) (by simp)]
  rfl

omit [LawfulCharT T] in
theorem namedHost_name (fuel : ℕ) (s : List T) :
    (∃ name, namedHost s = .hostname name) ↔ ¬ ∃ ip, fromStringIpv4 fuel s = some (some ip) := by
  rw [fromStringIpv4_eq, namedHost]
  cases inetPton4 (hostText s) <;> simp

/-- An address is recognised by its grammar exactly where the text is not loose. -/
theorem ipv4_literal (s : List T) : Recognised s ↔ ¬ Loose s := by
  constructor
  · intro hr hl
    exact loose_not_dotted s hl ((hr.accepted 0).mp ((accepted_iff 0 s).mpr (.inl hl)))
  · intro hl
    have hiff : ∀ fuel, (∃ ip, fromStringIpv4 fuel s = some (some ip)) ↔ IsDotted s := by
      intro fuel
      rw [accepted_iff fuel s]
      exact or_iff_right hl
    refine ⟨hiff,fun fuel => dotted_accepted fuel s,fun hs fuel up hup => ?_⟩
    rw [parse_plain fuel s hs] at hup
    cases hup
    rw [← hiff fuel]
    exact namedHost_name fuel s

/-- A number alone is no address. -/
theorem ipv4_literal_wide : Recognised [(0x31 : UInt16)] := by
  refine (ipv4_literal [(0x31 : UInt16)]).mpr fun hl => ?_
  obtain ⟨ip,hip⟩ := (accepted_iff 0 [(0x31 : UInt16)]).mpr (.inl hl)
  have hnone : fromStringIpv4 0 [(0x31 : UInt16)] = some none := rfl
  exact absurd (hnone.symm.trans hip) (by simp)

end Plain

/-- A name that begins with an address is taken for the address. -/
theorem trailing_text : ¬ Recognised (ascii "1.2.3.4.example") := by
  intro hr
  have hname := hr.classified ⟨by decide,by decide,by decide,by decide,by decide⟩ 0
    ⟨none,none,none,.ipAddr (.v4 (ofLe32 1 2 3 4)),none,[]⟩ rfl
  obtain ⟨name,h⟩ := hname.mpr fun hd => by
    obtain ⟨a,b,c,d,hd⟩ := hd
    exact absurd (dotted_plain _ a b c d hd).2 (by decide)
  exact absurd h (by simp)

end ProxySwiss.Ipv4Literal
