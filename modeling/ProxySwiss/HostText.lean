import ProxySwiss.PortGrammar
import ProxySwiss.Ipv4Literal
import ProxySwiss.InetNtop

/-!
# Hosts as they are written

A host is written as four numbers, as a text form of an IPv6 address between
brackets, or as a name that is not taken for an address. The parser takes each
of them for what it is, provided that the text behind it lets the host end.
-/

set_option autoImplicit false

namespace ProxySwiss.HostText
open Memory Text InetPton UrlParser Ipv4Literal

variable {T : Type} [CharT T]

inductive Host (T : Type) [CharT T] where
  | dotted (text : List T) (a b c d : UInt8) (h : Dotted text a b c d)
  | ipv6 (text : Bytes) (a : Buffer 16) (h : Ipv6Text text a.bytes)
  | name (text : List T) (h : PlainHost text) (other : fromStringIpv4 0 text = some none)

/-- The text form that is written for an address is one of those. -/
def Host.ofIpv6 (a : Buffer 16) : Host T :=
  .ipv6 (InetNtop.inetNtop 0 (.v6 a)) a (InetNtop.inetNtop6_text a)

def Host.text : Host T → List T
  | .dotted text _ _ _ _ _ => text
  | .ipv6 text _ _ => tchar '['::strToTstr text ++ [tchar ']']
  | .name text _ _ => text

/-- What the parser reports for the host. -/
def Host.address : Host T → HostAddress
  | .dotted _ a b c d _ => .ipAddr (.v4 (ofLe32 a b c d))
  | .ipv6 _ a _ => .ipAddr (.v6 a)
  | .name text _ _ => .hostname (text.map CharT.toChar)

theorem ascii_mem (s : Bytes) (c : Char) : tchar c ∈ (strToTstr s : List T) ↔
    UInt8.ofNat c.toNat ∈ s := by
  constructor
  · intro h
    obtain ⟨b,hb,he⟩ := List.mem_map.mp h
    rwa [← (ofChar_inj _ _).mp he]
  · exact List.mem_map_of_mem

/-- Neither a separator nor a bracket stands between the brackets. -/
theorem ipv6_clean (s x : Bytes) (h : Ipv6Text s x) (c : Char)
    (hc : UInt8.ofNat c.toNat ≠ 0x3a) (hhex : hexDigit (UInt8.ofNat c.toNat) = none) :
    tchar c ∉ (strToTstr s : List T) := by
  rw [ascii_mem]
  intro hin
  rcases ipv6Text_mem s x h _ hin with h0 | h0
  · exact hc h0
  · exact h0 hhex

theorem ipv6_host (fuel : ℕ) (s : Bytes) (a : Buffer 16) (rest : List T)
    (h : Ipv6Text s a.bytes) (hrest : Ended rest)
    (htaken : fromStringIpv6 fuel (strToTstr s : List T) = some (some (.v6 a))) :
    hostPart fuel ((Host.ipv6 s a h).text ++ rest) = some (some (.ipAddr (.v6 a),rest)) := by
  have hb := ipv6_clean (T := T) s _ h ']' (by decide) rfl
  obtain ⟨hraw,-⟩ := host_ended ([] : List T) rest (by simp) (by simp) hrest
  rw [List.nil_append] at hraw
  have htext : (Host.ipv6 s a h).text ++ rest = tchar '['::(strToTstr s ++ tchar ']'::rest) := by
    simp [Host.text]
  rw [htext, hostPart, if_pos (List.head?_cons ..), List.tail_cons, ipv6_some,
    before_append _ _ _ hb, behind_append _ _ _ hb, before_self, behind_self, List.append_nil,
    List.tail_cons]
  exact ⟨by simp,rfl,hraw,.v6 a,htaken,rfl⟩

theorem namedHost_ip (fuel : ℕ) (s : List T) (ip : IpAddress)
    (h : fromStringIpv4 fuel s = some (some ip)) : namedHost s = .ipAddr ip := by
  rw [fromStringIpv4_eq] at h
  rw [namedHost]
  cases hip : inetPton4 (hostText s) with
  | none => simp [hip] at h
  | some a =>
    obtain rfl : IpAddress.v4 a = ip := by simpa [hip] using h
    rfl

theorem namedHost_hostname (fuel : ℕ) (s : List T) (h : fromStringIpv4 fuel s = some none) :
    namedHost s = .hostname (s.map CharT.toChar) := by
  rw [fromStringIpv4_eq] at h
  rw [namedHost]
  cases hip : inetPton4 (hostText s) with
  | none => rfl
  | some a => simp [hip] at h

/-- A port that was read stands between a colon and the path. -/
theorem port_split (s path : List T) (port : UInt16) (h : portPart s = some (some port,path)) :
    ∃ t, s = tchar ':'::(t ++ path) ∧ tchar '/' ∉ t ∧ (path = [] ∨ ∃ q, path = tchar '/'::q) ∧
      strToUint t = some port.toNat := by
  obtain ⟨u,rfl⟩ : ∃ u, s = tchar ':'::u := by
    by_contra hne
    have hhead : s.head? ≠ some (tchar ':') := fun h0 => hne (List.head?_eq_some_iff.mp h0)
    rw [port_absent s hhead] at h
    exact absurd (Prod.mk.inj (Option.some.inj h)).1 (by simp)
  have hu := before_behind (tchar '/') u
  have hslash := not_mem_before (tchar '/') u
  have hpath := behind_head (tchar '/') u
  generalize before (tchar '/') u = t at hu hslash
  generalize behind (tchar '/') u = q at hu hpath
  subst hu
  rw [port_written t q hslash hpath] at h
  obtain ⟨v,hv,h⟩ := Option.bind_eq_some_iff.mp h
  split_ifs at h with hlarge
  obtain ⟨hval,rfl⟩ := Prod.mk.inj (Option.some.inj h)
  have hnat : v = port.toNat := by
    rw [← Option.some.inj hval,
      UInt16.toNat_ofNat_of_lt' (show v < UInt16.size by simp only [UInt16.size]; omega)]
  exact ⟨t,rfl,hslash,hpath,hnat ▸ hv⟩

/-- A text form is taken for nothing but its address. -/
theorem ipv6_taken (fuel : ℕ) (s : Bytes) (a : Buffer 16) (ip : IpAddress)
    (h : Ipv6Text s a.bytes) (hip : fromStringIpv6 fuel (strToTstr s : List T) = some (some ip)) :
    ip = .v6 a := by
  obtain ⟨N,hN⟩ := ipv6Text_taken (T := T) s a h
  have hN := hN (max N fuel) (Nat.le_max_left _ _)
  rw [fromStringIpv6_mono fuel _ _ ip hip (Nat.le_max_right _ _)] at hN
  exact Option.some.inj (Option.some.inj hN)

/-- A host without brackets, in front of the first colon. -/
structure Unbracketed (host s u : List T) : Prop where
  text : s = host ++ tchar ':'::u
  nonempty : host ≠ []
  bracket : host.head? ≠ some (tchar '[')
  colon : tchar ':' ∉ host

structure Bracketed (inner s u : List T) : Prop where
  text : s = tchar '['::(inner ++ [tchar ']']) ++ tchar ':'::u
  clean : tchar ']' ∉ inner

theorem scanned_nonempty (s : List T) (a b c d : UInt8) (h : Scanned (hostText s) a b c d) :
    s ≠ [] := by
  rintro rfl
  obtain ⟨w,x,y,z,rest,h,-⟩ := h
  simp [hostText, cstr] at h

/-- How a host that a colon ends has been read. -/
theorem host_read (fuel : ℕ) (s u : List T) (host : HostAddress)
    (h : hostPart fuel s = some (some (host,tchar ':'::u))) :
    (Unbracketed (hostRaw s) s u ∧ host = namedHost (hostRaw s)) ∨
      ∃ inner ip, Bracketed inner s u ∧ fromStringIpv6 fuel inner = some (some ip) ∧
        host = .ipAddr ip := by
  unfold hostPart at h
  split_ifs at h with hb
  · right
    obtain ⟨s,rfl⟩ := List.head?_eq_some_iff.mp hb
    rw [List.tail_cons, ipv6_some] at h
    obtain ⟨hin,ht,-,ip,hip,rfl⟩ := h
    obtain ⟨v,hv⟩ := behind_cons _ s hin
    have hs := before_behind (tchar ']') s
    rw [hv, List.tail_cons] at ht
    rw [hv, ← ht] at hs
    refine ⟨before (tchar ']') s,ip,⟨?_,not_mem_before _ s⟩,hip,rfl⟩
    nth_rewrite 1 [← hs]
    simp
  · left
    rw [named_some] at h
    obtain ⟨hafter,hhost⟩ := h
    have hs : s = hostRaw s ++ tchar ':'::u := by
      rw [hafter]
      exact (before_behind _ s).symm
    have hcolon : tchar ':' ∈ s := by
      rw [hs]
      simp
    have hno : tchar ':' ∉ hostRaw s := by
      rw [hostRaw, hostStop, if_pos hcolon]
      exact not_mem_before _ s
    have hnamed : hostRaw s ≠ [] ∧ host = namedHost (hostRaw s) := by
      rcases hhost with ⟨ip,hip,rfl⟩ | ⟨hip,hne,rfl⟩
      · obtain ⟨a,b,c,d,hscan,-⟩ := (fromStringIpv4_some fuel _ ip).mp hip
        exact ⟨scanned_nonempty _ a b c d hscan,(namedHost_ip fuel _ ip hip).symm⟩
      · exact ⟨hne,(namedHost_hostname fuel _ hip).symm⟩
    refine ⟨⟨hs,hnamed.1,?_,hno⟩,hnamed.2⟩
    obtain ⟨c,cs,hc⟩ := List.exists_cons_of_ne_nil hnamed.1
    intro h0
    rw [hs, hc] at hb
    rw [hc] at h0
    exact hb h0

/-- The host is read whatever follows the colon that ends it. -/
theorem unbracketed_host (fuel : ℕ) (host rest : List T) (hne : host ≠ [])
    (hbracket : host.head? ≠ some (tchar '[')) (hcolon : tchar ':' ∉ host) :
    hostPart fuel (host ++ tchar ':'::rest) = some (some (namedHost host,tchar ':'::rest)) := by
  obtain ⟨hraw,hafter⟩ := host_colon host rest hcolon
  have hhead : (host ++ tchar ':'::rest).head? ≠ some (tchar '[') := by
    obtain ⟨c,cs,rfl⟩ := List.exists_cons_of_ne_nil hne
    exact hbracket
  rw [hostPart, if_neg hhead, namedPart, hraw, hafter, fromStringIpv4_eq, namedHost]
  cases inetPton4 (hostText host) with
  | some ip => rfl
  | none => simp only [Option.map_none, Option.map_some, if_neg hne]

theorem bracketed_host (fuel : ℕ) (inner rest : List T) (hclean : tchar ']' ∉ inner) :
    hostPart fuel (tchar '['::(inner ++ [tchar ']']) ++ tchar ':'::rest) =
      (fromStringIpv6 fuel inner).map fun r => r.map fun ip => (.ipAddr ip,tchar ':'::rest) := by
  have htext : tchar '['::(inner ++ [tchar ']']) ++ tchar ':'::rest =
      tchar '['::(inner ++ tchar ']'::(tchar ':'::rest)) := by simp
  obtain ⟨hraw,-⟩ := host_colon ([] : List T) rest (by simp)
  rw [List.nil_append] at hraw
  rw [htext, hostPart, if_pos (List.head?_cons ..), List.tail_cons, ipv6Part, if_pos (by simp),
    before_append _ _ _ hclean, behind_append _ _ _ hclean, before_self, behind_self,
    List.append_nil, List.tail_cons]
  simp only [hraw, if_true]
  cases fromStringIpv6 fuel inner with
  | none => rfl
  | some r => cases r <;> rfl

section Lawful

variable [LawfulCharT T]

/-- A host that is not loose is four numbers or a name. -/
theorem named_taken (host : List T) (h : ¬ Ipv4Literal.Loose host) :
    (∃ a b c d, Dotted host a b c d ∧ namedHost host = .ipAddr (.v4 (ofLe32 a b c d))) ∨
      (fromStringIpv4 0 host = some none ∧ namedHost host = .hostname (host.map CharT.toChar)) := by
  by_cases hip : ∃ ip, fromStringIpv4 0 host = some (some ip)
  · obtain ⟨a,b,c,d,hd⟩ := ((accepted_iff 0 host).mp hip).resolve_left h
    exact .inl ⟨a,b,c,d,hd,namedHost_ip 0 host _ (dotted_accepted 0 host a b c d hd)⟩
  · have hnone : fromStringIpv4 0 host = some none := by
      rw [fromStringIpv4_eq] at hip ⊢
      cases h4 : inetPton4 (hostText host) with
      | none => rfl
      | some a => exact absurd ⟨_,by rw [h4]; rfl⟩ hip
    exact .inr ⟨hnone,namedHost_hostname 0 host hnone⟩

theorem code_tchar (c : Char) (h : c.toNat < 128) : CharT.code (tchar c : T) = c.toNat := by
  have hnat : (UInt8.ofNat c.toNat).toNat = c.toNat :=
    UInt8.toNat_ofNat_of_lt' (Nat.lt_trans h (by decide))
  rw [tchar, LawfulCharT.code_ofChar _ (by rw [hnat]; exact h), hnat]

theorem not_digit (c : Char) (h : c.toNat < 48 ∨ (57 < c.toNat ∧ c.toNat < 128)) :
    ¬ Digit (tchar c : T) := by
  rw [Digit, code_tchar c (by omega)]
  omega

theorem digits_clean (s : List T) (hs : ∀ c ∈ s, Digit c) (c : Char)
    (h : c.toNat < 48 ∨ (57 < c.toNat ∧ c.toNat < 128)) : tchar c ∉ s :=
  fun hin => not_digit c h (hs _ hin)

theorem dotted_clean (text : List T) (a b c d : UInt8) (h : Dotted text a b c d) (x : Char)
    (hx : x.toNat < 48 ∨ (57 < x.toNat ∧ x.toNat < 128)) (hdot : UInt8.ofNat x.toNat ≠ 0x2e) :
    tchar x ∉ text := by
  intro hin
  rcases (dotted_plain text a b c d h).1 _ hin with hd | hd
  · exact not_digit x hx hd
  · exact hdot ((ofChar_inj _ _).mp hd)

theorem dotted_host (text : List T) (a b c d : UInt8) (h : Dotted text a b c d) :
    PlainHost text := by
  have hclean := dotted_clean text a b c d h
  constructor
  · obtain ⟨w,x,y,z,rfl,-⟩ := h
    simp
  · intro hhead
    exact hclean '[' (by decide) (by decide) (List.mem_of_head? hhead)
  · exact hclean ':' (by decide) (by decide)
  · exact hclean '/' (by decide) (by decide)
  · exact hclean '@' (by decide) (by decide)

/-- Each host is taken for what it is written for. -/
theorem host_taken (h : Host T) (rest : List T) (hrest : Ended rest) :
    ∃ N, ∀ fuel, N ≤ fuel → hostPart fuel (h.text ++ rest) = some (some (h.address,rest)) := by
  cases h with
  | dotted text a b c d h =>
    refine ⟨0,fun fuel _ => ?_⟩
    rw [Host.address, ← namedHost_ip 0 text _ (dotted_accepted 0 text a b c d h)]
    exact host_written fuel text rest (dotted_host text a b c d h) hrest
  | ipv6 s a h =>
    obtain ⟨N,hN⟩ := ipv6Text_taken (T := T) s a h
    exact ⟨N,fun fuel hfuel => ipv6_host fuel s a rest h hrest (hN fuel hfuel)⟩
  | name text h other =>
    refine ⟨0,fun fuel _ => ?_⟩
    rw [Host.address, ← namedHost_hostname 0 text other]
    exact host_written fuel text rest h hrest

/-- A text is parsed when its parts are, given enough rounds for the host. -/
theorem written_parsed (text s tail path : List T) (scheme user pwd : Option (List T))
    (h : Host T) (port : Option UInt16) (hs : schemePart text = some (scheme,s))
    (hu : userinfoPart s = (user,pwd,h.text ++ tail)) (he : Ended tail)
    (hp : portPart tail = some (port,path)) : ∃ N, ∀ fuel, N ≤ fuel →
      parse fuel text = some (some ⟨scheme,user,pwd,h.address,port,pathPart path⟩) := by
  obtain ⟨N,hN⟩ := host_taken h tail he
  refine ⟨N,fun fuel hfuel => ?_⟩
  rw [parse_some]
  refine ⟨scheme,s,h.address,tail,port,path,hs,?_,hp,?_⟩
  · rw [hu]
    exact hN fuel hfuel
  · rw [hu]

theorem port_taken (t path : List T) (port : UInt16) (h : PortGrammar.PortText t port)
    (hpath : path = [] ∨ ∃ q, path = tchar '/'::q) :
    portPart (tchar ':'::(t ++ path)) = some (some port,path) := by
  have hlt := port.toNat_lt
  rw [port_written t path (digits_clean t h.digit '/' (by decide)) hpath,
    strToUint_decimal t _ h (by omega), Option.bind_some, if_neg (by omega)]
  simp

/-- No host has a slash or an `@` in it, nor does it end with a colon. -/
theorem host_clean (h : Host T) :
    tchar '/' ∉ h.text ∧ tchar '@' ∉ h.text ∧ ∃ s c, h.text = s ++ [c] ∧ c ≠ tchar ':' := by
  have hplain : ∀ text : List T, PlainHost text →
      tchar '/' ∉ text ∧ tchar '@' ∉ text ∧ ∃ s c, text = s ++ [c] ∧ c ≠ tchar ':' := by
    intro text h
    refine ⟨h.slash,h.userinfo,text.dropLast,text.getLast h.nonempty,
      (List.dropLast_append_getLast h.nonempty).symm,?_⟩
    intro hlast
    exact h.colon (hlast ▸ List.getLast_mem h.nonempty)
  cases h with
  | dotted text a b c d h => exact hplain text (dotted_host text a b c d h)
  | name text h _ => exact hplain text h
  | ipv6 s a h =>
    have hslash := ipv6_clean (T := T) s _ h '/' (by decide) rfl
    have hat := ipv6_clean (T := T) s _ h '@' (by decide) rfl
    refine ⟨?_,?_,tchar '['::strToTstr s,tchar ']',rfl,tchar_ne _ _ (by decide)⟩
    · simp [Host.text, hslash, tchar_ne (T := T) '/' '[' (by decide),
        tchar_ne (T := T) '/' ']' (by decide)]
    · simp [Host.text, hat, tchar_ne (T := T) '@' '[' (by decide),
        tchar_ne (T := T) '@' ']' (by decide)]

end Lawful

end ProxySwiss.HostText
