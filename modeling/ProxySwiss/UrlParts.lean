import ProxySwiss.UrlParser
import ProxySwiss.TextSearch

/-!
# The URL parser without positions

Each part of the parser takes its component off the front of what remains of
the text. The parser that keeps a position from part to part agrees with this
one on every text, so what is accepted can be read off the parts.
-/

set_option autoImplicit false

namespace ProxySwiss.UrlParser
open Memory Text InetPton

variable {T : Type} [CharT T]

def schemePart (url : List T) : Option (Option (List T) × List T) :=
  match find (tstr "://") url 0 with
  | some x => if x = 0 then none else some (some (url.take x),url.drop (x+3))
  | none => some (none,url)

def userinfoPart (s : List T) : Option (List T) × Option (List T) × List T :=
  if tchar '@' ∈ s then
    let unamePwd := before (tchar '@') s
    (some (before (tchar ':') unamePwd),
      if tchar ':' ∈ unamePwd then some (behind (tchar ':') unamePwd).tail else none,
      (behind (tchar '@') s).tail)
  else (none,none,s)

/-- The end of a host is a slash only where no colon follows at all. -/
def hostStop (s : List T) : T := if tchar ':' ∈ s then tchar ':' else tchar '/'

def hostRaw (s : List T) : List T := before (hostStop s) s
def afterHost (s : List T) : List T := behind (hostStop s) s

def ipv6Part (fuel : ℕ) (s : List T) : Option (Option (HostAddress × List T)) :=
  if tchar ']' ∈ s then
    let rest := (behind (tchar ']') s).tail
    (fromStringIpv6 fuel (before (tchar ']') s)).map fun r => r.bind fun ip =>
      if hostRaw rest = [] then some (.ipAddr ip,rest) else none
  else some none

def namedPart (fuel : ℕ) (s : List T) : Option (Option (HostAddress × List T)) :=
  (fromStringIpv4 fuel (hostRaw s)).map fun r => match r with
    | some ip => some (.ipAddr ip,afterHost s)
    | none =>
      if hostRaw s = [] then none
      else some (.hostname ((hostRaw s).map CharT.toChar),afterHost s)

def hostPart (fuel : ℕ) (s : List T) : Option (Option (HostAddress × List T)) :=
  if s.head? = some (tchar '[') then ipv6Part fuel s.tail else namedPart fuel s

def portPart (s : List T) : Option (Option UInt16 × List T) :=
  if s.head? = some (tchar ':') then
    match strToUint (before (tchar '/') s.tail) with
    | none => none
    | some port32 =>
      if port32 > 0xffff then none
      else some (some (UInt16.ofNat port32),behind (tchar '/') s.tail)
  else some (none,s)

def pathPart (s : List T) : List T := if s.head? = some (tchar '/') then s else []

/-- The parser as it takes the components off the text. -/
def parseParts (fuel : ℕ) (url : List T) : Option (Option (UrlParser T)) :=
  match schemePart url with
  | none => some none
  | some (scheme,s) =>
    let (username,password,s) := userinfoPart s
    (hostPart fuel s).map fun r => r.bind fun (host,s) =>
      (portPart s).map fun (port,s) => ⟨scheme,username,password,host,port,pathPart s⟩

theorem ofChar_inj (a b : UInt8) : (CharT.ofChar a : T) = CharT.ofChar b ↔ a = b := by
  constructor
  · intro h
    rw [← CharT.toChar_ofChar (T := T) a, h, CharT.toChar_ofChar]
  · rintro rfl
    rfl

theorem tchar_ne (a b : Char) (h : UInt8.ofNat a.toNat ≠ UInt8.ofNat b.toNat) :
    (tchar a : T) ≠ tchar b := fun he => h ((ofChar_inj _ _).mp he)

theorem charAt_iff (p s : List T) (c : Char) (h : UInt8.ofNat c.toNat ≠ 0) :
    charAt (p ++ s) p.length = tchar c ↔ s.head? = some (tchar c) := by
  rw [charAt_append]
  cases s with
  | nil =>
    simp only [List.headD_nil, List.head?_nil, reduceCtorEq, iff_false]
    exact fun he => h ((ofChar_inj _ _).mp he).symm
  | cons x xs => simp

/-- A position in the text and what remains from it on. -/
def Stands (url : List T) (x : ℕ) (s : List T) : Prop := ∃ p, url = p ++ s ∧ x = p.length

theorem scheme_parts (url : List T) :
    (parseScheme url = none ∧ schemePart url = none) ∨
      ∃ scheme x s, parseScheme url = some (scheme,x) ∧
        schemePart url = some (scheme,s) ∧ Stands url x s := by
  unfold parseScheme schemePart
  cases h : find (tstr "://") url 0 with
  | none => exact .inr ⟨none,0,url,rfl,rfl,[],rfl,rfl⟩
  | some x =>
    by_cases h0 : x = 0
    · exact .inl ⟨if_pos h0,if_pos h0⟩
    · right
      have hx := ((find_some _ _ _ _).mp h).2.2.1.length_le
      have hlen : (tstr "://" : List T).length = 3 := rfl
      rw [hlen, List.length_drop] at hx
      refine ⟨some (url.take x),x+3,url.drop (x+3),if_neg h0,if_neg h0,url.take (x+3),?_,?_⟩
      · exact (List.take_append_drop _ _).symm
      · rw [List.length_take]
        omega

omit [CharT T] in
theorem substr_append (p a s : List T) : substr (p ++ (a ++ s)) p.length a.length = a := by
  simp [substr]

theorem substr_before (p s : List T) (c : T) :
    substr (p ++ s) p.length (before c s).length = before c s := by
  rw [substr, List.drop_left]
  exact (List.prefix_iff_eq_take.mp (List.takeWhile_prefix _)).symm

theorem userinfo_parts (url : List T) (x : ℕ) (s : List T) (h : Stands url x s) :
    ∃ y, parseUserinfo url x = ((userinfoPart s).1,(userinfoPart s).2.1,y) ∧
      Stands url y (userinfoPart s).2.2 := by
  obtain ⟨p,rfl,rfl⟩ := h
  unfold parseUserinfo userinfoPart
  rw [show (tstr "@" : List T) = [tchar '@'] from rfl, find_char]
  by_cases hat : tchar '@' ∈ s
  · obtain ⟨t,ht⟩ := behind_cons _ s hat
    have hs := before_behind (tchar '@') s
    simp only [hat, if_true, ht, List.tail_cons]
    generalize before (tchar '@') s = u at hs ⊢
    rw [ht] at hs
    subst hs
    rw [Nat.add_sub_cancel_left, substr_append]
    have hcolon : find (tstr ":") u 0 = if (tchar ':' : T) ∈ u then
        some (before (tchar ':') u).length else none := by
      rw [show (tstr ":" : List T) = [tchar ':'] from rfl]
      simpa using find_char (tchar ':') [] u
    refine ⟨p.length+u.length+1,?_,p ++ u ++ [tchar '@'],by simp,by simp; omega⟩
    rw [hcolon]
    by_cases hc : (tchar ':' : T) ∈ u
    · obtain ⟨v,hv⟩ := behind_cons _ u hc
      have hu := before_behind (tchar ':') u
      simp only [hc, if_true, hv, List.tail_cons]
      generalize before (tchar ':') u = w at hu ⊢
      rw [hv] at hu
      subst hu
      simp [substr]
    · simp only [hc, if_false]
      rw [before_absent _ u hc]
  · simp only [hat, if_false]
    exact ⟨_,rfl,p,rfl,rfl⟩

theorem hostEnd_eq (p s : List T) :
    hostEnd (p ++ s) p.length =
      if hostStop s ∈ s then some (p.length+(hostRaw s).length) else none := by
  unfold hostEnd hostRaw hostStop
  rw [find_char]
  by_cases hc : (tchar ':' : T) ∈ s
  · simp [hc]
  · simp only [hc, if_false]
    rw [find_char]

theorem hostEnd_getD (p s : List T) :
    (hostEnd (p ++ s) p.length).getD (p ++ s).length = p.length+(hostRaw s).length := by
  rw [hostEnd_eq]
  split_ifs with h
  · rfl
  · rw [hostRaw, before_absent _ s h]
    simp

theorem stands_afterHost (url : List T) (x : ℕ) (s : List T) (h : Stands url x s) :
    Stands url (x+(hostRaw s).length) (afterHost s) := by
  obtain ⟨p,rfl,rfl⟩ := h
  refine ⟨p ++ hostRaw s,?_,by simp⟩
  rw [List.append_assoc]
  exact congrArg _ (before_behind _ s).symm

/-- Where the parts of a host agree, each step of the one is a step of the other. -/
def HostAgrees (url : List T) (r : Option (Option (HostAddress × ℕ)))
    (r' : Option (Option (HostAddress × List T))) : Prop :=
  (r = none ∧ r' = none) ∨ (r = some none ∧ r' = some none) ∨
    ∃ host x s, r = some (some (host,x)) ∧ r' = some (some (host,s)) ∧ Stands url x s

theorem ipv6_parts (fuel : ℕ) (p s : List T) :
    HostAgrees (p ++ tchar '['::s) (parseIpv6Host fuel (p ++ tchar '['::s) p.length)
      (ipv6Part fuel s) := by
  unfold parseIpv6Host ipv6Part
  rw [show p ++ tchar '['::s = (p ++ [tchar '[']) ++ s by simp,
    show p.length+1 = (p ++ [(tchar '[' : T)]).length by simp, find_char]
  generalize p ++ [(tchar '[' : T)] = q
  by_cases hb : (tchar ']' : T) ∈ s
  · obtain ⟨rest,hrest⟩ := behind_cons _ s hb
    have hs := before_behind (tchar ']') s
    rw [hrest] at hs
    have hend := hostEnd_getD (q ++ before (tchar ']') s ++ [(tchar ']' : T)]) rest
    rw [show q ++ before (tchar ']') s ++ [(tchar ']' : T)] ++ rest = q ++ s by
        conv_rhs => rw [← hs]
        simp,
      show (q ++ before (tchar ']') s ++ [(tchar ']' : T)]).length =
        q.length+(before (tchar ']') s).length+1 by simp; omega] at hend
    simp only [hb, if_true, hrest, List.tail_cons, Nat.add_sub_cancel_left, substr_before, hend]
    cases fromStringIpv6 fuel (before (tchar ']') s) with
    | none => exact .inl ⟨rfl,rfl⟩
    | some r =>
      cases r with
      | none => exact .inr (.inl ⟨rfl,rfl⟩)
      | some ip =>
        by_cases h0 : hostRaw rest = []
        · right; right
          refine ⟨.ipAddr ip,q.length+(before (tchar ']') s).length+1,rest,by simp [h0],
            by simp [h0],q ++ before (tchar ']') s ++ [tchar ']'],?_,by simp; omega⟩
          conv_lhs => rw [← hs]
          simp
        · exact .inr (.inl ⟨by simp [h0],by simp [h0]⟩)
  · exact .inr (.inl ⟨by simp [hb],by simp [hb]⟩)

theorem named_parts (fuel : ℕ) (url : List T) (x : ℕ) (s : List T) (h : Stands url x s) :
    HostAgrees url (parseNamedHost fuel url x) (namedPart fuel s) := by
  have hrest := stands_afterHost url x s h
  obtain ⟨p,rfl,rfl⟩ := h
  have hparse : parseNamedHost fuel (p ++ s) p.length =
      (fromStringIpv4 fuel (hostRaw s)).map fun r => match r with
        | some ip => some (.ipAddr ip,p.length+(hostRaw s).length)
        | none => if hostRaw s = [] then none
          else some (.hostname ((hostRaw s).map CharT.toChar),p.length+(hostRaw s).length) := by
    have hraw : (match hostEnd (p ++ s) p.length with
        | some z => substr (p ++ s) p.length (z-p.length)
        | none => (p ++ s).drop p.length) = hostRaw s := by
      rw [hostEnd_eq]
      by_cases hin : hostStop s ∈ s
      · simp only [if_pos hin, Nat.add_sub_cancel_left]
        exact substr_before p s _
      · simp only [if_neg hin]
        rw [hostRaw, before_absent _ s hin, List.drop_left]
    exact congrArg (fun raw => (fromStringIpv4 fuel raw).map fun r => match r with
      | some ip => some (HostAddress.ipAddr ip,p.length+raw.length)
      | none => if raw = [] then none
        else some (.hostname (raw.map CharT.toChar),p.length+raw.length)) hraw
  rw [hparse]
  unfold namedPart
  cases fromStringIpv4 fuel (hostRaw s) with
  | none => exact .inl ⟨rfl,rfl⟩
  | some r =>
    cases r with
    | some ip => exact .inr (.inr ⟨_,_,_,rfl,rfl,hrest⟩)
    | none =>
      by_cases h0 : hostRaw s = []
      · exact .inr (.inl ⟨by simp [h0],by simp [h0]⟩)
      · exact .inr (.inr ⟨_,_,_,congrArg some (if_neg h0),congrArg some (if_neg h0),hrest⟩)

theorem host_parts (fuel : ℕ) (url : List T) (x : ℕ) (s : List T) (h : Stands url x s) :
    HostAgrees url (parseHost fuel url x) (hostPart fuel s) := by
  have hnamed := named_parts fuel url x s h
  obtain ⟨p,rfl,rfl⟩ := h
  unfold parseHost hostPart
  rw [ite_congr (propext (charAt_iff p s '[' (by decide))) (fun _ => rfl) (fun _ => rfl)]
  split_ifs with hb
  · obtain ⟨t,rfl⟩ := List.head?_eq_some_iff.mp hb
    exact ipv6_parts fuel p t
  · exact hnamed

/-- A search that begins at another character. -/
theorem find_behind (c d : T) (p t : List T) (h : c ≠ d) : find [c] (p ++ d::t) p.length =
    if c ∈ t then some ((p ++ [d]).length+(before c t).length) else none := by
  have hbefore : before c (d::t) = d::before c t :=
    before_append c [d] t (by simpa using h)
  rw [find_char, hbefore]
  simp only [List.mem_cons, h, false_or, List.length_cons, List.length_append, List.length_nil]
  split_ifs
  · congr 1
    omega
  · rfl

theorem port_parts (url : List T) (x : ℕ) (s : List T) (h : Stands url x s) :
    (parsePort url x = none ∧ portPart s = none) ∨
      ∃ port y t, parsePort url x = some (port,y) ∧ portPart s = some (port,t) ∧
        Stands url y t := by
  obtain ⟨p,rfl,rfl⟩ := h
  unfold parsePort portPart
  rw [ite_congr (propext (charAt_iff p s ':' (by decide))) (fun _ => rfl) (fun _ => rfl)]
  split_ifs with hc
  · obtain ⟨t,rfl⟩ := List.head?_eq_some_iff.mp hc
    have hurl : p ++ tchar ':'::t = (p ++ [tchar ':']) ++ t := by simp
    have hlen : p.length+1 = (p ++ [(tchar ':' : T)]).length := by simp
    rw [find_behind _ _ p t (tchar_ne '/' ':' (by decide)), hurl, hlen]
    generalize p ++ [(tchar ':' : T)] = q
    have hstands : Stands (q ++ t) (if tchar '/' ∈ t then q.length+(before (tchar '/') t).length
        else (q ++ t).length) (behind (tchar '/') t) := by
      refine ⟨q ++ before (tchar '/') t,?_,?_⟩
      · rw [List.append_assoc, before_behind]
      · split_ifs with hs
        · simp
        · rw [before_absent _ t hs]
    by_cases hs : (tchar '/' : T) ∈ t
    · simp only [hs, if_true, Nat.add_sub_cancel_left, substr_before, Option.getD_some,
        List.tail_cons] at hstands ⊢
      cases strToUint (before (tchar '/') t) with
      | none => exact .inl ⟨rfl,rfl⟩
      | some v =>
        by_cases hv : v > 0xffff
        · exact .inl ⟨if_pos hv,if_pos hv⟩
        · exact .inr ⟨_,_,_,if_neg hv,if_neg hv,hstands⟩
    · simp only [hs, if_false, List.drop_left, Option.getD_none, List.tail_cons,
        before_absent _ t hs] at hstands ⊢
      cases strToUint t with
      | none => exact .inl ⟨rfl,rfl⟩
      | some v =>
        by_cases hv : v > 0xffff
        · exact .inl ⟨if_pos hv,if_pos hv⟩
        · exact .inr ⟨_,_,_,if_neg hv,if_neg hv,hstands⟩
  · exact .inr ⟨none,_,s,rfl,rfl,p,rfl,rfl⟩

theorem path_parts (url : List T) (x : ℕ) (s : List T) (h : Stands url x s) :
    parsePath url x = pathPart s := by
  obtain ⟨p,rfl,rfl⟩ := h
  unfold parsePath pathPart
  rw [ite_congr (propext (charAt_iff p s '/' (by decide))) (fun _ => rfl) (fun _ => rfl),
    List.drop_left]

/-- The two parsers agree on every text. -/
theorem parse_parts (fuel : ℕ) (url : List T) : parse fuel url = parseParts fuel url := by
  unfold parse parseParts
  rcases scheme_parts url with ⟨h,h'⟩ | ⟨scheme,x,s,h,h',hs⟩
  · rw [h, h']
  · obtain ⟨y,hu,hy⟩ := userinfo_parts url x s hs
    rw [h, h']
    simp only [hu]
    generalize (userinfoPart s).2.2 = t at hy ⊢
    rcases host_parts fuel url y t hy with ⟨h,h'⟩ | ⟨h,h'⟩ | ⟨host,z,r,h,h',hz⟩
    · rw [h, h']
      rfl
    · rw [h, h']
      rfl
    · rw [h, h']
      simp only [Option.map_some, Option.bind_some]
      rcases port_parts url z r hz with ⟨h,h'⟩ | ⟨port,w,q,h,h',hw⟩
      · rw [h, h']
        rfl
      · rw [h, h']
        simp only [Option.map_some, path_parts url w q hw]

/-- A text is accepted exactly if each part accepts what the one before it left. -/
theorem parse_some (fuel : ℕ) (url : List T) (up : UrlParser T) :
    parse fuel url = some (some up) ↔ ∃ scheme s host t port r,
      schemePart url = some (scheme,s) ∧
      hostPart fuel (userinfoPart s).2.2 = some (some (host,t)) ∧
      portPart t = some (port,r) ∧
      up = ⟨scheme,(userinfoPart s).1,(userinfoPart s).2.1,host,port,pathPart r⟩ := by
  rw [parse_parts]
  unfold parseParts
  constructor
  · intro h
    cases hs : schemePart url with
    | none => simp [hs] at h
    | some p =>
      simp only [hs, Option.map_eq_some_iff, Option.bind_eq_some_iff] at h
      obtain ⟨r,hr,⟨host,t⟩,rfl,⟨port,q⟩,hport,hup⟩ := h
      exact ⟨p.1,p.2,host,t,port,q,rfl,hr,hport,hup.symm⟩
  · rintro ⟨scheme,s,host,t,port,r,hs,hh,hp,rfl⟩
    simp [hs, hh, hp]

theorem named_some (fuel : ℕ) (s t : List T) (host : HostAddress) :
    namedPart fuel s = some (some (host,t)) ↔ t = afterHost s ∧
      ((∃ ip, fromStringIpv4 fuel (hostRaw s) = some (some ip) ∧ host = .ipAddr ip) ∨
        fromStringIpv4 fuel (hostRaw s) = some none ∧ hostRaw s ≠ [] ∧
          host = .hostname ((hostRaw s).map CharT.toChar)) := by
  unfold namedPart
  cases fromStringIpv4 fuel (hostRaw s) with
  | none => simp
  | some r =>
    cases r with
    | some ip =>
      simp only [Option.map_some, Option.some.injEq, Prod.mk.injEq, reduceCtorEq, false_and,
        or_false]
      constructor
      · rintro ⟨rfl,rfl⟩
        exact ⟨rfl,ip,rfl,rfl⟩
      · rintro ⟨rfl,_,rfl,rfl⟩
        exact ⟨rfl,rfl⟩
    | none =>
      by_cases h0 : hostRaw s = []
      · simp [h0]
      · simp only [Option.map_some, if_neg h0, Option.some.injEq, Prod.mk.injEq, reduceCtorEq,
          false_and, exists_false, false_or, true_and]
        constructor
        · rintro ⟨rfl,rfl⟩
          exact ⟨rfl,h0,rfl⟩
        · rintro ⟨rfl,-,rfl⟩
          exact ⟨rfl,rfl⟩

theorem ipv6_some (fuel : ℕ) (s t : List T) (host : HostAddress) :
    ipv6Part fuel s = some (some (host,t)) ↔ tchar ']' ∈ s ∧ t = (behind (tchar ']') s).tail ∧
      hostRaw t = [] ∧ ∃ ip, fromStringIpv6 fuel (before (tchar ']') s) = some (some ip) ∧
        host = .ipAddr ip := by
  unfold ipv6Part
  by_cases hb : tchar ']' ∈ s
  · simp only [hb, if_true, true_and, Option.map_eq_some_iff, Option.bind_eq_some_iff,
      Option.ite_none_right_eq_some, Option.some.injEq, Prod.mk.injEq]
    constructor
    · rintro ⟨r,hr,ip,rfl,hraw,rfl,rfl⟩
      exact ⟨rfl,hraw,ip,hr,rfl⟩
    · rintro ⟨rfl,hraw,ip,hr,rfl⟩
      exact ⟨_,hr,ip,rfl,hraw,rfl,rfl⟩
  · simp [hb]

theorem hostname_some (fuel : ℕ) (s t : List T) (name : Bytes) :
    hostPart fuel s = some (some (.hostname name,t)) ↔ s.head? ≠ some (tchar '[') ∧
      t = afterHost s ∧ fromStringIpv4 fuel (hostRaw s) = some none ∧ hostRaw s ≠ [] ∧
      name = (hostRaw s).map CharT.toChar := by
  unfold hostPart
  split_ifs with hb
  · simp [ipv6_some, hb]
  · simp [named_some, hb]

theorem slash_ne_colon : (tchar '/' : T) ≠ tchar ':' := tchar_ne _ _ (by decide)

/-- The host of a text ends at its end, or at the colon or the slash before it. -/
theorem afterHost_head (s : List T) :
    afterHost s = [] ∨ ∃ t, afterHost s = tchar ':'::t ∨ afterHost s = tchar '/'::t := by
  unfold afterHost hostStop
  rcases behind_head (if tchar ':' ∈ s then tchar ':' else tchar '/') s with h | ⟨t,ht⟩
  · exact .inl h
  · right
    refine ⟨t,?_⟩
    split_ifs at ht ⊢ with hc
    · exact .inl ht
    · exact .inr ht

/-- What the port leaves is the path, where the host has ended at a separator. -/
theorem port_path (t r : List T) (port : Option UInt16) (h : portPart t = some (port,r))
    (ht : t = [] ∨ ∃ u, t = tchar ':'::u ∨ t = tchar '/'::u) : pathPart r = r := by
  have hbehind : ∀ u : List T, pathPart (behind (tchar '/') u) = behind (tchar '/') u := by
    intro u
    unfold pathPart
    rcases behind_head (tchar '/') u with h | ⟨v,hv⟩
    · simp [h]
    · simp [hv]
  rcases ht with rfl | ⟨u,rfl | rfl⟩
  · obtain ⟨-,rfl⟩ : none = port ∧ [] = r := by simpa [portPart] using h
    rfl
  · unfold portPart at h
    simp only [List.head?_cons, if_true, List.tail_cons] at h
    split at h
    · exact absurd h (by simp)
    · split_ifs at h
      obtain ⟨-,rfl⟩ : _ ∧ behind (tchar '/') u = r := by simpa using h
      exact hbehind u
  · obtain ⟨-,rfl⟩ : none = port ∧ tchar '/'::u = r := by
      simpa [portPart, slash_ne_colon] using h
    simp [pathPart]

/-! Each part of a text that was put together from its components. -/

theorem scheme_absent (s : List T) (h : ¬ tstr "://" <:+: s) :
    schemePart s = some (none,s) := by
  rw [schemePart, (find_absent _ _).mpr h]

theorem no_scheme (s : List T) (h : tchar '/' ∉ s) : ¬ tstr "://" <:+: s :=
  fun hin => h (hin.subset (show tchar '/' ∈ [tchar ':',tchar '/',tchar '/'] by simp))

theorem scheme_written (scheme rest : List T) (hne : scheme ≠ []) (hc : tchar ':' ∉ scheme) :
    schemePart (scheme ++ (tstr "://" ++ rest)) = some (some scheme,rest) := by
  have hfind : find (tstr "://") (scheme ++ (tstr "://" ++ rest)) 0 = some scheme.length := by
    rw [find_some]
    refine ⟨Nat.zero_le _,by simp,by rw [List.drop_left]; exact ⟨rest,rfl⟩,?_⟩
    rintro j - hj ⟨t,ht⟩
    obtain ⟨c,cs,hcs⟩ := List.exists_cons_of_ne_nil
      (show scheme.drop j ≠ [] by simp only [ne_eq, List.drop_eq_nil_iff]; omega)
    rw [List.drop_append_of_le_length (by omega), hcs] at ht
    have hhead : tchar ':' = c := (List.cons.inj ht).1
    exact hc (List.drop_subset j scheme (by simp [hcs, hhead]))
  have hdrop : (scheme ++ (tstr "://" ++ rest)).drop (scheme.length+3) = rest := by
    rw [← List.drop_drop, List.drop_left]
    exact List.drop_left' rfl
  simp only [schemePart, hfind, List.length_eq_zero_iff, if_neg hne, hdrop, List.take_left]

theorem userinfo_absent (s : List T) (h : tchar '@' ∉ s) : userinfoPart s = (none,none,s) :=
  if_neg h

theorem userinfo_written (u rest : List T) (h : tchar '@' ∉ u) :
    userinfoPart (u ++ tchar '@'::rest) = (some (before (tchar ':') u),
      if tchar ':' ∈ u then some (behind (tchar ':') u).tail else none,rest) := by
  unfold userinfoPart
  rw [if_pos (by simp), before_append _ u _ h, behind_append _ u _ h]
  simp

/-- A scheme that is not there is not read, so that nothing looks like one. -/
theorem scheme_none (url s : List T) (h : schemePart url = some (none,s)) :
    s = url ∧ ¬ tstr "://" <:+: url := by
  unfold schemePart at h
  cases hf : find (tstr "://") url 0 with
  | none =>
    rw [hf] at h
    exact ⟨(Prod.mk.inj (Option.some.inj h)).2.symm,(find_absent _ _).mp hf⟩
  | some x =>
    simp only [hf] at h
    split_ifs at h
    exact absurd (Prod.mk.inj (Option.some.inj h)).1 (by simp)

theorem user_none (s : List T) (h : (userinfoPart s).1 = none) : tchar '@' ∉ s := by
  intro hin
  simp [userinfoPart, hin] at h

/-- A host in front of a colon, whatever else is in it. -/
theorem host_colon (h rest : List T) (hcolon : tchar ':' ∉ h) :
    hostRaw (h ++ tchar ':'::rest) = h ∧ afterHost (h ++ tchar ':'::rest) = tchar ':'::rest := by
  unfold hostRaw afterHost hostStop
  rw [if_pos (by simp), before_append _ h _ hcolon, behind_append _ h _ hcolon]
  simp

/-- What may follow a host so that it ends there. -/
def Ended (rest : List T) : Prop :=
  rest = [] ∨ (∃ t, rest = tchar ':'::t) ∨ ∃ t, rest = tchar '/'::t ∧ tchar ':' ∉ t

theorem host_ended (h rest : List T) (hcolon : tchar ':' ∉ h) (hslash : tchar '/' ∉ h)
    (hrest : Ended rest) : hostRaw (h ++ rest) = h ∧ afterHost (h ++ rest) = rest := by
  rcases hrest with rfl | ⟨t,rfl⟩ | ⟨t,rfl,ht⟩
  · unfold hostRaw afterHost hostStop
    rw [List.append_nil, if_neg hcolon]
    exact ⟨before_absent _ h hslash,behind_absent _ h hslash⟩
  · exact host_colon h t hcolon
  · unfold hostRaw afterHost hostStop
    rw [if_neg (by simp [hcolon, ht, slash_ne_colon.symm]), before_append _ h _ hslash,
      behind_append _ h _ hslash]
    simp

/-- A host that begins without a bracket and leaves the separators alone. -/
structure PlainHost (h : List T) : Prop where
  nonempty : h ≠ []
  bracket : h.head? ≠ some (tchar '[')
  colon : tchar ':' ∉ h
  slash : tchar '/' ∉ h
  userinfo : tchar '@' ∉ h

def namedHost (h : List T) : HostAddress :=
  match inetPton4 (hostText h) with
  | some a => .ipAddr (.v4 a)
  | none => .hostname (h.map CharT.toChar)

theorem cstr_cstr (s : Bytes) : cstr (cstr s) = cstr s := by
  simp [cstr, List.takeWhile_takeWhile]

theorem fromStringIpv4_eq (fuel : ℕ) (str : List T) :
    fromStringIpv4 fuel str = some ((inetPton4 (hostText str)).map .v4) := by
  have hcstr : ∀ src : Bytes, inetPton4 src = inetPton4 (cstr src) := by
    intro src
    rw [inetPton4, inetPton4, cstr_cstr]
  unfold fromStringIpv4 inetPtonWide inetPton
  rw [hcstr, hostText_wide]

theorem plain_head (h rest : List T) (hh : PlainHost h) :
    (h ++ rest).head? ≠ some (tchar '[') := by
  obtain ⟨c,cs,rfl⟩ := List.exists_cons_of_ne_nil hh.nonempty
  exact hh.bracket

theorem host_written (fuel : ℕ) (h rest : List T) (hh : PlainHost h) (hrest : Ended rest) :
    hostPart fuel (h ++ rest) = some (some (namedHost h,rest)) := by
  have hbracket := plain_head h rest hh
  obtain ⟨hraw,hafter⟩ := host_ended h rest hh.colon hh.slash hrest
  rw [hostPart, if_neg hbracket, namedPart, hraw, hafter, fromStringIpv4_eq, namedHost]
  cases inetPton4 (hostText h) with
  | some ip => rfl
  | none => simp only [Option.map_none, Option.map_some, if_neg hh.nonempty]

theorem port_absent (s : List T) (h : s.head? ≠ some (tchar ':')) : portPart s = some (none,s) :=
  if_neg h

/-- A colon where the port may stand begins one. -/
theorem port_colon (t r : List T) (port : Option UInt16)
    (h : portPart (tchar ':'::t) = some (port,r)) : ∃ v, port = some v := by
  unfold portPart at h
  rw [if_pos (List.head?_cons ..)] at h
  split at h
  · exact absurd h (by simp)
  · split_ifs at h
    exact ⟨_,(Prod.mk.inj (Option.some.inj h)).1.symm⟩

theorem port_written (t path : List T) (ht : tchar '/' ∉ t)
    (hpath : path = [] ∨ ∃ p, path = tchar '/'::p) :
    portPart (tchar ':'::(t ++ path)) = (strToUint t).bind fun v =>
      if v > 0xffff then none else some (some (UInt16.ofNat v),path) := by
  have hparts : before (tchar '/') (t ++ path) = t ∧ behind (tchar '/') (t ++ path) = path := by
    rw [before_append _ t _ ht, behind_append _ t _ ht]
    rcases hpath with rfl | ⟨p,rfl⟩ <;> simp
  unfold portPart
  rw [if_pos (List.head?_cons ..), List.tail_cons, hparts.1, hparts.2]
  cases strToUint t <;> rfl

end ProxySwiss.UrlParser
