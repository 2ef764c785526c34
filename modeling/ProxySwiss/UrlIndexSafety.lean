import ProxySwiss.Checked
import ProxySwiss.UrlParts

/-!
# The accesses of the URL parser

The parser once more, with every index, every position of a substring and every
difference checked, and with the substrings that it cuts out. The conversions of
a host to an address are total functions here. No check ever fails, and what
has been cut out makes up the text.
-/

set_option autoImplicit false

namespace ProxySwiss.UrlIndexSafety
open Memory Text InetPton UrlParser Checked

variable {T : Type} [CharT T]

/-- What stands in front of an at sign. -/
structure Userinfo (T : Type) where
  unamePwd : List T
  username : List T
  password : Option (List T)

structure Host (T : Type) where
  bracketed : Bool
  hostRaw : List T
  host : HostAddress

structure Port (T : Type) where
  portRaw : List T
  port : UInt16

/-- The substrings of a text that has been accepted. -/
structure Pieces (T : Type) where
  scheme : Option (List T)
  userinfo : Option (Userinfo T)
  host : Host T
  port : Option (Port T)
  path : List T

def urlAt (url : List T) (x : ℕ) : Outcome T := index url (CharT.ofChar 0) x

def schemePiece (url : List T) : Outcome (Option (List T) × ℕ) :=
  match find (tstr "://") url 0 with
  | some x =>
    if x = 0 then .rejected
    else do
      let scheme ← substr url 0 x
      return (some scheme,x+3)
  | none => return (none,0)

def userinfoPiece (url : List T) (x : ℕ) : Outcome (Option (Userinfo T) × ℕ) :=
  match find (tstr "@") url x with
  | some y => do
    let unamePwd ← substr url x (← sub y x)
    match find (tstr ":") unamePwd 0 with
    | some z => do
      let username ← substr unamePwd 0 z
      let password ← substrFrom unamePwd (z+1)
      return (some ⟨unamePwd,username,some password⟩,y+1)
    | none => return (some ⟨unamePwd,unamePwd,none⟩,y+1)
  | none => return (none,x)

/-- The text behind the colon of a port, up to the slash of a path. -/
def portRawPiece (url : List T) (x : ℕ) : Outcome (List T × ℕ) :=
  match find [tchar '/'] url x with
  | some z => do
    let portRaw ← substr url (x+1) (← sub z (x+1))
    return (portRaw,z)
  | none => do
    let portRaw ← substrFrom url (x+1)
    return (portRaw,url.length)

def portPiece (url : List T) (x : ℕ) : Outcome (Option (Port T) × ℕ) := do
  if (← urlAt url x) = tchar ':' then
    let (portRaw,y) ← portRawPiece url x
    match strToUint portRaw with
    | none => .rejected
    | some port32 =>
      if port32 > 0xffff then .rejected
      else return (some ⟨portRaw,UInt16.ofNat port32⟩,y)
  else return (none,x)

def pathPiece (url : List T) (x : ℕ) : Outcome (List T) := do
  if (← urlAt url x) = tchar '/' then substrFrom url x else return []

def hostRawPiece (url : List T) (x : ℕ) : Outcome (List T) :=
  match hostEnd url x with
  | some z => do
    let numChars ← sub z x
    substr url x numChars
  | none => substrFrom url x

section Conversions

/-! The conversions `from_string_ipv4` and `from_string_ipv6`. -/

variable (ipv4 ipv6 : List T → Option IpAddress)

def ipv6Piece (url : List T) (x : ℕ) : Outcome (Host T × ℕ) :=
  match find [tchar ']'] url (x+1) with
  | none => .rejected
  | some z => do
    let hostRaw ← substr url (x+1) (← sub z (x+1))
    match ipv6 hostRaw with
    | none => .rejected
    | some ip =>
      if z+1 ≠ (hostEnd url (z+1)).getD url.length then .rejected
      else return (⟨true,hostRaw,.ipAddr ip⟩,z+1)

def namedPiece (url : List T) (x : ℕ) : Outcome (Host T × ℕ) := do
  let hostRaw ← hostRawPiece url x
  match ipv4 hostRaw with
  | some ip => return (⟨false,hostRaw,.ipAddr ip⟩,x+hostRaw.length)
  | none =>
    if hostRaw = [] then .rejected
    else return (⟨false,hostRaw,.hostname (hostRaw.map CharT.toChar)⟩,x+hostRaw.length)

def hostPiece (url : List T) (x : ℕ) : Outcome (Host T × ℕ) := do
  if (← urlAt url x) = tchar '[' then ipv6Piece ipv6 url x else namedPiece ipv4 url x

def parsePieces (url : List T) : Outcome (Pieces T) := do
  let (scheme,x) ← schemePiece url
  let (userinfo,x) ← userinfoPiece url x
  let (host,x) ← hostPiece ipv4 ipv6 url x
  let (port,x) ← portPiece url x
  let path ← pathPiece url x
  return ⟨scheme,userinfo,host,port,path⟩

end Conversions

example : (parsePieces (fun _ => none) (fun _ => none) (ascii "a://b:c@d:80/e")).result.map
    Pieces.path = some (ascii "/e") := by decide

/-! What each search finds, and what each part cuts off. -/

/-- A text that is found divides what lies behind the position of the search. -/
theorem find_cut (needle url : List T) (x z : ℕ) (h : find needle url x = some z) :
    x ≤ z ∧ z+needle.length ≤ url.length ∧
      url.drop x = Text.substr url x (z-x) ++ (needle ++ url.drop (z+needle.length)) := by
  obtain ⟨hx,hz,⟨t,ht⟩,-⟩ := (find_some needle url x z).mp h
  have hlen := congrArg List.length ht
  rw [List.length_append, List.length_drop] at hlen
  have hdrop : url.drop (z+needle.length) = t := by
    rw [← List.drop_drop, ← ht, List.drop_left]
  refine ⟨hx,by omega,?_⟩
  rw [hdrop, ht, Text.substr]
  nth_rewrite 1 [← List.take_append_drop (z-x) (url.drop x)]
  rw [List.drop_drop, Nat.add_sub_cancel' hx]

omit [CharT T] in
theorem substr_length (url : List T) (x z : ℕ) (hx : x ≤ z) (hz : z ≤ url.length) :
    (Text.substr url x (z-x)).length = z-x := by
  rw [Text.substr, List.length_take, List.length_drop]
  omega

theorem urlAt_inside (url : List T) (x : ℕ) (h : x ≤ url.length) :
    urlAt url x = .done (charAt url x) := index_inside url _ x h

/-- A character that does not end the text is the first of what remains. -/
theorem charAt_head (url : List T) (x : ℕ) (c : Char) (hc : UInt8.ofNat c.toNat ≠ 0)
    (hx : x ≤ url.length) :
    charAt url x = tchar c ↔ (url.drop x).head? = some (tchar c) := by
  have hlen : (url.take x).length = x := by
    rw [List.length_take]
    omega
  have hiff := charAt_iff (url.take x) (url.drop x) c hc
  rwa [List.take_append_drop, hlen] at hiff

theorem charAt_cut (url : List T) (x : ℕ) (c : Char) (hc : UInt8.ofNat c.toNat ≠ 0)
    (hx : x ≤ url.length) (h : charAt url x = tchar c) :
    x < url.length ∧ url.drop x = tchar c::url.drop (x+1) := by
  obtain ⟨t,ht⟩ := List.head?_eq_some_iff.mp ((charAt_head url x c hc hx).mp h)
  have hlen := congrArg List.length ht
  rw [List.length_drop, List.length_cons] at hlen
  refine ⟨by omega,?_⟩
  rw [← List.drop_drop, ht]
  rfl

/-- A part takes a text off what lies behind `x`, and goes on at `y`. -/
structure Cut (url : List T) (x : ℕ) (text : List T) (y : ℕ) : Prop where
  inside : y ≤ url.length
  text : url.drop x = text ++ url.drop y

def schemeText (scheme : Option (List T)) : List T :=
  match scheme with
  | some s => s ++ tstr "://"
  | none => []

def Userinfo.text (u : Userinfo T) : List T := u.unamePwd ++ [tchar '@']

/-- The name and the password are what the at sign ends. -/
def Userinfo.Parts (u : Userinfo T) : Prop :=
  u.unamePwd = u.username ++ (match u.password with
    | some password => tchar ':'::password
    | none => [])

def Host.text (h : Host T) : List T :=
  if h.bracketed then tchar '['::(h.hostRaw ++ [tchar ']']) else h.hostRaw

def Port.text (p : Port T) : List T := tchar ':'::p.portRaw

theorem scheme_meets (url : List T) : Meets (schemePiece url) (parseScheme url = none) fun r =>
    parseScheme url = some r ∧ Cut url 0 (schemeText r.1) r.2 := by
  unfold schemePiece parseScheme
  cases h : find (tstr "://") url 0 with
  | none => exact ⟨rfl,Nat.zero_le _,rfl⟩
  | some x =>
    obtain ⟨-,hlen,hcut⟩ := find_cut _ url 0 x h
    have h3 : (tstr "://" : List T).length = 3 := rfl
    by_cases h0 : x = 0
    · simp [if_pos h0]
    · simp only [if_neg h0, substr_inside url 0 x (Nat.zero_le _), done_bind]
      refine ⟨rfl,?_,?_⟩
      · rwa [h3] at hlen
      · rw [h3] at hcut
        exact hcut.trans (List.append_assoc _ _ _).symm

theorem userinfo_meets (url : List T) (x : ℕ) (hx : x ≤ url.length) :
    Meets (userinfoPiece url x) False fun r =>
      parseUserinfo url x = (r.1.map Userinfo.username,r.1.bind Userinfo.password,r.2) ∧
      Cut url x (r.1.elim [] Userinfo.text) r.2 ∧ ∀ u ∈ r.1, u.Parts := by
  unfold userinfoPiece parseUserinfo
  cases h : find (tstr "@") url x with
  | none => exact ⟨rfl,⟨hx,rfl⟩,by simp⟩
  | some y =>
    obtain ⟨hxy,hlen,hcut⟩ := find_cut _ url x y h
    have h1 : (tstr "@" : List T).length = 1 := rfl
    rw [h1] at hlen hcut
    have hrest : Cut url x (Text.substr url x (y-x) ++ [tchar '@']) (y+1) :=
      ⟨hlen,by rw [hcut, List.append_assoc]; rfl⟩
    simp only [sub_inside y x hxy, done_bind, substr_inside url x _ hx]
    unfold Text.substr at hrest ⊢
    generalize (url.drop x).take (y-x) = unamePwd at hrest ⊢
    cases hc : find (tstr ":") unamePwd 0 with
    | none => exact ⟨rfl,hrest,by simp [Userinfo.Parts]⟩
    | some z =>
      obtain ⟨-,hz,hcolon⟩ := find_cut _ unamePwd 0 z hc
      have h1 : (tstr ":" : List T).length = 1 := rfl
      rw [h1] at hz hcolon
      simp only [substr_inside unamePwd 0 z (Nat.zero_le _), substrFrom_inside unamePwd _ hz,
        done_bind]
      refine ⟨rfl,hrest,?_⟩
      intro u hu
      obtain rfl := Option.some.inj hu
      exact hcolon

/-- A host ends at a separator, or with the text. -/
def Separated (s : List T) : Prop :=
  s = [] ∨ s.head? = some (tchar ':') ∨ s.head? = some (tchar '/')

/-- The end of a host is at a separator behind it. -/
theorem hostEnd_cut (url : List T) (x z : ℕ) (h : hostEnd url x = some z) :
    x ≤ z ∧ z < url.length ∧ url.drop x = Text.substr url x (z-x) ++ url.drop z ∧
      Separated (url.drop z) := by
  have hcut : ∀ c : T, find [c] url x = some z → x ≤ z ∧ z < url.length ∧
      url.drop x = Text.substr url x (z-x) ++ url.drop z ∧ (url.drop z).head? = some c := by
    intro c hc
    obtain ⟨-,-,⟨t,ht⟩,-⟩ := (find_some _ _ _ _).mp hc
    obtain ⟨hx,hz,hdrop⟩ := find_cut _ url x z hc
    refine ⟨hx,hz,?_,by rw [← ht]; rfl⟩
    rw [hdrop, List.append_right_inj, ← List.drop_drop, ← ht]
    rfl
  unfold hostEnd at h
  cases hc : find [tchar ':'] url x with
  | none =>
    rw [hc] at h
    obtain ⟨hx,hz,hdrop,hhead⟩ := hcut _ h
    exact ⟨hx,hz,hdrop,.inr (.inr hhead)⟩
  | some y =>
    rw [hc] at h
    obtain ⟨hx,hz,hdrop,hhead⟩ := hcut _ (hc.trans h)
    exact ⟨hx,hz,hdrop,.inr (.inl hhead)⟩

theorem hostRaw_meets (url : List T) (x : ℕ) (hx : x ≤ url.length) :
    Meets (hostRawPiece url x) False fun raw =>
      (match hostEnd url x with
        | some z => Text.substr url x (z-x)
        | none => url.drop x) = raw ∧
      Cut url x raw (x+raw.length) ∧ Separated (url.drop (x+raw.length)) := by
  unfold hostRawPiece
  cases h : hostEnd url x with
  | none =>
    have hend : x+(url.drop x).length = url.length := by
      rw [List.length_drop]
      omega
    simp only [substrFrom_inside url x hx]
    refine ⟨rfl,?_,?_⟩ <;> rw [hend]
    · exact ⟨Nat.le_refl _,by simp⟩
    · exact .inl (List.drop_length ..)
  | some z =>
    obtain ⟨hxz,hz,hcut,hsep⟩ := hostEnd_cut url x z h
    have hlen := substr_length url x z hxz (Nat.le_of_lt hz)
    have hend : x+(Text.substr url x (z-x)).length = z := by omega
    simp only [sub_inside z x hxz, done_bind, substr_inside url x _ hx]
    change _ = _ ∧ Cut url x (Text.substr url x (z-x)) (x+(Text.substr url x (z-x)).length) ∧
      Separated (url.drop (x+(Text.substr url x (z-x)).length))
    rw [hend]
    exact ⟨rfl,⟨Nat.le_of_lt hz,hcut⟩,hsep⟩

/-- A port ends at a slash, or with the text. -/
def Slashed (s : List T) : Prop := s = [] ∨ s.head? = some (tchar '/')

theorem portRaw_meets (url : List T) (x : ℕ) (hx : x+1 ≤ url.length)
    (hc : charAt url x = tchar ':') :
    Meets (portRawPiece url x) False fun r =>
      parsePort url x = (match strToUint r.1 with
        | none => none
        | some port32 =>
          if port32 > 0xffff then none else some (some (UInt16.ofNat port32),r.2)) ∧
      Cut url (x+1) r.1 r.2 ∧ Slashed (url.drop r.2) := by
  unfold portRawPiece
  rw [parsePort, if_pos hc]
  cases h : find [tchar '/'] url x with
  | none =>
    simp only [substrFrom_inside url _ hx, done_bind]
    exact ⟨rfl,⟨Nat.le_refl _,by simp⟩,.inl (List.drop_length ..)⟩
  | some z =>
    obtain ⟨hxz,hzl,⟨t,ht⟩,hfirst⟩ := (find_some _ url x z).mp h
    -- the slash is not where the colon is
    have hne : z ≠ x := by
      rintro rfl
      have hhead := (charAt_cut url z ':' (by decide) hzl hc).2
      rw [← ht] at hhead
      exact tchar_ne '/' ':' (by decide) (List.cons.inj hhead).1
    have hfrom : find [tchar '/'] url (x+1) = some z :=
      (find_some _ url (x+1) z).mpr ⟨by omega,hzl,⟨t,ht⟩,fun w hw => hfirst w (by omega)⟩
    obtain ⟨hxz',-,hcut⟩ := find_cut _ url (x+1) z hfrom
    simp only [sub_inside z (x+1) hxz', done_bind, substr_inside url (x+1) _ hx]
    refine ⟨rfl,⟨hzl,?_⟩,.inr ?_⟩
    · change url.drop (x+1) = Text.substr url (x+1) (z-(x+1)) ++ url.drop z
      rw [hcut, List.append_right_inj, ← List.drop_drop, ← ht]
      rfl
    · rw [← ht]
      rfl

theorem port_meets (url : List T) (x : ℕ) (hx : x ≤ url.length)
    (hsep : Separated (url.drop x)) :
    Meets (portPiece url x) (parsePort url x = none) fun r =>
      parsePort url x = some (r.1.map Port.port,r.2) ∧
      Cut url x (r.1.elim [] Port.text) r.2 ∧ Slashed (url.drop r.2) := by
  rw [portPiece, urlAt_inside url x hx, done_bind]
  split_ifs with hc
  · obtain ⟨hlt,hhead⟩ := charAt_cut url x ':' (by decide) hx hc
    refine (portRaw_meets url x hlt hc).bind False.elim ?_
    rintro ⟨raw,y⟩ ⟨hparse,hcut,hend⟩
    dsimp only at hparse hcut hend ⊢
    rw [hparse]
    cases strToUint raw with
    | none => rfl
    | some port32 =>
      dsimp only
      split_ifs with hbig
      · rfl
      · refine ⟨rfl,⟨hcut.inside,?_⟩,hend⟩
        rw [hhead, hcut.text]
        rfl
  · refine ⟨?_,⟨hx,rfl⟩,?_⟩
    · rw [parsePort, if_neg hc]
      rfl
    · rcases hsep with hempty | hcolon | hslash
      · exact .inl hempty
      · exact absurd ((charAt_head url x ':' (by decide) hx).mpr hcolon) hc
      · exact .inr hslash

theorem path_meets (url : List T) (x : ℕ) (hx : x ≤ url.length) (hend : Slashed (url.drop x)) :
    Meets (pathPiece url x) False fun path => parsePath url x = path ∧ url.drop x = path := by
  rw [pathPiece, urlAt_inside url x hx, done_bind, parsePath]
  split_ifs with hc
  · rw [substrFrom_inside url x hx]
    exact ⟨rfl,rfl⟩
  · exact ⟨rfl,hend.resolve_right fun h => hc ((charAt_head url x '/' (by decide) hx).mpr h)⟩

section Conversions

variable (ipv4 ipv6 : List T → Option IpAddress)

/-- The conversions of the model are the given ones, as far as they are asked. -/
structure Converts (fuel : ℕ) (url : List T) (x : ℕ) : Prop where
  ipv4 : ∀ str, fromStringIpv4 fuel str = some (ipv4 str)
  ipv6 : charAt url x = tchar '[' → ∀ z, find [tchar ']'] url (x+1) = some z →
    fromStringIpv6 fuel (Text.substr url (x+1) (z-(x+1))) =
      some (ipv6 (Text.substr url (x+1) (z-(x+1))))

/-- A host that has been read, and where the parser is behind it. -/
structure HostRead (url : List T) (x : ℕ) (r : Host T × ℕ) : Prop where
  agrees : ∀ fuel, Converts ipv4 ipv6 fuel url x →
    parseHost fuel url x = some (some (r.1.host,r.2))
  cut : Cut url x r.1.text r.2
  separated : Separated (url.drop r.2)

theorem ipv6_meets (url : List T) (x : ℕ) (hx : x ≤ url.length) (hb : charAt url x = tchar '[') :
    Meets (ipv6Piece ipv6 url x)
      (∀ fuel, Converts ipv4 ipv6 fuel url x → parseHost fuel url x = some none)
      (HostRead ipv4 ipv6 url x) := by
  obtain ⟨hlt,hhead⟩ := charAt_cut url x '[' (by decide) hx hb
  unfold ipv6Piece
  cases h : find [tchar ']'] url (x+1) with
  | none =>
    intro fuel hfuel
    rw [parseHost, if_pos hb, parseIpv6Host, h]
  | some z =>
    obtain ⟨hxz,hz,hcut⟩ := find_cut _ url (x+1) z h
    simp only [List.length_singleton] at hz hcut
    have hparse : ∀ fuel, Converts ipv4 ipv6 fuel url x → parseHost fuel url x =
        some ((ipv6 (Text.substr url (x+1) (z-(x+1)))).bind fun ip =>
          if z+1 ≠ (hostEnd url (z+1)).getD url.length then none
          else some (.ipAddr ip,z+1)) := by
      intro fuel hfuel
      rw [parseHost, if_pos hb, parseIpv6Host, h]
      dsimp only
      rw [hfuel.ipv6 hb z h]
      rfl
    simp only [sub_inside z (x+1) hxz, done_bind, substr_inside url (x+1) _ hlt]
    unfold Text.substr at hcut hparse
    generalize (url.drop (x+1)).take (z-(x+1)) = raw at hcut hparse ⊢
    cases hip : ipv6 raw with
    | none =>
      intro fuel hfuel
      rw [hparse fuel hfuel, hip]
      rfl
    | some ip =>
      by_cases hend : z+1 ≠ (hostEnd url (z+1)).getD url.length
      · simp only [if_pos hend]
        intro fuel hfuel
        rw [hparse fuel hfuel, hip, Option.bind_some, if_pos hend]
      · simp only [if_neg hend]
        refine ⟨fun fuel hfuel => ?_,⟨hz,?_⟩,?_⟩
        · rw [hparse fuel hfuel, hip, Option.bind_some, if_neg hend]
        · rw [hhead, hcut]
          simp [Host.text]
        · cases he : hostEnd url (z+1) with
          | none =>
            rw [he, Option.getD_none, not_not] at hend
            left
            rw [hend]
            exact List.drop_length ..
          | some w =>
            rw [he, Option.getD_some, not_not] at hend
            rw [hend]
            exact (hostEnd_cut url _ w he).2.2.2

theorem named_meets (url : List T) (x : ℕ) (hx : x ≤ url.length) (hb : charAt url x ≠ tchar '[') :
    Meets (namedPiece ipv4 url x)
      (∀ fuel, Converts ipv4 ipv6 fuel url x → parseHost fuel url x = some none)
      (HostRead ipv4 ipv6 url x) := by
  refine (hostRaw_meets url x hx).bind False.elim ?_
  rintro raw ⟨hraw,hcut,hsep⟩
  have hparse : ∀ fuel, Converts ipv4 ipv6 fuel url x → parseHost fuel url x =
      some (match ipv4 raw with
        | some ip => some (.ipAddr ip,x+raw.length)
        | none => if raw = [] then none
          else some (.hostname (raw.map CharT.toChar),x+raw.length)) := by
    intro fuel hfuel
    have hraw4 := hfuel.ipv4 raw
    rw [parseHost, if_neg hb, parseNamedHost]
    subst hraw
    exact congrArg (Option.map _) hraw4
  cases hip : ipv4 raw with
  | some ip =>
    refine ⟨fun fuel hfuel => ?_,hcut,hsep⟩
    rw [hparse fuel hfuel, hip]
  | none =>
    dsimp only
    by_cases h0 : raw = []
    · rw [if_pos h0]
      intro fuel hfuel
      rw [hparse fuel hfuel, hip]
      exact congrArg some (if_pos h0)
    · rw [if_neg h0]
      refine ⟨fun fuel hfuel => ?_,hcut,hsep⟩
      rw [hparse fuel hfuel, hip]
      exact congrArg some (if_neg h0)

theorem host_meets (url : List T) (x : ℕ) (hx : x ≤ url.length) :
    Meets (hostPiece ipv4 ipv6 url x)
      (∀ fuel, Converts ipv4 ipv6 fuel url x → parseHost fuel url x = some none)
      (HostRead ipv4 ipv6 url x) := by
  rw [hostPiece, urlAt_inside url x hx, done_bind]
  split_ifs with hb
  · exact ipv6_meets ipv4 ipv6 url x hx hb
  · exact named_meets ipv4 ipv6 url x hx hb

/-- The substrings and their separators, one behind the other. -/
def Pieces.text (p : Pieces T) : List T :=
  schemeText p.scheme ++ (p.userinfo.elim [] Userinfo.text ++ (p.host.text ++
    (p.port.elim [] Port.text ++ p.path)))

/-- What the parser keeps of the substrings. -/
def Pieces.toParser (p : Pieces T) : UrlParser T :=
  ⟨p.scheme,p.userinfo.map Userinfo.username,p.userinfo.bind Userinfo.password,p.host.host,
    p.port.map Port.port,p.path⟩

/-- The conversions agree where the parser asks for an address. -/
def ConvertsHost (fuel : ℕ) (url : List T) : Prop :=
  ∀ x, hostStart url = some x → Converts ipv4 ipv6 fuel url x

theorem parsePieces_meets (url : List T) :
    Meets (parsePieces ipv4 ipv6 url)
      (∀ fuel, ConvertsHost ipv4 ipv6 fuel url → parse fuel url = some none) fun p =>
        p.text = url ∧ (∀ u ∈ p.userinfo, u.Parts) ∧
        ∀ fuel, ConvertsHost ipv4 ipv6 fuel url → parse fuel url = some (some p.toParser) := by
  refine (scheme_meets url).bind (fun h fuel _ => by rw [parse, h]) ?_
  rintro ⟨scheme,x⟩ ⟨hscheme,hcut⟩
  refine (userinfo_meets url x hcut.inside).bind False.elim ?_
  rintro ⟨userinfo,y⟩ ⟨huserinfo,hcut',hparts⟩
  dsimp only at hcut hcut' huserinfo
  have hstart : hostStart url = some y := by
    rw [hostStart, hscheme, Option.map_some, huserinfo]
  have hparse : ∀ fuel, parse fuel url = (parseHost fuel url y).map fun r =>
      r.bind fun h => (parsePort url h.2).map fun p =>
        ⟨scheme,userinfo.map Userinfo.username,userinfo.bind Userinfo.password,h.1,p.1,
          parsePath url p.2⟩ := by
    intro fuel
    rw [parse, hscheme]
    dsimp only
    rw [huserinfo]
  refine (host_meets ipv4 ipv6 url y hcut'.inside).bind ?_ ?_
  · intro h fuel hfuel
    rw [hparse, h fuel (hfuel y hstart)]
    rfl
  · rintro ⟨host,z⟩ hhost
    refine (port_meets url z hhost.cut.inside hhost.separated).bind ?_ ?_
    · intro h fuel hfuel
      rw [hparse, hhost.agrees fuel (hfuel y hstart), Option.map_some, Option.bind_some]
      dsimp only
      rw [h]
      rfl
    · rintro ⟨port,w⟩ ⟨hport,hcut'',hend⟩
      refine (path_meets url w hcut''.inside hend).bind False.elim ?_
      rintro path ⟨hpath,hrest⟩
      dsimp only at hcut'' hport
      refine ⟨?_,hparts,fun fuel hfuel => ?_⟩
      · calc Pieces.text ⟨scheme,userinfo,host,port,path⟩
            = schemeText scheme ++ (userinfo.elim [] Userinfo.text ++ (host.text ++
                (port.elim [] Port.text ++ url.drop w))) := by rw [hrest]; rfl
          _ = schemeText scheme ++ url.drop x := by
            rw [← hcut''.text, ← hhost.cut.text, ← hcut'.text]
          _ = url := hcut.text.symm
      · rw [hparse, hhost.agrees fuel (hfuel y hstart), Option.map_some, Option.bind_some]
        dsimp only
        rw [hport, Option.map_some]
        dsimp only
        rw [hpath]
        rfl

/-- No access of the parser is out of range, whatever the text and the conversions of hosts,
and the substrings of an accepted text are the text. -/
theorem url_index_safety (url : List T) :
    (∀ f, parsePieces ipv4 ipv6 url ≠ .fault f) ∧
    ∀ p, parsePieces ipv4 ipv6 url = .done p →
      p.text = url ∧ ∀ u ∈ p.userinfo, u.Parts := by
  have hmeets := parsePieces_meets ipv4 ipv6 url
  refine ⟨hmeets.no_fault,fun p hp => ?_⟩
  rw [hp] at hmeets
  exact ⟨hmeets.1,hmeets.2.1⟩

end Conversions

/-- All the parts stand in the text "a://b:c@d:80/e". -/
theorem url_index_safety_parts :
    ∃ p, parsePieces (fun _ => none) (fun _ => none) (ascii "a://b:c@d:80/e") = .done p ∧
      p.userinfo.isSome ∧ p.port.isSome ∧ p.text = ascii "a://b:c@d:80/e" :=
  ⟨_,rfl,rfl,rfl,((url_index_safety (fun _ => none) (fun _ => none) _).2 _ rfl).1⟩

/-- The parser returns what the checked parser makes of the same conversions. -/
theorem parse_parsePieces (fuel : ℕ) (url : List T) (h : (parse fuel url).isSome) :
    parse fuel url = some ((parsePieces (fun str => (fromStringIpv4 fuel str).join)
      (fun str => (fromStringIpv6 fuel str).join) url).result.map Pieces.toParser) := by
  have hconverts : ConvertsHost (fun str => (fromStringIpv4 fuel str).join)
      (fun str => (fromStringIpv6 fuel str).join) fuel url := by
    intro x hx
    refine ⟨fun str => rfl,fun hb z hz => ?_⟩
    have hbracketed : bracketed url = some (Text.substr url (x+1) (z-(x+1))) := by
      rw [bracketed, hx]
      dsimp only
      rw [if_pos hb, hz, Option.map_some]
    obtain ⟨ip,hip⟩ := Option.isSome_iff_exists.mp ((parse_isSome fuel url).mp h _ hbracketed)
    rw [hip]
    rfl
  have hmeets := parsePieces_meets (fun str => (fromStringIpv4 fuel str).join)
    (fun str => (fromStringIpv6 fuel str).join) url
  cases hp : parsePieces (fun str => (fromStringIpv4 fuel str).join)
      (fun str => (fromStringIpv6 fuel str).join) url with
  | fault f => exact absurd hp (hmeets.no_fault f)
  | rejected =>
    rw [hp] at hmeets
    exact hmeets fuel hconverts
  | done p =>
    rw [hp] at hmeets
    exact hmeets.2.2 fuel hconverts

end ProxySwiss.UrlIndexSafety
