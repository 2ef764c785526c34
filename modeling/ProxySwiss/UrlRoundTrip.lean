import Mathlib.Data.Bool.AllAny
import ProxySwiss.HostText

/-!
# Reading back a text that was put together

A text is put together from a scheme, user information, a host, a port and a
path. The parser searches for each separator in all that remains of the text.
A path that holds a separator of a component that is absent is taken for it,
and a path without these is read back, whatever else it holds.
-/

set_option autoImplicit false

namespace ProxySwiss.UrlRoundTrip
open Memory Text InetPton UrlParser HostText PortGrammar

variable {T : Type} [CharT T]

/-- The components, each as the grammar has it. -/
structure Pieces (T : Type) [CharT T] where
  scheme : Option (List T)
  user : Option (List T × Option (List T))
  host : Host T
  port : Option (List T × UInt16)
  path : List T
  scheme_ok : ∀ s ∈ scheme, s ≠ [] ∧ ∀ c ∈ [tchar ':',tchar '/',tchar '@'], c ∉ s
  user_ok : ∀ u ∈ user, (∀ c ∈ [tchar ':',tchar '@',tchar '/'], c ∉ u.1) ∧
    ∀ pwd ∈ u.2, ∀ c ∈ [tchar '@',tchar '/'], c ∉ pwd
  port_ok : ∀ p ∈ port, PortText p.1 p.2
  path_ok : path = [] ∨ ∃ q, path = tchar '/'::q

def schemeText : Option (List T) → List T
  | none => []
  | some s => s ++ tstr "://"

def userText : Option (List T × Option (List T)) → List T
  | none => []
  | some (u,none) => u ++ [tchar '@']
  | some (u,some pwd) => u ++ tchar ':'::(pwd ++ [tchar '@'])

def portText : Option (List T × UInt16) → List T
  | none => []
  | some (t,_) => tchar ':'::t

namespace Pieces

def tail (p : Pieces T) : List T := portText p.port ++ p.path
def authority (p : Pieces T) : List T := p.host.text ++ p.tail
def behindScheme (p : Pieces T) : List T := userText p.user ++ p.authority
def text (p : Pieces T) : List T := schemeText p.scheme ++ p.behindScheme

/-- A host and a port, and no path behind them. -/
def endpoint (scheme : Option (List T)) (user : Option (List T × Option (List T)))
    (host : Host T) (text : List T) (port : UInt16)
    (hs : ∀ s ∈ scheme, s ≠ [] ∧ ∀ c ∈ [tchar ':',tchar '/',tchar '@'], c ∉ s)
    (hu : ∀ u ∈ user, (∀ c ∈ [tchar ':',tchar '@',tchar '/'], c ∉ u.1) ∧
      ∀ pwd ∈ u.2, ∀ c ∈ [tchar '@',tchar '/'], c ∉ pwd)
    (hp : PortText text port) : Pieces T where
  scheme := scheme
  user := user
  host := host
  port := some (text,port)
  path := []
  scheme_ok := hs
  user_ok := hu
  port_ok := by simpa using hp
  path_ok := .inl rfl

end Pieces

/-- The host that was written: a name has the same code units. -/
def IsHost (h : Host T) (r : HostAddress) : Prop :=
  match h with
  | .name text _ _ => ∃ name : Bytes, r = .hostname name ∧ name.map CharT.code = text.map CharT.code
  | .dotted _ a b c d _ => r = .ipAddr (.v4 (ofLe32 a b c d))
  | .ipv6 _ a _ => r = .ipAddr (.v6 a)

structure ReadBack (p : Pieces T) (up : UrlParser T) : Prop where
  scheme : up.scheme = p.scheme
  username : up.username = p.user.map Prod.fst
  password : up.password = p.user.bind Prod.snd
  host : IsHost p.host up.host
  port : up.port = p.port.map Prod.snd
  path : up.path = p.path

/-- The text is accepted, and its components are those it was put together from. -/
def RoundTrip (p : Pieces T) : Prop :=
  ∃ N, ∀ fuel, N ≤ fuel → ∃ up, parse fuel p.text = some (some up) ∧ ReadBack p up

/-- The path holds no separator of an absent component, and each character of a
name fits in a narrow one. -/
structure Clear (p : Pieces T) : Prop where
  scheme : p.scheme = none → ¬ tstr "://" <:+: p.path
  user : p.user = none → tchar '@' ∉ p.path
  port : p.port = none → tchar ':' ∉ p.path
  narrow : ∀ text h other, p.host = .name text h other → ∀ c ∈ text, CharT.code c < 256

/-- A search for `://` passes over what has neither a slash nor a colon at its
end. -/
theorem infix_behind (a s : List T) (c : T) (hslash : tchar '/' ∉ a ++ [c]) (hc : c ≠ tchar ':')
    (h : tstr "://" <:+: a ++ [c] ++ s) : tstr "://" <:+: s := by
  obtain ⟨x,y,h⟩ := h
  change x ++ [tchar ':',tchar '/',tchar '/'] ++ y = _ at h
  rw [List.append_assoc, List.append_eq_append_iff] at h
  rcases h with ⟨u,hu,hs⟩ | ⟨u,rfl,hs⟩
  · -- the colon stands inside the first part, and so does a slash or its end
    rcases List.eq_nil_or_concat u with rfl | ⟨v,d,rfl⟩
    · rw [List.nil_append] at hs
      exact ⟨[],y,hs⟩
    · exfalso
      obtain ⟨rfl,rfl⟩ : a = x ++ v ∧ c = d := by
        rw [List.concat_eq_append, ← List.append_assoc] at hu
        simpa using List.append_inj' hu rfl
      rcases v with - | ⟨e,v⟩
      · have hd := congrArg List.head? hs
        simp only [List.concat_eq_append, List.nil_append, List.cons_append, List.head?_cons,
          Option.some.injEq] at hd
        exact hc hd.symm
      · rcases v with - | ⟨f,v⟩
        · simp only [List.concat_eq_append, List.cons_append, List.nil_append,
            List.cons.injEq] at hs
          exact hslash (by simp [hs.2.1])
        · simp only [List.concat_eq_append, List.cons_append, List.cons.injEq] at hs
          exact hslash (by simp [hs.2.1])
  · exact ⟨u,y,by rw [List.append_assoc]; exact hs.symm⟩

section Lawful

variable [LawfulCharT T]

theorem digits_no (p : Pieces T) (c : Char)
    (hc : c.toNat < 48 ∨ (57 < c.toNat ∧ c.toNat < 128)) (hcolon : UInt8.ofNat c.toNat ≠ 0x3a) :
    tchar c ∉ portText p.port := by
  cases hp : p.port with
  | none => simp [portText]
  | some q =>
    have hdigit := (p.port_ok q hp).digit
    intro hin
    rcases List.mem_cons.mp hin with h | h
    · exact hcolon ((ofChar_inj _ _).mp h)
    · exact digits_clean q.1 hdigit c hc h

/-- What stands in front of the path ends with neither a slash nor a colon. -/
theorem front_last (p : Pieces T) : ∃ s c, p.host.text ++ portText p.port = s ++ [c] ∧
    c ≠ tchar ':' := by
  cases hp : p.port with
  | none =>
    obtain ⟨-,-,s,c,hs,hc⟩ := host_clean p.host
    exact ⟨s,c,by rw [portText, List.append_nil, hs],hc⟩
  | some q =>
    have hport := p.port_ok q hp
    refine ⟨p.host.text ++ tchar ':'::q.1.dropLast,q.1.getLast hport.nonempty,?_,?_⟩
    · rw [portText, List.append_assoc, List.cons_append,
        List.dropLast_append_getLast hport.nonempty]
    · rintro h
      exact not_digit ':' (by decide) (h ▸ hport.digit _ (List.getLast_mem hport.nonempty))

omit [LawfulCharT T] in
theorem user_slash (p : Pieces T) : tchar '/' ∉ userText p.user := by
  have hat : (tchar '/' : T) ≠ tchar '@' := tchar_ne _ _ (by decide)
  cases hu : p.user with
  | none => simp [userText]
  | some u =>
    obtain ⟨u,pwd⟩ := u
    obtain ⟨hclean,hpwd⟩ := p.user_ok _ hu
    have hslash := hclean (tchar '/') (by simp)
    cases pwd with
    | none => simpa [userText, hat] using hslash
    | some pwd =>
      have hpwd := hpwd pwd rfl (tchar '/') (by simp)
      simpa [userText, hat, slash_ne_colon, hpwd] using hslash

theorem scheme_in_path (p : Pieces T) (h : tstr "://" <:+: p.behindScheme) :
    tstr "://" <:+: p.path := by
  obtain ⟨s,c,hs,hc⟩ := front_last p
  have hsplit : p.behindScheme = (userText p.user ++ s) ++ [c] ++ p.path := by
    rw [Pieces.behindScheme, Pieces.authority, Pieces.tail, List.append_assoc _ s,
      ← hs]
    simp only [List.append_assoc]
  rw [hsplit] at h
  refine infix_behind _ _ c ?_ hc h
  rw [List.append_assoc, ← hs]
  have h1 := (host_clean p.host).1
  have h2 := digits_no p '/' (by decide) (by decide)
  simp [user_slash p, h1, h2]

theorem scheme_read (p : Pieces T) (h : p.scheme = none → ¬ tstr "://" <:+: p.path) :
    schemePart p.text = some (p.scheme,p.behindScheme) := by
  unfold Pieces.text
  cases hs : p.scheme with
  | none => exact scheme_absent _ fun hin => h hs (scheme_in_path p hin)
  | some s =>
    obtain ⟨hne,hclean⟩ := p.scheme_ok s hs
    rw [schemeText, List.append_assoc]
    exact scheme_written s _ hne (hclean _ (by simp))

theorem at_in_path (p : Pieces T) (h : tchar '@' ∈ p.authority) : tchar '@' ∈ p.path := by
  simp only [Pieces.authority, Pieces.tail, List.mem_append] at h
  rcases h with h | h | h
  · exact absurd h (host_clean p.host).2.1
  · exact absurd h (digits_no p '@' (by decide) (by decide))
  · exact h

theorem user_read (p : Pieces T) (h : p.user = none → tchar '@' ∉ p.path) :
    userinfoPart p.behindScheme = (p.user.map Prod.fst,p.user.bind Prod.snd,p.authority) := by
  unfold Pieces.behindScheme
  cases hu : p.user with
  | none => exact userinfo_absent _ fun hin => h hu (at_in_path p hin)
  | some u =>
    obtain ⟨u,pwd⟩ := u
    obtain ⟨hclean,hpwd⟩ := p.user_ok _ hu
    have hcolon : tchar ':' ∉ u := hclean _ (by simp)
    have hat : tchar '@' ∉ u := hclean _ (by simp)
    have hne : (tchar '@' : T) ≠ tchar ':' := tchar_ne _ _ (by decide)
    cases pwd with
    | none =>
      rw [userText, List.append_assoc, List.singleton_append, userinfo_written u _ hat,
        before_absent _ u hcolon, if_neg hcolon]
      rfl
    | some pwd =>
      have hpwd : tchar '@' ∉ pwd := hpwd pwd rfl _ (by simp)
      have hsplit : userText (some (u,some pwd)) ++ p.authority =
          (u ++ tchar ':'::pwd) ++ tchar '@'::p.authority := by simp [userText]
      rw [hsplit, userinfo_written _ _ (by simp [hat, hpwd, hne]), before_append _ u _ hcolon,
        behind_append _ u _ hcolon, if_pos (by simp)]
      simp

omit [LawfulCharT T] in
theorem tail_ended (p : Pieces T) (h : p.port = none → tchar ':' ∉ p.path) : Ended p.tail := by
  unfold Pieces.tail
  cases hp : p.port with
  | some q => exact .inr (.inl ⟨_,rfl⟩)
  | none =>
    rcases p.path_ok with h0 | ⟨q,hq⟩
    · exact .inl (by simp [portText, h0])
    · exact .inr (.inr ⟨q,by simp [portText, hq],fun hin => h hp (by simp [hq, hin])⟩)

theorem port_read (p : Pieces T) : portPart p.tail = some (p.port.map Prod.snd,p.path) := by
  unfold Pieces.tail
  cases hp : p.port with
  | none =>
    rw [portText, List.nil_append]
    apply port_absent
    rcases p.path_ok with h0 | ⟨q,hq⟩
    · simp [h0]
    · simp [hq, slash_ne_colon]
  | some q => exact port_taken q.1 p.path q.2 (p.port_ok q hp) p.path_ok

omit [LawfulCharT T] in
theorem path_read (p : Pieces T) : pathPart p.path = p.path := by
  unfold pathPart
  rcases p.path_ok with h | ⟨q,h⟩ <;> simp [h]

theorem codes_narrow (text : List T) : (text.map CharT.toChar).map CharT.code =
    text.map CharT.code ↔ ∀ c ∈ text, CharT.code c < 256 := by
  rw [List.map_map, List.map_inj_left]
  refine forall₂_congr fun c _ => ?_
  rw [Function.comp_apply, LawfulCharT.toChar_code]
  change (UInt8.ofNat (CharT.code c)).toNat = _ ↔ _
  rw [UInt8.toNat_ofNat']
  omega

/-- The components are found, given enough rounds for the host. -/
theorem pieces_parsed (p : Pieces T) (hs : p.scheme = none → ¬ tstr "://" <:+: p.path)
    (hu : p.user = none → tchar '@' ∉ p.path) (hp : p.port = none → tchar ':' ∉ p.path) :
    ∃ N, ∀ fuel, N ≤ fuel → parse fuel p.text = some (some ⟨p.scheme,p.user.map Prod.fst,
      p.user.bind Prod.snd,p.host.address,p.port.map Prod.snd,p.path⟩) := by
  obtain ⟨N,hN⟩ := written_parsed p.text p.behindScheme p.tail p.path _ _ _ p.host _
    (scheme_read p hs) (user_read p hu) (tail_ended p hp) (port_read p)
  rw [path_read p] at hN
  exact ⟨N,hN⟩

theorem clear_read (p : Pieces T) (h : Clear p) : RoundTrip p := by
  obtain ⟨N,hN⟩ := pieces_parsed p h.scheme h.user h.port
  refine ⟨N,fun fuel hfuel => ⟨_,hN fuel hfuel,rfl,rfl,rfl,?_,rfl,rfl⟩⟩
  cases hhost : p.host with
  | dotted => rfl
  | ipv6 => rfl
  | name text plain other =>
    exact ⟨_,rfl,(codes_narrow text).mpr (h.narrow text plain other hhost)⟩

/-- A colon in the path of a text without a port begins one, or is refused. -/
theorem port_none (fuel : ℕ) (p : Pieces T) (host : HostAddress) (t r : List T)
    (hp : p.port = none) (hhost : hostPart fuel p.authority = some (some (host,t)))
    (hport : portPart t = some (none,r)) : tchar ':' ∉ p.path := by
  intro hin
  have hauth : p.authority = p.host.text ++ p.path := by
    rw [Pieces.authority, Pieces.tail, hp, portText, List.nil_append]
  rw [hauth] at hhost
  have hcolon : ∀ s : List T, afterHost (s ++ p.path) = behind (tchar ':') (s ++ p.path) := by
    intro s
    rw [afterHost, hostStop, if_pos (by simp [hin])]
  have hnamed : ∀ text : List T, PlainHost text →
      hostPart fuel (text ++ p.path) = some (some (host,t)) → False := by
    intro text hplain hhost
    rw [hostPart, if_neg (plain_head text _ hplain), named_some] at hhost
    obtain ⟨u,hu⟩ := behind_cons (tchar ':') (text ++ p.path) (by simp [hin])
    rw [hhost.1, hcolon, hu] at hport
    obtain ⟨v,hv⟩ := port_colon u r none hport
    exact absurd hv (by simp)
  cases hh : p.host with
  | dotted text a b c d h =>
    rw [hh] at hhost
    exact hnamed text (dotted_host text a b c d h) hhost
  | name text h other =>
    rw [hh] at hhost
    exact hnamed text h hhost
  | ipv6 s a h =>
    have hb := ipv6_clean (T := T) s _ h ']' (by decide) rfl
    have htext : p.host.text ++ p.path = tchar '['::(strToTstr s ++ tchar ']'::p.path) := by
      simp [hh, Host.text]
    rw [htext, hostPart, if_pos (List.head?_cons ..), List.tail_cons, ipv6_some,
      behind_append _ _ _ hb, behind_self, List.tail_cons] at hhost
    obtain ⟨-,rfl,hraw,-⟩ := hhost
    rcases p.path_ok with h0 | ⟨q,hq⟩
    · simp [h0] at hin
    · rw [hostRaw, hostStop, if_pos hin, hq] at hraw
      have hne := before_append (tchar ':') [tchar '/'] q (by simpa using slash_ne_colon.symm)
      rw [List.singleton_append] at hne
      rw [hne] at hraw
      exact absurd hraw (by simp)

theorem read_clear (p : Pieces T) (h : RoundTrip p) : Clear p := by
  obtain ⟨N,hN⟩ := h
  obtain ⟨up,hup,hread⟩ := hN N (Nat.le_refl N)
  obtain ⟨scheme,s,host,t,port,r,hs,hh,hp,rfl⟩ := (parse_some N p.text up).mp hup
  obtain ⟨rfl,huser,-,hhost,rfl,-⟩ := hread
  have hscheme : p.scheme = none → ¬ tstr "://" <:+: p.path := by
    intro h0 hin
    rw [h0] at hs
    refine (scheme_none _ s hs).2 ?_
    have hsuffix : p.path <:+ p.text := by
      simp only [Pieces.text, Pieces.behindScheme, Pieces.authority, Pieces.tail,
        ← List.append_assoc]
      exact List.suffix_append _ _
    exact hin.trans hsuffix.isInfix
  obtain rfl : p.behindScheme = s := by
    rw [scheme_read p hscheme] at hs
    exact (Prod.mk.inj (Option.some.inj hs)).2
  have hat : p.user = none → tchar '@' ∉ p.path := by
    intro h0 hin
    simp only [h0, Option.map_none] at huser
    refine user_none _ huser ?_
    simp [Pieces.behindScheme, Pieces.authority, Pieces.tail, hin]
  refine ⟨hscheme,hat,fun h0 => ?_,?_⟩
  · rw [user_read p hat] at hh
    rw [h0] at hp
    exact port_none N p host t r h0 hh hp
  · intro text plain other hname c hc
    rw [hname] at hhost
    obtain ⟨name,-,hcodes⟩ := hhost
    have hin : CharT.code c ∈ name.map CharT.code := by
      rw [hcodes]
      exact List.mem_map_of_mem hc
    obtain ⟨b,-,hb⟩ := List.mem_map.mp hin
    rw [← hb]
    exact b.toNat_lt

/-- A text is read back exactly if its path holds no separator of a component
that is absent, and its name has no character that is too wide. -/
theorem url_round_trip (p : Pieces T) : RoundTrip p ↔ Clear p := by
  constructor
  · exact read_clear p
  · exact clear_read p

end Lawful

/-- All of the parts. -/
def everyPiece : Pieces UInt8 where
  scheme := some (ascii "a")
  user := some (ascii "b",some (ascii "c"))
  host := .name (ascii "h") ⟨by decide,by decide,by decide,by decide,by decide⟩ rfl
  port := some (ascii "80",80)
  path := ascii "/x"
  scheme_ok := by
    rintro s ⟨⟩
    exact ⟨by decide,List.all_iff_forall_prop.mp rfl⟩
  user_ok := by
    rintro u ⟨⟩
    refine ⟨List.all_iff_forall_prop.mp rfl,?_⟩
    rintro pwd ⟨⟩
    exact List.all_iff_forall_prop.mp rfl
  port_ok := by
    rintro p ⟨⟩
    exact ⟨by decide,digits_all _ rfl,rfl⟩
  path_ok := .inr ⟨ascii "x",rfl⟩

theorem url_round_trip_plain : RoundTrip everyPiece := by
  refine (url_round_trip everyPiece).mpr ⟨by simp [everyPiece],by simp [everyPiece],
    by simp [everyPiece],?_⟩
  rintro text h other - c -
  exact c.toNat_lt

/-- A host, and a path with a colon in it. -/
def colonInPath : Pieces UInt8 where
  scheme := none
  user := none
  host := .name (ascii "h") ⟨by decide,by decide,by decide,by decide,by decide⟩ rfl
  port := none
  path := ascii "/x:80"
  scheme_ok := by simp
  user_ok := by simp
  port_ok := by simp
  path_ok := .inr ⟨ascii "x:80",rfl⟩

/-- The colon in the path is taken for the end of the host. -/
theorem colon_in_path : ¬ RoundTrip colonInPath := by
  rintro ⟨N,hN⟩
  obtain ⟨up,hup,hread⟩ := hN N (Nat.le_refl N)
  have hparse : parse N colonInPath.text =
      some (some ⟨none,none,none,.hostname (ascii "h/x"),some 80,[]⟩) := rfl
  rw [hparse] at hup
  cases hup
  exact absurd hread.port (by simp [colonInPath])

end ProxySwiss.UrlRoundTrip
