import Mathlib.Data.Bool.AllAny
import ProxySwiss.UrlParts

/-!
# Where the host ends and the path begins

The end of the host is searched for in all that remains of the text, a colon
first, and a slash only where there is no colon. The host keeps inside its own
bounds exactly if no slash stands in front of the first colon, and if no
character of it becomes a separator when it is made narrow.
-/

set_option autoImplicit false

namespace ProxySwiss.AuthorityBoundary
open Memory Text InetPton UrlParser

variable {T : Type} [CharT T]

/-- The text behind `://`, or all of it if there is none. -/
def behindScheme (url : List T) : List T :=
  match find (tstr "://") url 0 with
  | some x => url.drop (x+3)
  | none => url

/-- The text behind the first `@`, or all of it if there is none. -/
def behindUserinfo (s : List T) : List T :=
  match behind (tchar '@') s with
  | _::t => t
  | [] => s

def hostOn (url : List T) : List T := behindUserinfo (behindScheme url)

def Separator (c : UInt8) : Prop := c ∈ ascii "/:@"

instance (c : UInt8) : Decidable (Separator c) := inferInstanceAs (Decidable (_ ∈ _))

/-- What is promised of an accepted text whose host has a name: the name has no
separator, and the path begins at the first slash from the host on. -/
structure Bounded (url : List T) (up : UrlParser T) (name : Bytes) : Prop where
  separators : ∀ c ∈ name, ¬ Separator c
  path : up.path = behind (tchar '/') (hostOn url)

/-- A caller that refuses a path has refused every text with a slash behind the
scheme. -/
def NoBypass (url : List T) (up : UrlParser T) : Prop :=
  tchar '/' ∈ behindScheme url → up.path ≠ []

/-- The text in front of the first colon and of the first slash. -/
def hostUpTo (s : List T) : List T := before (tchar '/') (before (tchar ':') s)

structure Confined (s : List T) : Prop where
  /-- A slash in front of a colon is taken for a part of the host. -/
  slash : tchar ':' ∈ s → tchar '/' ∉ before (tchar ':') s
  /-- A second `@`, or a wide character whose low octet is a separator. -/
  narrow : ∀ c ∈ hostUpTo s, ¬ Separator (CharT.toChar c)

/-- A slash in the user information, and none behind it. -/
def SlashInUserinfo (url : List T) : Prop :=
  tchar '/' ∈ behindScheme url ∧ tchar '/' ∉ hostOn url

theorem schemePart_behind (url s : List T) (scheme : Option (List T))
    (h : schemePart url = some (scheme,s)) : s = behindScheme url := by
  unfold schemePart at h
  unfold behindScheme
  cases hx : find (tstr "://") url 0 with
  | none =>
    rw [hx] at h
    exact (Prod.mk.inj (Option.some.inj h)).2.symm
  | some x =>
    simp only [hx] at h
    split_ifs at h
    exact (Prod.mk.inj (Option.some.inj h)).2.symm

theorem userinfoPart_behind (s : List T) : (userinfoPart s).2.2 = behindUserinfo s := by
  unfold userinfoPart behindUserinfo
  by_cases hat : tchar '@' ∈ s
  · obtain ⟨t,ht⟩ := behind_cons _ s hat
    simp only [hat, if_true, ht, List.tail_cons]
  · simp only [hat, if_false, behind_absent _ s hat]

/-- An accepted name is what stands in front of the end of the host. -/
theorem hostname_parts (fuel : ℕ) (url : List T) (up : UrlParser T) (name : Bytes)
    (h : parse fuel url = some (some up)) (hname : up.host = .hostname name) :
    name = (hostRaw (hostOn url)).map CharT.toChar ∧
      ∃ port r, portPart (afterHost (hostOn url)) = some (port,r) ∧ up.path = r := by
  obtain ⟨scheme,s,host,t,port,r,hs,hh,hp,rfl⟩ := (parse_some fuel url up).mp h
  simp only at hname
  subst hname
  rw [userinfoPart_behind, schemePart_behind url s scheme hs] at hh
  obtain ⟨-,rfl,-,-,hn⟩ := (hostname_some fuel _ t name).mp hh
  exact ⟨hn,port,r,hp,port_path _ r port hp (afterHost_head _)⟩

theorem hostRaw_upTo (s : List T) (h : tchar ':' ∈ s → tchar '/' ∉ before (tchar ':') s) :
    hostRaw s = hostUpTo s := by
  unfold hostRaw hostStop hostUpTo
  by_cases hc : tchar ':' ∈ s
  · rw [if_pos hc, before_absent _ _ (h hc)]
  · rw [if_neg hc, before_absent _ s hc]

theorem separator_slash : Separator 0x2f := by decide

theorem toChar_tchar (c : Char) : CharT.toChar (tchar c : T) = UInt8.ofNat c.toNat :=
  CharT.toChar_ofChar _

/-- The name has no separator exactly if the text is confined. -/
theorem separators_iff (s : List T) :
    (∀ c ∈ (hostRaw s).map CharT.toChar, ¬ Separator c) ↔ Confined s := by
  constructor
  · intro h
    have hslash : tchar '/' ∉ hostRaw s := by
      intro hin
      refine h _ (List.mem_map_of_mem hin) ?_
      rw [toChar_tchar]
      exact separator_slash
    have hconf : tchar ':' ∈ s → tchar '/' ∉ before (tchar ':') s := by
      intro hc
      rwa [hostRaw, hostStop, if_pos hc] at hslash
    refine ⟨hconf,fun c hc => h _ (List.mem_map_of_mem ?_)⟩
    rwa [hostRaw_upTo s hconf]
  · rintro ⟨hconf,hnarrow⟩ c hc
    obtain ⟨d,hd,rfl⟩ := List.mem_map.mp hc
    rw [hostRaw_upTo s hconf] at hd
    exact hnarrow d hd

/-- What follows the port is what follows the first slash, where the host has
not taken it. -/
theorem path_behind (s r : List T) (port : Option UInt16)
    (h : tchar ':' ∈ s → tchar '/' ∉ before (tchar ':') s)
    (hp : portPart (afterHost s) = some (port,r)) : r = behind (tchar '/') s := by
  by_cases hc : tchar ':' ∈ s
  · have hafter : afterHost s = behind (tchar ':') s := by rw [afterHost, hostStop, if_pos hc]
    obtain ⟨u,hu⟩ := behind_cons _ s hc
    have hs := before_behind (tchar ':') s
    rw [hafter, hu, portPart, if_pos (List.head?_cons ..), List.tail_cons] at hp
    have hr : r = behind (tchar '/') u := by
      split at hp
      · exact absurd hp (by simp)
      · split_ifs at hp
        exact (Prod.mk.inj (Option.some.inj hp)).2.symm
    rw [hr, ← hs, hu, behind_append _ _ _ (h hc), show (tchar ':' : T)::u = [tchar ':'] ++ u
      from rfl, behind_append _ _ _ (by simpa using slash_ne_colon)]
  · have hafter : afterHost s = behind (tchar '/') s := by rw [afterHost, hostStop, if_neg hc]
    have hno : (behind (tchar '/') s).head? ≠ some (tchar ':') := by
      rcases behind_head (tchar '/') s with h | ⟨u,hu⟩
      · simp [h]
      · simp [hu, slash_ne_colon]
    rw [hafter, portPart, if_neg hno] at hp
    exact (Prod.mk.inj (Option.some.inj hp)).2.symm

theorem bounded_iff (fuel : ℕ) (url : List T) (up : UrlParser T) (name : Bytes)
    (h : parse fuel url = some (some up)) (hname : up.host = .hostname name) :
    Bounded url up name ↔ Confined (hostOn url) := by
  obtain ⟨rfl,port,r,hp,hpath⟩ := hostname_parts fuel url up name h hname
  constructor
  · rintro ⟨hsep,-⟩
    exact (separators_iff _).mp hsep
  · intro hconf
    exact ⟨(separators_iff _).mpr hconf,hpath.trans (path_behind _ r port hconf.slash hp)⟩

theorem behind_eq_nil (c : T) (s : List T) : behind c s = [] ↔ c ∉ s := by
  constructor
  · intro h hin
    obtain ⟨t,ht⟩ := behind_cons c s hin
    exact absurd (h.symm.trans ht) (by simp)
  · exact behind_absent c s

/-- The host and the path of an accepted text are bounded, and its path is not
hidden from a caller, exactly if no slash stands in front of a colon, no other
character becomes a separator, and no slash is hidden in the user information. -/
theorem authority_boundary (fuel : ℕ) (url : List T) (up : UrlParser T) (name : Bytes)
    (h : parse fuel url = some (some up)) (hname : up.host = .hostname name) :
    (Bounded url up name ∧ NoBypass url up) ↔
      (Confined (hostOn url) ∧ ¬ SlashInUserinfo url) := by
  rw [bounded_iff fuel url up name h hname]
  apply and_congr_right
  intro hconf
  have hpath := ((bounded_iff fuel url up name h hname).mpr hconf).path
  rw [NoBypass, SlashInUserinfo, hpath, Ne, behind_eq_nil]
  tauto

theorem authority_boundary_plain :
    Bounded (ascii "h:8/x") ⟨none,none,none,.hostname (ascii "h"),some 8,ascii "/x"⟩ (ascii "h") ∧
      NoBypass (ascii "h:8/x") ⟨none,none,none,.hostname (ascii "h"),some 8,ascii "/x"⟩ :=
  (authority_boundary 0 (ascii "h:8/x") _ (ascii "h") rfl rfl).mpr
    ⟨⟨by decide,List.all_iff_forall_prop.mp rfl⟩,fun h => absurd h.2 (by decide)⟩

/-- A slash in front of the port is part of the name, and the path is empty. -/
theorem slash_in_name :
    ∃ up, parse 0 (ascii "h/x:80") = some (some up) ∧ up.host = .hostname (ascii "h/x") ∧
      ¬ (Bounded (ascii "h/x:80") up (ascii "h/x") ∧ NoBypass (ascii "h/x:80") up) := by
  refine ⟨⟨none,none,none,.hostname (ascii "h/x"),some 80,[]⟩,rfl,rfl,?_⟩
  rintro ⟨hb,-⟩
  exact hb.separators 0x2f (by decide) separator_slash

end ProxySwiss.AuthorityBoundary
