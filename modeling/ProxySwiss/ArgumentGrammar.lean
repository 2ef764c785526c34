import ProxySwiss.CmdlineFaithfulness
import ProxySwiss.Ipv6Literal

/-!
# What the positions of a command line ask for

An argument is a host and a port, and may have a scheme and user information in
front of them. What is asked for in each position is stated on the text alone;
an argument that the parser returns on is taken exactly if it is of this kind.
-/

set_option autoImplicit false

namespace ProxySwiss.ArgumentGrammar
open Memory Text InetPton UrlParser HostText PortGrammar AuthorityBoundary ConfigFromCmdline
open CmdlineParts CmdlineCompleteness CmdlineFaithfulness

/-- The text in front of `://`. -/
def schemeWritten (text : Wide) : Option Wide := (find (tstr "://") text 0).map text.take

/-- Four numbers as the format takes them, or the fields of an address in
brackets. -/
inductive AddressText : Wide → Prop
  | numbers (host : Wide) (a b c d : UInt8) (h : Ipv4Literal.Scanned (hostText host) a b c d)
      (hbracket : host.head? ≠ some (tchar '[')) (hcolon : tchar ':' ∉ host) : AddressText host
  | brackets (inner : Wide) (hclean : tchar ']' ∉ inner) (hne : inner ≠ []) (fields : List Bytes)
      (h : InetPton.Taken (hostText inner) fields) :
      AddressText (tchar '['::(inner ++ [tchar ']']))

structure NameText (host : Wide) : Prop where
  nonempty : host ≠ []
  bracket : host.head? ≠ some (tchar '[')
  colon : tchar ':' ∉ host
  other : ¬ ∃ a b c d, Ipv4Literal.Scanned (hostText host) a b c d

/-- A host and a port, whatever stands in front of them, and nothing behind. -/
structure HostPort (text : Wide) : Prop where
  scheme : schemeWritten text ≠ some []
  parts : hostOn text = hostWritten text ++ tchar ':'::portWritten text
  host : AddressText (hostWritten text) ∨ NameText (hostWritten text)
  port : TakenPort (portWritten text)
  slash : tchar '/' ∉ portWritten text

theorem scheme_read (text s : Wide) (scheme : Option Wide)
    (h : schemePart text = some (scheme,s)) : scheme = schemeWritten text ∧ scheme ≠ some [] := by
  unfold schemePart at h
  unfold schemeWritten
  cases hf : find (tstr "://") text 0 with
  | none =>
    rw [hf] at h
    obtain ⟨rfl,-⟩ := Prod.mk.inj (Option.some.inj h)
    exact ⟨rfl,by simp⟩
  | some x =>
    simp only [hf] at h
    split_ifs at h with h0
    obtain ⟨rfl,-⟩ := Prod.mk.inj (Option.some.inj h)
    refine ⟨rfl,?_⟩
    obtain ⟨-,-,⟨rest,hrest⟩,-⟩ := (find_some _ _ _ _).mp hf
    intro hnil
    have hlen : x ≤ text.length := by
      by_contra hlarge
      rw [List.drop_of_length_le (by omega)] at hrest
      simp [tstr, ascii, strToTstr] at hrest
    have htake := congrArg List.length (Option.some.inj hnil)
    simp only [List.length_take, List.length_nil] at htake
    omega

theorem scheme_part (text : Wide) (h : schemeWritten text ≠ some []) :
    schemePart text = some (schemeWritten text,behindScheme text) := by
  unfold schemePart behindScheme
  unfold schemeWritten at h ⊢
  cases hf : find (tstr "://") text 0 with
  | none => rfl
  | some x =>
    rw [hf] at h
    have hx : x ≠ 0 := by
      rintro rfl
      exact h rfl
    simp only [if_neg hx, Option.map_some]

theorem not_scanned (host : Wide) (h : ¬ ∃ a b c d, Ipv4Literal.Scanned (hostText host) a b c d)
    (fuel : ℕ) : fromStringIpv4 fuel host = some none := by
  rw [fromStringIpv4_eq]
  cases h4 : inetPton4 (hostText host) with
  | none => rfl
  | some addr =>
    obtain ⟨a,b,c,d,hs,-⟩ := (Ipv4Literal.inetPton4_iff _ _).mp h4
    have hcstr : cstr (hostText host) = hostText host := cstr_cstr _
    exact absurd ⟨a,b,c,d,hcstr ▸ hs⟩ h

/-- What is reported for a host of either kind. -/
theorem host_spelled (fuel : ℕ) (host rest : Wide) (h : AddressText host ∨ NameText host)
    (hret : (hostPart fuel (host ++ tchar ':'::rest)).isSome) :
    ∃ r, hostPart fuel (host ++ tchar ':'::rest) = some (some (r,tchar ':'::rest)) := by
  rcases h with h | h
  · cases h with
    | numbers host a b c d h hbracket hcolon =>
      exact ⟨_,unbracketed_host fuel host rest (scanned_nonempty host a b c d h) hbracket hcolon⟩
    | brackets inner hclean hne fields h =>
      obtain ⟨fuel',ip,hip⟩ := (Ipv6Literal.accepted_iff inner).mpr ⟨hne,fields,h⟩
      rw [bracketed_host fuel inner rest hclean, Option.isSome_map] at hret
      obtain ⟨r,hr⟩ := Option.isSome_iff_exists.mp hret
      have hmore := fromStringIpv6_mono fuel' (max fuel fuel') inner _ hip (le_max_right _ _)
      rw [fromStringIpv6_mono fuel _ inner r hr (le_max_left _ _)] at hmore
      obtain rfl := Option.some.inj hmore
      exact ⟨.ipAddr ip,by rw [bracketed_host fuel inner rest hclean, hr]; rfl⟩
  · exact ⟨_,unbracketed_host fuel host rest h.nonempty h.bracket h.colon⟩

theorem scanned_address (host : Wide) (h : AddressText host ∨ NameText host)
    (hbracket : host.head? ≠ some (tchar '[')) :
    AddressText host ↔ ∃ ip, namedHost host = .ipAddr ip := by
  constructor
  · intro ha
    cases ha with
    | numbers host a b c d h _ _ =>
      exact ⟨_,namedHost_ip 0 host _ ((Ipv4Literal.fromStringIpv4_some 0 host _).mpr
        ⟨a,b,c,d,h,rfl⟩)⟩
    | brackets inner hclean hne fields h => exact absurd rfl hbracket
  · rintro ⟨ip,hip⟩
    rcases h with h | h
    · exact h
    · rw [namedHost_hostname 0 host (not_scanned host h.other 0)] at hip
      exact absurd hip (by simp)

/-- What is found in an argument. -/
structure Found (text : Wide) (up : UrlParser UInt16) (port : UInt16) : Prop where
  path : up.path = []
  port : up.port = some port
  scheme : up.scheme = schemeWritten text
  username : up.username = none ↔ userWritten text = none
  password : up.username = none → up.password = none
  address : (∃ ip, up.host = .ipAddr ip) ↔ AddressText (hostWritten text)

theorem found_user (fuel : ℕ) (text : Wide) (up : UrlParser UInt16)
    (h : parse fuel text = some (some up)) :
    (up.username = none ↔ userWritten text = none) ∧ (up.username = none → up.password = none) := by
  obtain ⟨huser,hpwd⟩ := user_read fuel text up h
  rw [huser, hpwd, Option.map_eq_none_iff]
  refine ⟨Iff.rfl,fun h0 => ?_⟩
  rw [h0, Option.bind_none]

/-- The host of an argument that was parsed, between its user information and its
port. -/
theorem host_found (fuel : ℕ) (text u : Wide) (host : HostAddress)
    (h : hostPart fuel (hostOn text) = some (some (host,tchar ':'::u))) :
    hostOn text = hostWritten text ++ tchar ':'::u ∧ portWritten text = u ∧
      (AddressText (hostWritten text) ∨ NameText (hostWritten text)) ∧
      ((∃ ip, host = .ipAddr ip) ↔ AddressText (hostWritten text)) := by
  rcases host_read fuel _ u host h with ⟨hn,rfl⟩ | ⟨inner,ip,hb,hip,rfl⟩
  · obtain ⟨hh,hp⟩ := unbracketed_written text u hn
    rw [← hh] at hn ⊢
    have hkind : AddressText (hostWritten text) ∨ NameText (hostWritten text) := by
      by_cases hs : ∃ a b c d, Ipv4Literal.Scanned (hostText (hostWritten text)) a b c d
      · obtain ⟨a,b,c,d,hs⟩ := hs
        exact .inl (.numbers _ a b c d hs hn.bracket hn.colon)
      · exact .inr ⟨hn.nonempty,hn.bracket,hn.colon,hs⟩
    exact ⟨hn.text,hp,hkind,(scanned_address _ hkind hn.bracket).symm⟩
  · obtain ⟨hh,hp⟩ := bracketed_written text inner u hb
    obtain ⟨hne,fields,htaken⟩ := (Ipv6Literal.accepted_iff inner).mp ⟨fuel,ip,hip⟩
    have haddr : AddressText (hostWritten text) := by
      rw [hh]
      exact .brackets inner hb.clean hne fields htaken
    exact ⟨by rw [hh]; exact hb.text,hp,.inl haddr,iff_of_true ⟨ip,rfl⟩ haddr⟩

/-- An argument that is taken for a host and a port is one. -/
theorem found_spelled (fuel : ℕ) (text : Wide) (up : UrlParser UInt16) (port : UInt16)
    (h : parse fuel text = some (some up)) (hpath : up.path = []) (hport : up.port = some port) :
    HostPort text ∧ Found text up port := by
  obtain ⟨huser,hpwd⟩ := found_user fuel text up h
  obtain ⟨scheme,s,host,r,p,q,hs,hhost,hp,rfl⟩ := (parse_some fuel text up).mp h
  simp only at hport hpath
  subst hport
  obtain ⟨hscheme,hne⟩ := scheme_read text s scheme hs
  obtain ⟨t,rfl,hslash,hq,ht⟩ := port_split r q port hp
  obtain rfl : q = [] := by
    rcases hq with h0 | ⟨v,rfl⟩
    · exact h0
    · simp [pathPart] at hpath
  rw [List.append_nil, userinfoPart_behind, schemePart_behind text s scheme hs] at hhost
  obtain ⟨hparts,hwritten,hkind,haddr⟩ := host_found fuel text t host hhost
  have hlt := port.toNat_lt
  refine ⟨⟨hscheme ▸ hne,?_,hkind,?_,?_⟩,⟨rfl,rfl,hscheme,huser,hpwd,haddr⟩⟩
  · rw [hwritten]
    exact hparts
  · rw [hwritten]
    exact (takenPort_iff t).mp ⟨port.toNat,by omega,ht⟩
  · rw [hwritten]
    exact hslash

/-- A host and a port are taken if the parser returns. -/
theorem spelled_found (fuel : ℕ) (text : Wide) (h : HostPort text)
    (hret : (parse fuel text).isSome) :
    ∃ up port, parse fuel text = some (some up) ∧ Found text up port := by
  have hs := scheme_part text h.scheme
  have huser : (userinfoPart (behindScheme text)).2.2 = hostOn text := userinfoPart_behind _
  have hhost : (hostPart fuel (hostOn text)).isSome := by
    rw [parse_parts, parseParts, hs, Option.isSome_map, huser] at hret
    exact hret
  rw [h.parts] at hhost
  obtain ⟨r,hr⟩ := host_spelled fuel _ _ h.host hhost
  rw [← h.parts] at hr
  obtain ⟨v,hv,hval⟩ := (takenPort_iff _).mpr h.port
  have hp : portPart (tchar ':'::portWritten text) = some (some (UInt16.ofNat v),[]) := by
    have hw := port_written (portWritten text) [] h.slash (.inl rfl)
    rw [List.append_nil, hval, Option.bind_some, if_neg (by omega)] at hw
    exact hw
  have hup := (parse_some fuel text _).mpr
    ⟨_,_,r,_,_,_,hs,by rw [huser]; exact hr,hp,rfl⟩
  exact ⟨_,_,hup,(found_spelled fuel text _ _ hup rfl rfl).2⟩

end ProxySwiss.ArgumentGrammar
