import Mathlib.Data.List.Find
import ProxySwiss.RequestTarget
import ProxySwiss.HostConversions

/-!
# The two instances of the URL parser

The narrow instance reads what a client asks for and the wide one the command
line. A text that is made wide is parsed as it was, part by part, so a target
means the same to both; what sets the two apart is the path, which is dropped
from what a client asks for and not allowed on the command line.
-/

set_option autoImplicit false

namespace ProxySwiss.UrlInstances
open Memory Text InetPton UrlParser RequestTarget ConfigFromCmdline CmdlineParts
open HostText HostConversions ServerSessionHttps

/-! Searching a text whose characters are replaced one by one. -/

section Replaced

variable {T U : Type} [CharT T] [CharT U] (f : T → U) (hf : Function.Injective f)

include hf

theorem before_map (c : T) (s : List T) : before (f c) (s.map f) = (before c s).map f := by
  have hp : ((fun x : U => decide (x ≠ f c)) ∘ f) = fun x : T => decide (x ≠ c) := by
    funext x
    simp [hf.eq_iff]
  rw [before, List.takeWhile_map, hp]
  rfl

theorem behind_map (c : T) (s : List T) : behind (f c) (s.map f) = (behind c s).map f := by
  have hp : ((fun x : U => decide (x ≠ f c)) ∘ f) = fun x : T => decide (x ≠ c) := by
    funext x
    simp [hf.eq_iff]
  rw [behind, List.dropWhile_map, hp]
  rfl

theorem find_map (needle s : List T) (pos : ℕ) :
    find (needle.map f) (s.map f) pos = find needle s pos := by
  unfold find
  rw [List.length_map]
  refine List.find?_congr fun i _ => Bool.eq_iff_iff.mpr ?_
  rw [← List.map_drop, List.isPrefixOf_iff_prefix, List.isPrefixOf_iff_prefix]
  exact List.prefix_map_iff_of_injective hf

end Replaced

/-! Numbers in a text that is made wide. -/

theorem wide_injective : Function.Injective (CharT.ofChar : UInt8 → UInt16) :=
  fun _ _ => (ofChar_inj _ _).mp

/-- A character that is not ASCII stays one that is not. -/
theorem wide_code (c : UInt8) : CharT.code (CharT.ofChar c : UInt16) = CharT.code c ∨
    128 ≤ CharT.code c ∧ 128 ≤ CharT.code (CharT.ofChar c : UInt16) := by
  by_cases hc : c.toNat < 128
  · exact .inl (LawfulCharT.code_ofChar c hc)
  · right
    refine ⟨not_lt.mp hc,?_⟩
    have hlt := c.toNat_lt
    change 128 ≤ (charToWchar c).toNat
    rw [charToWchar, if_neg hc, UInt16.toNat_ofNat_of_lt' (show 0xff00+c.toNat < UInt16.size by
      simp only [UInt16.size]
      omega)]
    omega

theorem decDigit_wide (c : UInt8) : decDigit (CharT.ofChar c : UInt16) = decDigit c := by
  unfold decDigit
  rcases wide_code c with h | ⟨h,hw⟩
  · rw [h]
  · rw [if_neg (by omega), if_neg (by omega)]

theorem isSpace_high {T : Type} [CharT T] (c : T) (h : 128 ≤ CharT.code c) :
    isSpace c = false := by
  simp only [isSpace, Bool.or_eq_false_iff, Bool.and_eq_false_iff, decide_eq_false_iff_not]
  omega

theorem isSpace_wide (c : UInt8) : isSpace (CharT.ofChar c : UInt16) = isSpace c := by
  rcases wide_code c with h | ⟨h,hw⟩
  · rw [isSpace, isSpace, h]
  · rw [isSpace_high _ h, isSpace_high _ hw]

theorem code_wide (c : UInt8) (n : ℕ) (hn : n < 128) :
    CharT.code (CharT.ofChar c : UInt16) = n ↔ CharT.code c = n := by
  rcases wide_code c with h | ⟨h,hw⟩ <;> omega

theorem digits_wide (s : Bytes) (v : ℕ) :
    digits (strToTstr s : Wide) v = ((digits s v).1,strToTstr (digits s v).2) := by
  induction s generalizing v with
  | nil => rfl
  | cons c cs ih =>
    rw [strToTstr, List.map_cons, digits, digits, decDigit_wide]
    cases decDigit c with
    | none => rfl
    | some d => exact ih _

theorem sign_wide (s : Bytes) :
    sign (strToTstr s : Wide) = ((sign s).1,strToTstr (sign s).2) := by
  cases s with
  | nil => rfl
  | cons c cs =>
    rw [strToTstr, List.map_cons, sign, sign]
    simp only [code_wide c 45 (by decide), code_wide c 43 (by decide)]
    split_ifs <;> rfl

theorem spaces_wide (s : Bytes) :
    (strToTstr s : Wide).dropWhile isSpace = strToTstr (s.dropWhile isSpace) := by
  rw [strToTstr, List.dropWhile_map]
  exact congrArg (fun p => (s.dropWhile p).map CharT.ofChar) (funext isSpace_wide)

theorem scanUint_wide (s : Bytes) : scanUint (strToTstr s : Wide) =
    (scanUint s).map fun p => (p.1,strToTstr p.2) := by
  rw [scanUint, scanUint, scanNumber, scanNumber, spaces_wide, sign_wide]
  generalize sign (s.dropWhile isSpace) = p
  obtain ⟨minus,t⟩ := p
  cases t with
  | nil => rfl
  | cons c cs =>
    have hdigits := digits_wide (c::cs) 0
    simp only [strToTstr, List.map_cons, decDigit_wide] at hdigits ⊢
    split_ifs
    · rw [hdigits]
      rfl
    · rfl

theorem strToUint_wide (s : Bytes) : strToUint (strToTstr s : Wide) = strToUint s := by
  have hzero : (strToTstr s : Wide).takeWhile (fun c => CharT.code c ≠ 0) =
      strToTstr (s.takeWhile fun c => CharT.code c ≠ 0) := by
    rw [strToTstr, List.takeWhile_map]
    refine congrArg (fun p => (s.takeWhile p).map CharT.ofChar) (funext fun c => ?_)
    simp [code_wide c 0 (by decide)]
  unfold strToUint
  simp only [hzero, scanUint_wide]
  generalize s.takeWhile (fun c => CharT.code c ≠ 0) = t
  cases scanUint t with
  | none => simp [strToTstr]
  | some p =>
    obtain ⟨v,rest⟩ := p
    cases rest <;> rfl

/-! The parts of the parser. -/

theorem schemePart_wide (s : Bytes) : schemePart (strToTstr s : Wide) =
    (schemePart s).map fun p => (p.1.map strToTstr,strToTstr p.2) := by
  have hfind : find (tstr "://") (strToTstr s : Wide) 0 = find (tstr "://") s 0 :=
    find_map CharT.ofChar wide_injective (ascii "://") s 0
  unfold schemePart
  rw [hfind]
  cases find (tstr "://") s 0 with
  | none => rfl
  | some x =>
    by_cases h0 : x = 0
    · simp [h0]
    · simp [h0, strToTstr, List.map_take, List.map_drop]

theorem mem_wide (c : Char) (s : Bytes) : tchar c ∈ (strToTstr s : Wide) ↔ tchar c ∈ s :=
  List.mem_map_of_injective wide_injective

theorem before_wide (c : Char) (s : Bytes) :
    before (tchar c) (strToTstr s : Wide) = strToTstr (before (tchar c) s) :=
  before_map CharT.ofChar wide_injective _ s

theorem behind_wide (c : Char) (s : Bytes) :
    behind (tchar c) (strToTstr s : Wide) = strToTstr (behind (tchar c) s) :=
  behind_map CharT.ofChar wide_injective _ s

theorem tail_wide (s : Bytes) : (strToTstr s : Wide).tail = strToTstr s.tail := by
  rw [strToTstr, ← List.map_tail]
  rfl

theorem head_wide (c : Char) (s : Bytes) :
    (strToTstr s : Wide).head? = some (tchar c) ↔ s.head? = some (tchar c) := by
  rw [strToTstr, List.head?_map, Option.map_eq_some_iff]
  constructor
  · rintro ⟨x,hx,h⟩
    rw [hx, wide_injective h]
    rfl
  · exact fun h => ⟨_,h,rfl⟩

theorem userinfoPart_wide (s : Bytes) : userinfoPart (strToTstr s : Wide) =
    ((userinfoPart s).1.map strToTstr,(userinfoPart s).2.1.map strToTstr,
      strToTstr (userinfoPart s).2.2) := by
  unfold userinfoPart
  simp only [mem_wide, before_wide, behind_wide, tail_wide]
  split_ifs <;> rfl

theorem hostRaw_wide (s : Bytes) : hostRaw (strToTstr s : Wide) = strToTstr (hostRaw s) := by
  unfold hostRaw hostStop
  simp only [mem_wide]
  split_ifs <;> exact before_wide _ s

theorem afterHost_wide (s : Bytes) : afterHost (strToTstr s : Wide) = strToTstr (afterHost s) := by
  unfold afterHost hostStop
  simp only [mem_wide]
  split_ifs <;> exact behind_wide _ s

theorem nil_wide (s : Bytes) : (strToTstr s : Wide) = [] ↔ s = [] := List.map_eq_nil_iff

theorem wide_wide (s : Bytes) :
    (strToTstr s : Wide).map CharT.toWide = s.map CharT.toWide := by
  rw [strToTstr, List.map_map]
  rfl

theorem narrow_wide (s : Bytes) : (strToTstr s : Wide).map CharT.toChar = s.map CharT.toChar := by
  rw [strToTstr, List.map_map]
  exact List.map_congr_left fun c _ => CharT.toChar_ofChar c

theorem fromStringIpv4_wide (fuel : ℕ) (s : Bytes) :
    fromStringIpv4 fuel (strToTstr s : Wide) = fromStringIpv4 fuel s := by
  rw [fromStringIpv4, fromStringIpv4, wide_wide]

theorem fromStringIpv6_wide (fuel : ℕ) (s : Bytes) :
    fromStringIpv6 fuel (strToTstr s : Wide) = fromStringIpv6 fuel s := by
  rw [fromStringIpv6, fromStringIpv6, wide_wide]
  simp only [nil_wide]

def wideRest (p : HostAddress × Bytes) : HostAddress × Wide := (p.1,strToTstr p.2)

theorem ipv6Part_wide (fuel : ℕ) (s : Bytes) : ipv6Part fuel (strToTstr s : Wide) =
    (ipv6Part fuel s).map (Option.map wideRest) := by
  unfold ipv6Part
  simp only [mem_wide, before_wide, behind_wide, tail_wide, hostRaw_wide, nil_wide,
    fromStringIpv6_wide]
  by_cases hb : tchar ']' ∈ s
  · simp only [if_pos hb, Option.map_map]
    refine congrArg (fun g => Option.map g _) (funext fun r => ?_)
    cases r with
    | none => rfl
    | some ip =>
      by_cases hraw : hostRaw (behind (tchar ']') s).tail = []
      · simp [hraw, wideRest]
      · simp [hraw]
  · simp [hb]

theorem namedPart_wide (fuel : ℕ) (s : Bytes) : namedPart fuel (strToTstr s : Wide) =
    (namedPart fuel s).map (Option.map wideRest) := by
  unfold namedPart
  rw [hostRaw_wide, afterHost_wide, fromStringIpv4_wide, narrow_wide, Option.map_map]
  refine congrArg (fun g => Option.map g _) (funext fun r => ?_)
  cases r with
  | some ip => rfl
  | none =>
    by_cases hraw : hostRaw s = []
    · simp [hraw, strToTstr]
    · simp [hraw, nil_wide, wideRest]

theorem hostPart_wide (fuel : ℕ) (s : Bytes) : hostPart fuel (strToTstr s : Wide) =
    (hostPart fuel s).map (Option.map wideRest) := by
  unfold hostPart
  simp only [head_wide, tail_wide]
  split_ifs
  · exact ipv6Part_wide fuel s.tail
  · exact namedPart_wide fuel s

theorem portPart_wide (s : Bytes) : portPart (strToTstr s : Wide) =
    (portPart s).map fun p => (p.1,strToTstr p.2) := by
  unfold portPart
  simp only [head_wide, tail_wide, before_wide, behind_wide, strToUint_wide]
  split_ifs with h
  · cases strToUint (before (tchar '/') s.tail) with
    | none => rfl
    | some v =>
      by_cases hv : v > 0xffff
      · simp [hv]
      · simp [hv]
  · rfl

theorem pathPart_wide (s : Bytes) : pathPart (strToTstr s : Wide) = strToTstr (pathPart s) := by
  unfold pathPart
  simp only [head_wide]
  split_ifs <;> rfl

def wideUrl (up : UrlParser UInt8) : UrlParser UInt16 :=
  ⟨up.scheme.map strToTstr,up.username.map strToTstr,up.password.map strToTstr,up.host,up.port,
    strToTstr up.path⟩

/-- The two instances agree on every narrow text, also on whether they return. -/
theorem parse_wide (fuel : ℕ) (url : Bytes) :
    parse fuel (strToTstr url : Wide) = (parse fuel url).map (Option.map wideUrl) := by
  rw [parse_parts, parse_parts, parseParts, parseParts, schemePart_wide]
  cases schemePart url with
  | none => rfl
  | some p =>
    simp only [Option.map_some, userinfoPart_wide, hostPart_wide, Option.map_map]
    refine congrArg (fun g => Option.map g _) (funext fun r => ?_)
    cases r with
    | none => rfl
    | some q =>
      simp only [Function.comp_apply, Option.map_some, Option.bind_some, wideRest, portPart_wide,
        Option.map_map]
      refine congrArg (fun g => Option.map g _) (funext fun t => ?_)
      simp only [Function.comp_apply, pathPart_wide]
      rfl

/-! A target, and a path behind it. -/

/-- The host is read whatever follows the colon, and the port is a number. -/
structure HostPort (fuel : ℕ) (raw t : Bytes) (host : HostAddress) (port : UInt16) : Prop where
  host : ∀ rest, hostPart fuel (raw ++ tchar ':'::rest) = some (some (host,tchar ':'::rest))
  slash : tchar '/' ∉ t
  port : strToUint t = some port.toNat

/-- `t` is `h` with a path behind it, in which nothing else is found. -/
structure Followed (h path t : Bytes) : Prop where
  text : t = h ++ path
  slash : path = [] ∨ ∃ q, path = tchar '/'::q
  scheme : ¬ tstr "://" <:+: t
  user : tchar '@' ∉ path

theorem host_again (fuel : ℕ) (s u : Bytes) (host : HostAddress)
    (h : hostPart fuel s = some (some (host,tchar ':'::u))) : ∃ raw, s = raw ++ tchar ':'::u ∧
      ∀ rest, hostPart fuel (raw ++ tchar ':'::rest) = some (some (host,tchar ':'::rest)) := by
  rcases host_read fuel s u host h with ⟨hn,rfl⟩ | ⟨inner,ip,hb,hip,rfl⟩
  · exact ⟨_,hn.text,fun rest => unbracketed_host fuel _ rest hn.nonempty hn.bracket hn.colon⟩
  · refine ⟨_,hb.text,fun rest => ?_⟩
    rw [bracketed_host fuel inner rest hb.clean, hip]
    rfl

theorem target_taken_apart (fuel : ℕ) (target : Bytes) (up : UrlParser UInt8) (port : UInt16)
    (h : parse fuel target = some (some up)) (hs : up.scheme = none) (hu : up.username = none)
    (hp : up.port = some port) : ∃ raw t, HostPort fuel raw t up.host port ∧
      Followed (raw ++ tchar ':'::t) up.path target ∧ tchar '@' ∉ target := by
  obtain ⟨scheme,s,host,r,port',q,hscheme,hhost,hport,rfl⟩ := (parse_some fuel target up).mp h
  simp only at hs hu hp
  subst hs hp
  obtain ⟨rfl,hno⟩ := scheme_none _ _ hscheme
  have hat := user_none _ hu
  rw [userinfo_absent _ hat] at hhost
  obtain ⟨t,rfl,hslash,hpath,hv⟩ := port_split r q port hport
  obtain ⟨raw,rfl,hagain⟩ := host_again fuel _ _ host hhost
  have hq : pathPart q = q := by
    rcases hpath with rfl | ⟨v,rfl⟩
    · rfl
    · exact if_pos (List.head?_cons ..)
  refine ⟨raw,t,⟨hagain,hslash,hv⟩,?_,hat⟩
  rw [hq]
  exact ⟨by simp,hpath,hno,fun hin => hat (by simp [hin])⟩

theorem target_put_together (fuel : ℕ) (raw t path target : Bytes) (host : HostAddress)
    (port : UInt16) (h : HostPort fuel raw t host port)
    (hf : Followed (raw ++ tchar ':'::t) path target) (hat : tchar '@' ∉ raw ++ tchar ':'::t) :
    parse fuel target = some (some ⟨none,none,none,host,some port,path⟩) := by
  have htext : target = raw ++ tchar ':'::(t ++ path) := by rw [hf.text]; simp
  have huser : userinfoPart target = (none,none,target) := userinfo_absent _ (by
    rw [hf.text, List.mem_append, not_or]
    exact ⟨hat,hf.user⟩)
  have hlt := port.toNat_lt
  have hport : portPart (tchar ':'::(t ++ path)) = some (some port,path) := by
    rw [port_written t path h.slash hf.slash, h.port, Option.bind_some, if_neg (by omega),
      UInt16.ofNat_toNat]
  have hpath : pathPart path = path := by
    rcases hf.slash with rfl | ⟨q,rfl⟩
    · rfl
    · exact if_pos (List.head?_cons ..)
  refine (parse_some fuel target _).mpr ⟨none,target,host,_,some port,path,
    scheme_absent _ hf.scheme,?_,hport,?_⟩
  · rw [huser, htext]
    exact h.host _
  · rw [huser, hpath]

section Targets

variable (fuel : ℕ) (t version : Bytes) (dst old : Destination) (httpVer : HttpVersion)

def connected : Option FirstLine := parseFirstLine fuel (connectLine t version) dst httpVer

/-- The text as the target of a tunnel on the command line. -/
def tunnelled : Option (Except Wide ProxyInfo) :=
  proxyInfoFromString fuel (strToTstr t) old none none

/-- What a client may ask for, and what a tunnel may lead to. -/
structure TargetsAgree : Prop where
  parsed : parse fuel (strToTstr t : Wide) = (parse fuel t).map (Option.map wideUrl)
  returns : (connected fuel t version dst httpVer).isSome ↔ (tunnelled fuel t old).isSome
  forth : ∀ p, connected fuel t version dst httpVer = some p → ¬ p.err.failed →
    ∃ h path info, Followed h path t ∧ tunnelled fuel h old = some (.ok info) ∧
      Same p.dst info.dst
  back : ∀ h path info, Followed h path t → tunnelled fuel h old = some (.ok info) →
    ∃ p, connected fuel t version dst httpVer = some p ∧ ¬ p.err.failed ∧ Same p.dst info.dst

theorem tunnelled_ok (info : ProxyInfo) : tunnelled fuel t old = some (.ok info) ↔
    ∃ up port, parse fuel t = some (some up) ∧ up.path = [] ∧ up.scheme = none ∧
      up.username = none ∧ up.password = none ∧ up.port = some port ∧
      info = ⟨(destinationFromHost old up.host port).1,none,none,
        (destinationFromHost old up.host port).2⟩ := by
  rw [tunnelled, info_ok, parse_wide]
  constructor
  · rintro ⟨wide,port,hup,hpath,hs,hu,hport,rfl⟩
    obtain ⟨r,hr,hup⟩ := Option.map_eq_some_iff.mp hup
    obtain ⟨up,rfl,rfl⟩ := Option.map_eq_some_iff.mp hup
    obtain ⟨hname,hpwd⟩ := hu rfl
    have hscheme : up.scheme = none := Option.map_eq_none_iff.mp (hs.mpr rfl)
    exact ⟨up,port,hr,(nil_wide _).mp hpath,hscheme,Option.map_eq_none_iff.mp hname,
      Option.map_eq_none_iff.mp hpwd,hport,by simp [wideUrl, hscheme]⟩
  · rintro ⟨up,port,hup,hpath,hs,hname,hpwd,hport,rfl⟩
    exact ⟨wideUrl up,port,by rw [hup]; rfl,(nil_wide _).mpr hpath,
      iff_of_true (Option.map_eq_none_iff.mpr hs) rfl,
      fun _ => ⟨Option.map_eq_none_iff.mpr hname,Option.map_eq_none_iff.mpr hpwd⟩,hport,by
        simp [wideUrl, hs]⟩

theorem connected_returns (hspace : tchar ' ' ∉ t) (hversion : httpVersion version ≠ none) :
    (connected fuel t version dst httpVer).isSome ↔ (parse fuel t).isSome := by
  obtain ⟨v,hv⟩ := Option.ne_none_iff_exists'.mp hversion
  have hsplit := (split_line (connectLine t version) (ascii "CONNECT") t version).mpr
    ⟨rfl,by decide,hspace,(httpVersion_length version hversion).1⟩
  unfold connected parseFirstLine
  rw [hsplit]
  simp [hv]

/-- A client may ask for what a tunnel may lead to, with any path behind it,
and is connected to the same destination. -/
theorem targets_agree (hspace : tchar ' ' ∉ t) (hversion : httpVersion version ≠ none) :
    TargetsAgree fuel t version dst old httpVer := by
  constructor
  · exact parse_wide fuel t
  · rw [connected_returns fuel t version dst httpVer hspace hversion, tunnelled,
      proxyInfoFromString, Option.isSome_map, parse_wide, Option.isSome_map]
  · intro p hp herr
    obtain ⟨target,version',v,up,port,hline,-,hv,hup,hs,hu,hpwd,hport,rfl⟩ :=
      (first_line fuel _ dst httpVer p).mp ⟨hp,herr⟩
    obtain rfl := target_same _ _ _ _ hversion (by simp [hv]) hline
    obtain ⟨raw,u,hhost,hf,hat⟩ := target_taken_apart fuel t up port hup hs hu hport
    have hin : raw ++ tchar ':'::u <:+: t := hf.text ▸ (List.prefix_append _ _).isInfix
    have hcut : Followed (raw ++ tchar ':'::u) [] (raw ++ tchar ':'::u) :=
      ⟨by simp,.inl rfl,fun h => hf.scheme (h.trans hin),by simp⟩
    have hparse := target_put_together fuel raw u [] _ up.host port hhost hcut
      fun h => hat (hin.subset h)
    exact ⟨_,up.path,_,hf,(tunnelled_ok fuel _ old _).mpr
      ⟨_,port,hparse,rfl,rfl,rfl,rfl,rfl,rfl⟩,same_destination UInt8 dst old up.host port
        ⟨fuel,t,up,hup,rfl⟩⟩
  · intro h path info hf hinfo
    obtain ⟨up,port,hup,hpath,hs,hname,hpwd,hport,rfl⟩ := (tunnelled_ok fuel h old info).mp hinfo
    obtain ⟨raw,u,hhost,hcut,hat⟩ := target_taken_apart fuel h up port hup hs hname hport
    have htext : h = raw ++ tchar ':'::u := by rw [hcut.text, hpath, List.append_nil]
    have hparse := target_put_together fuel raw u path t up.host port hhost (htext ▸ hf)
      (htext ▸ hat)
    obtain ⟨v,hv⟩ := Option.ne_none_iff_exists'.mp hversion
    obtain ⟨hp,herr⟩ := (first_line fuel (connectLine t version) dst httpVer _).mpr
      ⟨t,version,v,_,port,rfl,hspace,hv,hparse,rfl,rfl,rfl,rfl,rfl⟩
    exact ⟨_,hp,herr,same_destination UInt8 dst old up.host port ⟨fuel,h,up,hup,rfl⟩⟩

end Targets

/-- The path is left out. -/
theorem targets_agree_path : ∃ p,
    connected 0 (ascii "h:80/x") (ascii "HTTP/1.1") {} .http10 = some p ∧ ¬ p.err.failed ∧
      Same p.dst { hostname := ascii "h", port := 80 } :=
  (targets_agree 0 (ascii "h:80/x") (ascii "HTTP/1.1") {} {} .http10 (by decide) (by decide)).back
    (ascii "h:80") (ascii "/x") _ ⟨rfl,.inr ⟨_,rfl⟩,by decide,by decide⟩ rfl

end ProxySwiss.UrlInstances
