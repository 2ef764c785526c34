import ProxySwiss.HostText
import ProxySwiss.ServerSessionHttps

/-!
# The target of a CONNECT line

A line is accepted if it has three parts and its target a host and a port, and
neither a scheme nor user information. The path is not looked at, and the host
and the port are as loose as the parser takes them. What is accepted and has the
announced form is stored exactly as it is written.
-/

set_option autoImplicit false

namespace ProxySwiss.RequestTarget
open Memory Text InetPton UrlParser HostText PortGrammar ServerSessionHttps

def connectLine (target version : Bytes) : Bytes :=
  ascii "CONNECT" ++ tchar ' '::(target ++ tchar ' '::version)

/-- The destination of the host that was written; the number of an IPv4 address
has its first octet at the top. -/
def Holds (dst : Destination) : Host UInt8 → Prop
  | .dotted _ a b c d _ => dst.hostname = [] ∧ dst.ipAddress = .v4 (ofLe32 d c b a)
  | .ipv6 _ a _ => dst.hostname = [] ∧ dst.ipAddress = .v6 a
  | .name text _ _ => dst.hostname = text

/-- The line is a CONNECT line for a host and a port, and these are stored. -/
def Announced (line : Bytes) (dst : Destination) : Prop :=
  ∃ (h : Host UInt8) (t version : Bytes) (port : UInt16),
    line = connectLine (h.text ++ tchar ':'::t) version ∧ httpVersion version ≠ none ∧
      PortText t port ∧ Holds dst h ∧ dst.port = port

/-- A line that is parsed without an error has the announced form. -/
def SoundLine (line : Bytes) (dst : Destination) (httpVer : HttpVersion) : Prop :=
  ∀ fuel p, parseFirstLine fuel line dst httpVer = some p → ¬ p.err.failed → Announced line p.dst

inductive TakenHost : Bytes → Prop
  | named (host : Bytes) (hne : host ≠ []) (hbracket : host.head? ≠ some (tchar '['))
      (hcolon : tchar ':' ∉ host) : TakenHost host
  | bracketed (inner : Bytes) (h : tchar ']' ∉ inner) (fuel : ℕ) (ip : IpAddress)
      (hip : fromStringIpv6 fuel inner = some (some ip)) :
      TakenHost (tchar '['::(inner ++ [tchar ']']))

/-- What a target may be made of. -/
structure TakenTarget (host t path : Bytes) : Prop where
  space : tchar ' ' ∉ host ++ tchar ':'::(t ++ path)
  scheme : ¬ tstr "://" <:+: host ++ tchar ':'::(t ++ path)
  user : tchar '@' ∉ host ++ tchar ':'::(t ++ path)
  host : TakenHost host
  port : TakenPort t
  slash : tchar '/' ∉ t
  path : path = [] ∨ ∃ q, path = tchar '/'::q

/-- A path, a slash in the host, a port that is not digits, four numbers that
are not plain, or an address between brackets that is in no text form. -/
def Slack (host t path : Bytes) : Prop :=
  path ≠ [] ∨ tchar '/' ∈ host ∨ NotDigits t ∨
    (host.head? ≠ some (tchar '[') ∧ Ipv4Literal.Loose host) ∨
    ∃ inner, host = tchar '['::(inner ++ [tchar ']']) ∧ ¬ ∃ a : Buffer 16, Ipv6Text inner a.bytes

def SlackLine (line : Bytes) : Prop :=
  ∃ host t path version, line = connectLine (host ++ tchar ':'::(t ++ path)) version ∧
    httpVersion version ≠ none ∧ TakenTarget host t path ∧ Slack host t path

theorem httpVersion_length (version : Bytes) (h : httpVersion version ≠ none) :
    tchar ' ' ∉ version ∧ version.length = 8 := by
  unfold httpVersion at h
  split_ifs at h with h0 h1
  · subst h0
    exact ⟨by decide,rfl⟩
  · subst h1
    exact ⟨by decide,rfl⟩
  · exact absurd rfl h

/-- The parts of a line determine it, and the other way round. -/
theorem split_line (line method target version : Bytes) :
    strSplit line (ascii " ") = [method,target,version] ↔
      line = method ++ tchar ' '::(target ++ tchar ' '::version) ∧ tchar ' ' ∉ method ∧
        tchar ' ' ∉ target ∧ tchar ' ' ∉ version :=
  split_three (tchar ' ') line method target version

theorem refused_failed (dst : Destination) (v : HttpVersion) :
    (⟨makeErrorCode .protocolViolation,dst,v,true⟩ : FirstLine).err.failed :=
  makeErrorCode_failed _

/-- What is stored of a target that is accepted. -/
theorem destinationOf_ok (dst : Destination) (v : HttpVersion) (up : UrlParser UInt8) :
    ¬ (destinationOf dst v up).err.failed ↔ ∃ port, up.scheme = none ∧ up.username = none ∧
      up.password = none ∧ up.port = some port ∧ destinationOf dst v up =
        ⟨.noError,(destinationFromUrlParser dst up.host port).1,v,
          (destinationFromUrlParser dst up.host port).2⟩ := by
  constructor
  · intro herr
    unfold destinationOf at herr ⊢
    split_ifs at herr ⊢ with hs hu
    · exact absurd (refused_failed dst v) herr
    · exact absurd (refused_failed dst v) herr
    · simp only [ne_eq, not_or, not_not] at hs hu
      cases hport : up.port with
      | none =>
        simp only [hport] at herr
        exact absurd (refused_failed dst v) herr
      | some port => exact ⟨port,hs,hu.1,hu.2,rfl,rfl⟩
  · rintro ⟨port,-,-,-,-,h⟩
    rw [h]
    exact ErrorCode.noError_failed

/-- What the parser of the first line accepts. -/
theorem first_line (fuel : ℕ) (line : Bytes) (dst : Destination) (httpVer : HttpVersion)
    (p : FirstLine) : (parseFirstLine fuel line dst httpVer = some p ∧ ¬ p.err.failed) ↔
      ∃ target version v up port, line = connectLine target version ∧ tchar ' ' ∉ target ∧
        httpVersion version = some v ∧ parse fuel target = some (some up) ∧
        up.scheme = none ∧ up.username = none ∧ up.password = none ∧ up.port = some port ∧
        p = ⟨.noError,(destinationFromUrlParser dst up.host port).1,v,
          (destinationFromUrlParser dst up.host port).2⟩ := by
  constructor
  · rintro ⟨h,herr⟩
    unfold parseFirstLine at h
    split at h
    · rename_i method target version hsplit
      obtain ⟨rfl,-,hspace,-⟩ := (split_line _ _ _ _).mp hsplit
      split_ifs at h with hm
      · cases h
        exact absurd (refused_failed dst httpVer) herr
      · obtain rfl := not_not.mp hm
        cases hv : httpVersion version with
        | none =>
          simp only [hv, Option.some.injEq] at h
          exact absurd (h ▸ refused_failed dst httpVer) herr
        | some v =>
          simp only [hv, Option.map_eq_some_iff] at h
          obtain ⟨r,hr,rfl⟩ := h
          cases r with
          | none => exact absurd (refused_failed dst v) herr
          | some up =>
            obtain ⟨port,hs,hu,hpwd,hport,hp⟩ := (destinationOf_ok dst v up).mp herr
            exact ⟨target,version,v,up,port,rfl,hspace,hv,hr,hs,hu,hpwd,hport,hp⟩
    · cases h
      exact absurd (refused_failed dst httpVer) herr
  · rintro ⟨target,version,v,up,port,rfl,hspace,hv,hup,hs,hu,hp,hport,rfl⟩
    have hversion := (httpVersion_length version (by simp [hv])).1
    have hsplit := (split_line (connectLine target version) (ascii "CONNECT") target version).mpr
      ⟨rfl,by decide,hspace,hversion⟩
    refine ⟨?_,ErrorCode.noError_failed⟩
    unfold parseFirstLine
    rw [hsplit]
    simp [hv, hup, destinationOf, hs, hu, hp, hport]

/-- The text of a host that a colon ends. -/
theorem host_parts_colon (fuel : ℕ) (s u : Bytes) (host : HostAddress)
    (h : hostPart fuel s = some (some (host,tchar ':'::u))) :
    ∃ raw, s = raw ++ tchar ':'::u ∧ TakenHost raw ∧
      ((raw.head? ≠ some (tchar '[') ∧ host = namedHost raw) ∨
        ∃ inner ip, raw = tchar '['::(inner ++ [tchar ']']) ∧
          fromStringIpv6 fuel inner = some (some ip) ∧ host = .ipAddr ip) := by
  rcases host_read fuel s u host h with ⟨hn,rfl⟩ | ⟨inner,ip,hb,hip,rfl⟩
  · exact ⟨_,hn.text,.named _ hn.nonempty hn.bracket hn.colon,.inl ⟨hn.bracket,rfl⟩⟩
  · exact ⟨_,hb.text,.bracketed inner hb.clean fuel ip hip,.inr ⟨inner,ip,rfl,hip,rfl⟩⟩

/-- An accepted target is taken apart into a host, a port and a path. -/
theorem target_taken (fuel : ℕ) (target : Bytes) (up : UrlParser UInt8) (port : UInt16)
    (hspace : tchar ' ' ∉ target) (h : parse fuel target = some (some up))
    (hs : up.scheme = none) (hu : up.username = none) (hp : up.port = some port) :
    ∃ host t path, target = host ++ tchar ':'::(t ++ path) ∧ TakenTarget host t path ∧
      strToUint t = some port.toNat ∧
      ((host.head? ≠ some (tchar '[') ∧ up.host = namedHost host) ∨
        ∃ inner ip, host = tchar '['::(inner ++ [tchar ']']) ∧
          fromStringIpv6 fuel inner = some (some ip) ∧ up.host = .ipAddr ip) := by
  obtain ⟨scheme,s,host,r,port',q,hscheme,hhost,hport,rfl⟩ := (parse_some fuel target up).mp h
  simp only at hs hu hp
  subst hs hp
  obtain ⟨rfl,hno⟩ := scheme_none _ _ hscheme
  have hat := user_none _ hu
  rw [userinfo_absent _ hat] at hhost
  obtain ⟨t,rfl,hslash,hpath,hv⟩ := port_split r q port hport
  have hlt := port.toNat_lt
  obtain ⟨raw,rfl,htaken,hkind⟩ := host_parts_colon fuel _ _ host hhost
  exact ⟨raw,t,q,rfl,⟨hspace,hno,hat,htaken,(takenPort_iff t).mp ⟨_,by omega,hv⟩,hslash,hpath⟩,
    hv,hkind⟩

theorem narrow_same (s : Bytes) : (strToTstr s : Bytes) = s := List.map_id s

/-- The host that was taken is one of those that may be written. -/
theorem host_announced (fuel : ℕ) (host t path : Bytes) (r : HostAddress)
    (h : TakenTarget host t path) (hslack : ¬ Slack host t path)
    (hkind : (host.head? ≠ some (tchar '[') ∧ r = namedHost host) ∨
      ∃ inner ip, host = tchar '['::(inner ++ [tchar ']']) ∧
        fromStringIpv6 fuel inner = some (some ip) ∧ r = .ipAddr ip) :
    ∃ h : Host UInt8, h.text = host ∧ h.address = r := by
  simp only [Slack, not_or, not_and, not_exists, not_not] at hslack
  obtain ⟨-,hslash,-,hloose,hform⟩ := hslack
  rcases hkind with ⟨hhead,rfl⟩ | ⟨inner,ip,rfl,hip,rfl⟩
  · have hplain : PlainHost host := by
      cases h.host with
      | named host hne hbracket hcolon =>
        exact ⟨hne,hbracket,hcolon,hslash,fun hin => h.user (by simp [hin])⟩
      | bracketed inner hno fuel ip hip => exact absurd rfl hhead
    rcases named_taken host (hloose hhead) with ⟨a,b,c,d,hd,hr⟩ | ⟨hnone,hr⟩
    · exact ⟨.dotted host a b c d hd,rfl,hr.symm⟩
    · exact ⟨.name host hplain hnone,rfl,hr.symm⟩
  · obtain ⟨a,ha⟩ := not_forall_not.mp (hform inner rfl)
    rw [← narrow_same inner] at hip
    refine ⟨.ipv6 inner a ha,?_,?_⟩
    · rw [Host.text, narrow_same]
      rfl
    · rw [Host.address, ipv6_taken fuel inner a ip ha hip]

theorem holds_written (h : Host UInt8) (dst : Destination) (port : UInt16) :
    Holds (destinationFromUrlParser dst h.address port).1 h ∧
      (destinationFromUrlParser dst h.address port).1.port = port := by
  cases h with
  | dotted text a b c d h => exact ⟨⟨rfl,congrArg Address.v4 (htonl_ofLe32 a b c d)⟩,rfl⟩
  | ipv6 text a h => exact ⟨⟨rfl,rfl⟩,rfl⟩
  | name text h other => exact ⟨List.map_id text,rfl⟩

theorem announced_of_tight (line : Bytes) (dst : Destination) (httpVer : HttpVersion)
    (h : ¬ SlackLine line) : SoundLine line dst httpVer := by
  intro fuel p hp herr
  obtain ⟨target,version,v,up,port,rfl,hspace,hv,hup,hs,hu,-,hport,rfl⟩ :=
    (first_line fuel line dst httpVer p).mp ⟨hp,herr⟩
  obtain ⟨host,t,path,rfl,htaken,ht,hkind⟩ :=
    target_taken fuel target up port hspace hup hs hu hport
  have hversion : httpVersion version ≠ none := by simp [hv]
  have hslack : ¬ Slack host t path := fun hsl => h ⟨host,t,path,version,rfl,hversion,htaken,hsl⟩
  obtain ⟨hw,rfl,haddr⟩ := host_announced fuel host t path up.host htaken hslack hkind
  have hlt := port.toNat_lt
  simp only [Slack, not_or, not_not] at hslack
  obtain ⟨rfl,-,hdigits,-⟩ := hslack
  obtain ⟨hholds,hstored⟩ := holds_written hw dst port
  rw [← haddr]
  exact ⟨hw,t,version,port,by rw [List.append_nil],hversion,
    digits_decimal t _ hdigits ht (by omega),hholds,hstored⟩

theorem takenHost_read (host rest : Bytes) (h : TakenHost host) :
    ∃ fuel r, hostPart fuel (host ++ tchar ':'::rest) = some (some (r,tchar ':'::rest)) := by
  cases h with
  | named host hne hbracket hcolon =>
    exact ⟨0,_,unbracketed_host 0 host rest hne hbracket hcolon⟩
  | bracketed inner hno fuel ip hip =>
    refine ⟨fuel,.ipAddr ip,?_⟩
    rw [bracketed_host fuel inner rest hno, hip]
    rfl

/-- Each target that may be made so is accepted. -/
theorem taken_accepted (host t path version : Bytes) (dst : Destination) (httpVer : HttpVersion)
    (hversion : httpVersion version ≠ none) (h : TakenTarget host t path) :
    ∃ fuel p, parseFirstLine fuel (connectLine (host ++ tchar ':'::(t ++ path)) version) dst
      httpVer = some p ∧ ¬ p.err.failed := by
  obtain ⟨v,hv⟩ := Option.ne_none_iff_exists'.mp hversion
  obtain ⟨n,hn,ht⟩ := (takenPort_iff t).mpr h.port
  have hport : portPart (tchar ':'::(t ++ path)) = some (some (UInt16.ofNat n),path) := by
    rw [port_written t path h.slash h.path, ht, Option.bind_some, if_neg (by omega)]
  obtain ⟨fuel,r,hhost⟩ := takenHost_read host (t ++ path) h.host
  have huser := userinfo_absent _ h.user
  have hparse : parse fuel (host ++ tchar ':'::(t ++ path)) =
      some (some ⟨none,none,none,r,some (UInt16.ofNat n),pathPart path⟩) := by
    rw [parse_some]
    refine ⟨none,_,r,_,_,path,scheme_absent _ h.scheme,?_,hport,?_⟩
    · rw [huser]
      exact hhost
    · rw [huser]
  exact ⟨fuel,_,(first_line fuel _ dst httpVer _).mpr
    ⟨_,version,v,_,_,rfl,h.space,hv,hparse,rfl,rfl,rfl,rfl,rfl⟩⟩

/-- The version has the same length in each line, so the targets are the same. -/
theorem target_same (target target' version version' : Bytes)
    (hversion : httpVersion version ≠ none) (hversion' : httpVersion version' ≠ none)
    (h : connectLine target version = connectLine target' version') : target = target' := by
  have hlen := (httpVersion_length version hversion).2
  have hlen' := (httpVersion_length version' hversion').2
  have hcat := List.append_cancel_left h
  exact (List.append_inj' (List.cons.inj hcat).2 (by simp [hlen, hlen'])).1

/-- A host that is written ends in one way only. -/
theorem host_same (host t t' : Bytes) (hw : Host UInt8) (h : TakenHost host)
    (heq : host ++ tchar ':'::t = hw.text ++ tchar ':'::t') : host = hw.text := by
  have hplain : ∀ text : Bytes, PlainHost text →
      (text ++ tchar ':'::t').head? ≠ some (tchar '[') := fun text h => plain_head text _ h
  cases h with
  | named host hne hbracket hcolon =>
    have hb : (hw.text ++ tchar ':'::t').head? ≠ some (tchar '[') := by
      rw [← heq]
      obtain ⟨c,cs,rfl⟩ := List.exists_cons_of_ne_nil hne
      exact hbracket
    have hcolon' : tchar ':' ∉ hw.text := by
      cases hw with
      | dotted text a b c d h => exact (dotted_host text a b c d h).colon
      | ipv6 s a h => exact absurd rfl hb
      | name text h other => exact h.colon
    rw [← (host_colon host t hcolon).1, heq, (host_colon _ t' hcolon').1]
  | bracketed inner hno fuel ip hip =>
    cases hw with
    | dotted text a b c d h =>
      exact absurd (congrArg List.head? heq.symm) (hplain text (dotted_host text a b c d h))
    | name text h other => exact absurd (congrArg List.head? heq.symm) (hplain text h)
    | ipv6 s a h =>
      have hclean := ipv6_clean (T := UInt8) s _ h ']' (by decide) rfl
      have hbefore := congrArg (fun x => before (tchar ']') x.tail) heq
      simp only [Host.text, List.cons_append, List.tail_cons, List.append_assoc,
        before_append _ _ _ hno, before_append _ _ _ hclean, before_self, List.nil_append,
        List.append_nil] at hbefore
      rw [hbefore]
      rfl

/-- A host that is written is neither loose nor in no text form. -/
theorem host_tight (hw : Host UInt8) :
    (hw.text.head? ≠ some (tchar '[') → ¬ Ipv4Literal.Loose hw.text) ∧
      ∀ inner, hw.text = tchar '['::(inner ++ [tchar ']']) →
        ∃ a : Buffer 16, Ipv6Text inner a.bytes := by
  cases hw with
  | dotted text a b c d h =>
    refine ⟨fun _ hl => Ipv4Literal.loose_not_dotted _ hl ⟨a,b,c,d,h⟩,fun inner hin => ?_⟩
    exact absurd (congrArg List.head? hin) (dotted_host text a b c d h).bracket
  | ipv6 s a h =>
    refine ⟨fun hb => absurd rfl hb,fun inner hin => ⟨a,?_⟩⟩
    rw [Host.text, narrow_same] at hin
    obtain rfl : s = inner := (List.append_inj' (List.cons.inj hin).2 rfl).1
    exact h
  | name text h other =>
    refine ⟨fun _ hl => ?_,fun inner hin => absurd (congrArg List.head? hin) h.bracket⟩
    obtain ⟨ip,hip⟩ := (Ipv4Literal.accepted_iff 0 text).mpr (.inl hl)
    exact absurd (other.symm.trans hip) (by simp)

/-- A line in the announced form can be taken apart in one way only. -/
theorem announced_tight (host t path version : Bytes) (dst : Destination)
    (htaken : TakenTarget host t path) (hversion : httpVersion version ≠ none)
    (h : Announced (connectLine (host ++ tchar ':'::(t ++ path)) version) dst) :
    ¬ Slack host t path := by
  obtain ⟨hw,t',version',port,hline,hversion',hport,-⟩ := h
  have htarget := target_same _ _ _ _ hversion hversion' hline
  have hslash : tchar '/' ∉ host ++ tchar ':'::(t ++ path) := by
    rw [htarget]
    simp [(host_clean hw).1, digits_clean t' hport.digit '/' (by decide), slash_ne_colon]
  simp only [List.mem_append, List.mem_cons, not_or] at hslash
  have hpath : path = [] := by
    rcases htaken.path with h0 | ⟨q,rfl⟩
    · exact h0
    · exact absurd (by simp) hslash.2.2.2
  subst hpath
  rw [List.append_nil] at htarget
  obtain rfl := host_same host t t' hw htaken.host htarget
  obtain rfl : t = t' := (List.cons.inj (List.append_cancel_left htarget)).2
  obtain ⟨hloose,hform⟩ := host_tight hw
  rintro (h0 | h0 | h0 | ⟨hb,hl⟩ | ⟨inner,hinner,hno⟩)
  · exact h0 rfl
  · exact hslash.1 h0
  · rcases h0 with h0 | ⟨c,hc,hno⟩
    · exact hport.nonempty h0
    · exact hno (hport.digit c hc)
  · exact hloose hb hl
  · exact hno (hform inner hinner)

/-- A line that is accepted is in the announced form, and is stored as it is
written, exactly where its target has no slack. -/
theorem request_target (line : Bytes) (dst : Destination) (httpVer : HttpVersion) :
    SoundLine line dst httpVer ↔ ¬ SlackLine line := by
  constructor
  · rintro h ⟨host,t,path,version,rfl,hversion,htaken,hslack⟩
    obtain ⟨fuel,p,hp,herr⟩ := taken_accepted host t path version dst httpVer hversion htaken
    exact announced_tight host t path version p.dst htaken hversion (h fuel p hp herr) hslack
  · exact announced_of_tight line dst httpVer

/-- A path behind the port is accepted and dropped. -/
theorem path_dropped : ¬ SoundLine (ascii "CONNECT h:80/x HTTP/1.1") {} .http10 := by
  intro h
  have htaken : TakenTarget (ascii "h") (ascii "80") (ascii "/x") :=
    { space := by decide
      scheme := by decide
      user := by decide
      host := .named _ (by decide) (by decide) (by decide)
      port := .inr ⟨80,by decide,[],[],ascii "80",false,80,rfl,by simp,.absent,
        ⟨by decide,digits_all _ rfl,rfl⟩,rfl⟩
      slash := by decide
      path := .inr ⟨ascii "x",rfl⟩ }
  exact announced_tight _ _ _ (ascii "HTTP/1.1") _ htaken (by decide)
    (h 0 ⟨.noError,⟨ascii "h",default,80⟩,.http11,true⟩ rfl ErrorCode.noError_failed)
    (.inl (by decide))

end ProxySwiss.RequestTarget
