import ProxySwiss.RequestLines
import ProxySwiss.RequestTarget
import ProxySwiss.UrlRoundTrip

/-!
# Requests that are understood

A CONNECT line for a host and a port, header lines and an empty line are read to
their end, whatever follows them, and the host and the port are reported as they
are written. Where a line does not end in time, this is reported instead.
-/

set_option autoImplicit false

namespace ProxySwiss.HttpsCompleteness
open Memory Text TransitionSystem CallbackObject StreamObject UrlParser HostText PortGrammar
  UrlRoundTrip RequestTarget ServerSessionHttps ServerHttpsRun HttpsReading RequestLines

def banner : HttpVersion → Bytes
  | .http10 => ascii "HTTP/1.0"
  | .http11 => ascii "HTTP/1.1"

/-- The ending of a line is a text that would be an empty line by itself. -/
structure HeaderText where
  name : Bytes
  value : Bytes
  ending : Bytes
  name_ok : name ≠ [] ∧ 0x0d ∉ name ∧ 0x0a ∉ name ∧ ¬ ascii ": " <:+: name
  value_ok : value ≠ [] ∧ 0x0d ∉ value ∧ 0x0a ∉ value ∧ ¬ ascii ": " <:+: value
  ending_ok : EmptyLine ending

def HeaderText.line (h : HeaderText) : Bytes := h.name ++ ascii ": " ++ h.value ++ h.ending

/-- A request without the empty line at its end. -/
structure Head where
  host : Host UInt8
  portText : Bytes
  port : UInt16
  version : HttpVersion
  ending : Bytes
  headers : List HeaderText
  host_ok : ∀ text h other, host = .name text h other → tchar ' ' ∉ text ∧ 0x0a ∉ text
  port_ok : PortText portText port
  ending_ok : EmptyLine ending

namespace Head

def target (r : Head) : Bytes := r.host.text ++ tchar ':'::r.portText
def first (r : Head) : Bytes := connectLine r.target (banner r.version) ++ r.ending
def text (r : Head) : Bytes := r.first ++ (r.headers.map HeaderText.line).flatten

structure Short (r : Head) : Prop where
  first : r.first.length ≤ kMaxLineLen
  headers : ∀ h ∈ r.headers, h.line.length ≤ kMaxLineLen

end Head

/-- The call has ended with this code, after nothing but failed assertions. -/
def Reports (err : ErrorCode) (w : ServerWire) : Prop :=
  w.active = [] ∧ ∃ es, (∀ e ∈ es, e = .assertFailed) ∧ w.events = es ++ [.call .readReq err]

/-- The request is reported, with its host and its port, and nothing behind it
is taken. -/
def Understood (s : Session) (r : Head) (last : Bytes) : Prop :=
  ∃ N, ∀ fuel, N ≤ fuel → ∀ rest,
    Inevitable (Flow (server fuel) Faults.none.may (r.text ++ last ++ rest))
      (fun w => Reports .noError w ∧ w.taken = r.text ++ last ∧ Holds w.obj.userDst r.host ∧
        w.obj.userDst.port = r.port) (start s)

/-- Behind the given lines, a line that does not end is reported as such. -/
def CutOff (s : Session) (lines : Bytes) : Prop :=
  ∃ N, ∀ fuel, N ≤ fuel → ∀ body rest : Bytes, body.length = kMaxLineLen → 0x0a ∉ body →
    Inevitable (Flow (server fuel) Faults.none.may (lines ++ body ++ rest))
      (Reports (makeErrorCode .lineTooLong)) (start s)

def Complete (s : Session) : Prop :=
  (∀ r last, Head.Short r → EmptyLine last → Understood s r last) ∧
    CutOff s [] ∧ ∀ r, Head.Short r → CutOff s r.text

theorem version_banner (v : HttpVersion) : httpVersion (banner v) = some v := by
  cases v <;> rfl

/-- Only the ending of a line is trimmed. -/
theorem trimLine_end (l e : Bytes) (he : EmptyLine e) (hl : l.getLast? ≠ some 0x0d) :
    trimLine (l ++ e) = some l := by
  rcases he with rfl | rfl
  · simp [trimLine, hl]
  · simp [trimLine]

theorem ended_line (body e : Bytes) (hbody : 0x0a ∉ body) (he : EmptyLine e) :
    Line (body ++ e) := by
  rcases he with rfl | rfl
  · exact ⟨body,rfl,hbody⟩
  · exact ⟨body ++ [0x0d],by simp,by simp [hbody]⟩

theorem header_line (h : HeaderText) (hshort : h.line.length ≤ kMaxLineLen) :
    HeaderLine h.line := by
  refine ⟨⟨ended_line _ _ ?_ h.ending_ok,hshort⟩,fun hempty => ?_⟩
  · have hsep : (0x0a : UInt8) ∉ ascii ": " := by decide
    simp [h.name_ok.2.2.1, h.value_ok.2.2.1, hsep]
  · have hname := List.length_pos_iff.mpr h.name_ok.1
    have hsep : (ascii ": ").length = 2 := rfl
    have hlen : h.line.length ≤ 2 := by rcases hempty with he | he <;> simp [he]
    simp only [HeaderText.line, List.length_append] at hlen
    have hvalue := List.length_pos_iff.mpr h.value_ok.1
    omega

/-- Neither a space nor a line feed stands in a host. -/
theorem host_plain (r : Head) : tchar ' ' ∉ r.host.text ∧ 0x0a ∉ r.host.text := by
  have hname := r.host_ok
  cases hh : r.host with
  | dotted text a b c d h =>
    have hspace := dotted_clean text a b c d h ' ' (by decide) (by decide)
    have hfeed := dotted_clean text a b c d h '\n' (by decide) (by decide)
    exact ⟨hspace,hfeed⟩
  | ipv6 s a h =>
    have hspace := ipv6_clean (T := UInt8) s _ h ' ' (by decide) rfl
    have hfeed := ipv6_clean (T := UInt8) s _ h '\n' (by decide) rfl
    constructor
    · simp only [Host.text, List.mem_append, List.mem_cons, List.not_mem_nil, or_false, not_or]
      exact ⟨⟨by decide,hspace⟩,by decide⟩
    · simp only [Host.text, List.mem_append, List.mem_cons, List.not_mem_nil, or_false, not_or]
      exact ⟨⟨by decide,hfeed⟩,by decide⟩
  | name text h other => exact hname text h other hh

theorem target_plain (r : Head) : tchar ' ' ∉ r.target ∧ 0x0a ∉ r.target := by
  obtain ⟨hspace,hfeed⟩ := host_plain r
  have hdigits := digits_clean r.portText r.port_ok.digit
  constructor
  · simp only [Head.target, List.mem_append, List.mem_cons, not_or]
    exact ⟨hspace,by decide,hdigits ' ' (by decide)⟩
  · simp only [Head.target, List.mem_append, List.mem_cons, not_or]
    exact ⟨hfeed,by decide,hdigits '\n' (by decide)⟩

theorem target_parsed (r : Head) : ∃ N, ∀ fuel, N ≤ fuel → parse fuel r.target =
    some (some ⟨none,none,none,r.host.address,some r.port,[]⟩) := by
  have hpath : ¬ tstr "://" <:+: ([] : Bytes) := fun h => absurd (List.infix_nil.mp h) (by decide)
  obtain ⟨N,hN⟩ := pieces_parsed
    (Pieces.endpoint none none r.host r.portText r.port (by simp) (by simp) r.port_ok)
    (fun _ => hpath) (fun _ => List.not_mem_nil) (fun _ => List.not_mem_nil)
  refine ⟨N,fun fuel hfuel => ?_⟩
  have h := hN fuel hfuel
  simpa [Pieces.text, Pieces.behindScheme, Pieces.authority, Pieces.tail, Pieces.endpoint,
    schemeText, userText, portText, Head.target] using h

theorem first_accepted (s : Session) (r : Head) (h : Head.Short r) :
    ∃ N, ∀ fuel, N ≤ fuel → ∃ p, Accepted fuel s r.first p ∧ Holds p.dst r.host ∧
      p.dst.port = r.port := by
  obtain ⟨N,hN⟩ := target_parsed r
  refine ⟨N,fun fuel hfuel => ?_⟩
  obtain ⟨hspace,hfeed⟩ := target_plain r
  obtain ⟨hp,herr⟩ := (first_line fuel (connectLine r.target (banner r.version)) s.parsedDst
    s.httpVer _).mpr
      ⟨_,_,_,_,_,rfl,hspace,version_banner r.version,hN fuel hfuel,rfl,rfl,rfl,rfl,rfl⟩
  have hlast : (connectLine r.target (banner r.version)).getLast? ≠ some 0x0d := by
    have hend : (banner r.version).getLast? = some 0x30 ∨
        (banner r.version).getLast? = some 0x31 := by
      cases r.version <;> decide
    rw [connectLine, List.getLast?_append, List.getLast?_cons, List.getLast?_append,
      List.getLast?_cons]
    rcases hend with hend | hend <;> simp [hend]
  have hbody : 0x0a ∉ connectLine r.target (banner r.version) := by
    simp only [connectLine, List.mem_append, List.mem_cons, not_or]
    refine ⟨by decide,by decide,hfeed,by decide,?_⟩
    cases r.version <;> decide
  obtain ⟨hholds,hport⟩ := holds_written r.host s.parsedDst r.port
  refine ⟨_,⟨⟨ended_line _ _ hbody r.ending_ok,h.first⟩,⟨_,trimLine_end _ _ r.ending_ok hlast,hp⟩,
    herr⟩,hholds,hport⟩

theorem headers_ok (r : Head) (h : Head.Short r) :
    ∀ l ∈ r.headers.map HeaderText.line, HeaderLine l := by
  intro l hl
  obtain ⟨x,hx,rfl⟩ := List.mem_map.mp hl
  exact header_line x (h.headers x hx)

theorem understood (s : Session) (hs : Idle s) (r : Head) (last : Bytes) (h : Head.Short r)
    (hlast : EmptyLine last) : Understood s r last := by
  obtain ⟨N,hN⟩ := first_accepted s r h
  refine ⟨N,fun fuel hfuel rest => ?_⟩
  obtain ⟨p,hp,hholds,hport⟩ := hN fuel hfuel
  refine (request_inevitable fuel s hs (r.text ++ last ++ rest) r.first last p _ hp
    (headers_ok r h) hlast (List.prefix_append _ _)).strengthen ?_
  rintro w - ⟨hact,ht,he,hdst⟩
  rw [hdst]
  exact ⟨⟨hact,asserts p,asserts_all p,he⟩,ht,hholds,hport⟩

theorem cut_first (s : Session) (hs : Idle s) : CutOff s [] := by
  refine ⟨0,fun fuel _ body rest hlen hbody => ?_⟩
  have hread : Reading .handleReadFirstLine (begun s []) [] [] []
      (Conf.begun (readConnectRequest s)) := by
    rw [begun_eq s hs]
    exact ⟨rfl,at_begun _⟩
  obtain ⟨c,hc,-,hat⟩ := long_fed fuel _ (begun s []) [] body [] _ hread rfl hbody hlen
  refine (fed_inevitable fuel s _ body c _ hc hat (List.prefix_append _ _)).strengthen ?_
  rintro w - ⟨hact,-,he,-⟩
  exact ⟨hact,[],by simp,he⟩

theorem cut_later (s : Session) (hs : Idle s) (r : Head) (h : Head.Short r) :
    CutOff s r.text := by
  obtain ⟨N,hN⟩ := first_accepted s r h
  refine ⟨N,fun fuel hfuel body rest hlen hbody => ?_⟩
  obtain ⟨p,hp,-,-⟩ := hN fuel hfuel
  obtain ⟨c1,h1,hread⟩ := head_fed fuel s hs r.first p _ hp (headers_ok r h)
  obtain ⟨c2,h2,-,hat⟩ := long_fed fuel _ (headed s p []) _ body _ c1 hread rfl hbody hlen
  refine (fed_inevitable fuel s _ _ c2 _ (h1.append _ _ _ _ _ _ h2) hat
    (List.prefix_append _ _)).strengthen ?_
  rintro w - ⟨hact,-,he,-⟩
  exact ⟨hact,asserts p,asserts_all p,he⟩

/-- Every request of the grammar is understood, and where a line behind its lines
does not end in time, this is what is reported. -/
theorem https_completeness (s : Session) (hs : Idle s) : Complete s :=
  ⟨fun r last h hlast => understood s hs r last h hlast,cut_first s hs,
    fun r h => cut_later s hs r h⟩

/-- A request with one header line, whose lines end in either way. -/
def plainHead : Head where
  host := .name (ascii "host") ⟨by decide,by decide,by decide,by decide,by decide⟩ rfl
  portText := ascii "80"
  port := 80
  version := .http11
  ending := ascii "\r\n"
  headers := [⟨ascii "a",ascii "b",ascii "\n",by decide,by decide,.inl rfl⟩]
  host_ok := by
    rintro text h other heq
    obtain rfl := Host.name.inj heq
    decide
  port_ok := ⟨by decide,digits_all _ rfl,rfl⟩
  ending_ok := .inr rfl

theorem https_completeness_plain : Understood {} plainHead (ascii "\r\n") ∧
    CutOff {} plainHead.text := by
  have hshort : Head.Short plainHead :=
    ⟨by decide,by simp [plainHead, HeaderText.line, ascii, kMaxLineLen]⟩
  have h := https_completeness {} ⟨rfl,rfl⟩
  exact ⟨h.1 plainHead _ hshort (.inr rfl),h.2.2 plainHead hshort⟩

end ProxySwiss.HttpsCompleteness
