import ProxySwiss.RequestLines

/-!
# Header lines are not verified

What a header line is found to be goes to a variable of its own, and the
condition asks for the error of the transport, which is none at this point. A
malformed line is therefore passed over as any other, wherever it stands.
-/

set_option autoImplicit false

namespace ProxySwiss.HeaderVerification
open Memory Text TransitionSystem CallbackObject StreamObject ServerSessionHttps ServerHttpsRun
  HttpsReading RequestLines

def Verified (l : Bytes) : Prop :=
  ∀ text, trimLine l = some text → ¬ (verifyHeaderLine text).failed

/-- Whatever is reported as a request has header lines that are verified. -/
def Checked (fuel : ℕ) (s : Session) (inp : Bytes) : Prop :=
  ∀ (f : Faults) w, Run (Flow (server fuel) f.may inp) (start s) w → Success ∈ w.events →
    ∀ (first : Bytes) (hs : List Bytes) (last : Bytes), w.taken = first ++ hs.flatten ++ last →
      Line first → (∀ l ∈ hs, Line l ∧ ¬ EmptyLine l) → EmptyLine last → ∀ l ∈ hs, Verified l

def Refused (s : Session) (p : FirstLine) (w : ServerWire) : Prop :=
  w.active = [] ∧ w.events = asserts p ++ [.call .readReq (makeErrorCode .protocolViolation)] ∧
    w.obj.userDst = s.userDst

/-- Behind any number of verified lines, a malformed one is refused. -/
def Rejected (fuel : ℕ) (s : Session) (inp : Bytes) : Prop :=
  ∀ first p (hs : List Bytes) bad, Accepted fuel s first p → (∀ l ∈ hs, HeaderLine l ∧ Verified l) →
    HeaderLine bad → ¬ Verified bad → first ++ hs.flatten ++ bad <+: inp →
      Inevitable (Flow (server fuel) Faults.none.may inp) (Refused s p) (start s)

def HeaderChecked (fuel : ℕ) (s : Session) (inp : Bytes) : Prop :=
  Checked fuel s inp ∧ Rejected fuel s inp

/-- A malformed line stands among the first header lines on the stream. -/
def MalformedHeader (fuel : ℕ) (s : Session) (inp : Bytes) : Prop :=
  ∃ first p, ∃ (hs : List Bytes) (bad : Bytes), Accepted fuel s first p ∧
    (∀ l ∈ hs, HeaderLine l) ∧ HeaderLine bad ∧ ¬ Verified bad ∧ first ++ hs.flatten ++ bad <+: inp

theorem empty_line (l : Bytes) (h : EmptyLine l) : Line l := by
  rcases h with rfl | rfl
  · exact ⟨[],rfl,by decide⟩
  · exact ⟨[0x0d],rfl,by decide⟩

/-- Lines that are not empty, up to an empty one, are found in one way only. -/
theorem lines_agree (hs hs' : List Bytes) (last last' : Bytes)
    (hhs : ∀ l ∈ hs, Line l ∧ ¬ EmptyLine l) (hhs' : ∀ l ∈ hs', Line l ∧ ¬ EmptyLine l)
    (hlast : EmptyLine last) (hlast' : EmptyLine last')
    (h : hs.flatten ++ last = hs'.flatten ++ last') : hs = hs' := by
  induction hs generalizing hs' with
  | nil =>
    cases hs' with
    | nil => rfl
    | cons l' hs' =>
      obtain ⟨hl',hne⟩ := hhs' l' (by simp)
      have hpre : l' <+: last := ⟨hs'.flatten ++ last',by simpa using h.symm⟩
      exact absurd (line_first l' last hl' (empty_line last hlast) hpre ▸ hlast) hne
  | cons l hs ih =>
    obtain ⟨hl,hne⟩ := hhs l (by simp)
    cases hs' with
    | nil =>
      have hpre : l <+: last' := ⟨hs.flatten ++ last,by simpa using h⟩
      exact absurd (line_first l last' hl (empty_line last' hlast') hpre ▸ hlast') hne
    | cons l' hs' =>
      simp only [List.flatten_cons, List.append_assoc] at h
      obtain rfl : l = l' := line_agree l l' _ hl (hhs' l' (by simp)).1 (List.prefix_append _ _)
        ⟨_,h.symm⟩
      rw [ih hs' (fun x hx => hhs x (by simp [hx])) (fun x hx => hhs' x (by simp [hx]))
        (List.append_cancel_left h)]

theorem not_success (es : List Event) (h : ∀ e ∈ es, e = .assertFailed) : Success ∉ es :=
  fun hin => absurd (h _ hin) (by simp [Success])

/-- What has been taken when success is reported. -/
theorem success_taken (fuel : ℕ) (f : Faults) (s : Session) (hs : Idle s) (inp : Bytes)
    (w : ServerWire) (hr : Run (Flow (server fuel) f.may inp) (start s) w)
    (hin : Success ∈ w.events) :
    ∃ first p, ∃ (hs : List Bytes) (last : Bytes), Accepted fuel s first p ∧
      (∀ l ∈ hs, HeaderLine l) ∧ EmptyLine last ∧ w.taken = first ++ hs.flatten ++ last ∧
      w.taken <+: inp := by
  obtain ⟨ht,c,hc,hstage⟩ := run_stage fuel f s hs inp w hr
  cases hstage with
  | first cur hcur hmax ho h =>
    obtain ⟨_,-,-,-,-,hev⟩ := tracks_at_op w c _ _ _ _ hc h
    exact absurd (hev ▸ hin) (by simp)
  | header first p hs cur hp hhs hcur hmax ho h =>
    obtain ⟨_,-,-,-,-,hev⟩ := tracks_at_op w c _ _ _ _ hc h
    exact absurd (hev ▸ hin) (not_success _ (asserts_all p))
  | done first p hs last hp hhs hlast ho hd h =>
    obtain ⟨-,htk,-,-⟩ := tracks_at_idle w c _ _ _ hc h
    exact ⟨first,p,hs,last,hp,hhs,hlast,htk,ht⟩
  | failed err t es herr why hes ho hd h =>
    obtain ⟨-,-,-,hev⟩ := tracks_at_idle w c _ _ _ hc h
    rw [hev, List.mem_append, List.mem_singleton] at hin
    rcases hin with hin | hin
    · exact absurd hin (not_success es hes)
    · exact absurd (Event.call.inj hin).2 fun h => ErrorCode.noError_failed (h ▸ herr)
  | hung first hl hp ho h =>
    obtain ⟨-,-,-,hev⟩ := tracks_at_idle w c _ _ _ hc h
    exact absurd (hev ▸ hin) (by simp)

theorem checked_of_wellformed (fuel : ℕ) (s : Session) (hs : Idle s) (inp : Bytes)
    (h : ¬ MalformedHeader fuel s inp) : Checked fuel s inp := by
  intro f w hr hin first ls last htaken hfirst hls hlast l hl
  obtain ⟨first',p,ls',last',hp,hls',hlast',htaken',hpre⟩ :=
    success_taken fuel f s hs inp w hr hin
  rw [htaken, List.append_assoc] at htaken'
  rw [List.append_assoc first'] at htaken'
  obtain rfl := line_agree first first' _ hfirst hp.1.line (List.prefix_append _ _)
    ⟨_,htaken'.symm⟩
  obtain rfl := lines_agree ls ls' last last' hls (fun x hx => ⟨(hls' x hx).1.line,(hls' x hx).2⟩)
    hlast hlast' (List.append_cancel_left htaken')
  by_contra hbad
  obtain ⟨pre,post,rfl⟩ := List.append_of_mem hl
  refine h ⟨first,p,pre,l,hp,fun x hx => hls' x (by simp [hx]),hls' l hl,hbad,?_⟩
  refine List.IsPrefix.trans ⟨post.flatten ++ last,?_⟩ hpre
  simp [htaken]

/-- Without failures nothing is refused once the first line is accepted. -/
theorem never_refused (fuel : ℕ) (s : Session) (hs : Idle s) (inp first : Bytes) (p : FirstLine)
    (hp : Accepted fuel s first p) (hpre : first <+: inp) (w : ServerWire)
    (hr : Run (Flow (server fuel) Faults.none.may inp) (start s) w) : ¬ Refused s p w := by
  rintro ⟨hact,hev,-⟩
  obtain ⟨ht,c,hc,hstage⟩ := run_stage fuel Faults.none s hs inp w hr
  cases hstage with
  | first cur hcur hmax ho h =>
    exact absurd h (not_at_op w c _ _ _ _ hc hact)
  | header first' p' hs cur hp' hhs hcur hmax ho h =>
    exact absurd h (not_at_op w c _ _ _ _ hc hact)
  | done first' p' hs last hp' hhs hlast ho hd h =>
    obtain ⟨-,-,-,he⟩ := tracks_at_idle w c _ _ _ hc h
    have hlast := (List.append_inj' (hev.symm.trans he) rfl).2
    exact absurd hlast (by simp [Success, ErrorCode.noError, makeErrorCode])
  | failed err t es herr why hes ho hd h =>
    obtain ⟨-,htk,-,he⟩ := tracks_at_idle w c _ _ _ hc h
    have hlast := (List.append_inj' (hev.symm.trans he) rfl).2
    simp only [List.cons.injEq, Event.call.injEq, true_and, and_true] at hlast
    cases why with
    | fault hf => exact hf
    | tooLong h => exact absurd (hlast.trans h) (by decide)
    | refused p' hl hparse herr' =>
      -- the line that is refused is the one that was accepted
      obtain rfl := line_agree t first inp hl hp.1.line (htk ▸ ht) hpre
      obtain ⟨text,htext,hp'⟩ := hparse
      obtain ⟨text',htext',hp''⟩ := hp.2.1
      obtain rfl := Option.some.inj (htext.symm.trans htext')
      obtain rfl := Option.some.inj (hp'.symm.trans hp'')
      exact hp.2.2 (herr' ▸ herr)
  | hung first' hl hp' ho h =>
    obtain ⟨-,-,-,he⟩ := tracks_at_idle w c _ _ _ hc h
    exact absurd (hev.symm.trans he) (by simp)

/-- The first malformed line of a list, and the lines in front of it. -/
theorem first_malformed (hs : List Bytes) (bad : Bytes) (hbad : ¬ Verified bad) :
    ∃ pre x post, hs ++ [bad] = pre ++ x::post ∧ (∀ l ∈ pre, Verified l) ∧ ¬ Verified x := by
  induction hs with
  | nil => exact ⟨[],bad,[],rfl,by simp,hbad⟩
  | cons l hs ih =>
    by_cases hl : Verified l
    · obtain ⟨pre,x,post,heq,hpre,hx⟩ := ih
      refine ⟨l::pre,x,post,by rw [List.cons_append, heq, List.cons_append],?_,hx⟩
      intro y hy
      rcases List.mem_cons.mp hy with rfl | hy
      · exact hl
      · exact hpre y hy
    · exact ⟨[],l,hs ++ [bad],rfl,by simp,hl⟩

theorem malformed_accepted (fuel : ℕ) (s : Session) (hs : Idle s) (inp : Bytes)
    (h : MalformedHeader fuel s inp) : ¬ Rejected fuel s inp := by
  intro hrej
  obtain ⟨first,p,ls,bad,hp,hls,hbad,hmal,hpre⟩ := h
  obtain ⟨pre,x,post,heq,hver,hx⟩ := first_malformed ls bad hmal
  have hall : ∀ l ∈ pre ++ x::post, HeaderLine l := by
    intro l hl
    rw [← heq] at hl
    rcases List.mem_append.mp hl with hl | hl
    · exact hls l hl
    · exact List.mem_singleton.mp hl ▸ hbad
  have hflat : pre.flatten ++ (x ++ post.flatten) = ls.flatten ++ bad := by
    have h0 := congrArg List.flatten heq
    simpa using h0.symm
  have hin : first ++ pre.flatten ++ x <+: inp := by
    refine List.IsPrefix.trans ⟨post.flatten,?_⟩ hpre
    simp only [List.append_assoc]
    rw [hflat]
  obtain ⟨w,hr,hw⟩ := (hrej first p pre x hp (fun l hl => ⟨hall l (by simp [hl]),hver l hl⟩)
    (hall x (by simp)) hx hin).reached
  refine never_refused fuel s hs inp first p hp ?_ w hr hw
  rw [List.append_assoc] at hin
  exact (List.prefix_append _ _).trans hin

/-- The header lines are checked exactly where there is nothing to be found. -/
theorem header_verification (fuel : ℕ) (s : Session) (hs : Idle s) (inp : Bytes) :
    HeaderChecked fuel s inp ↔ ¬ MalformedHeader fuel s inp := by
  constructor
  · intro h hmal
    exact malformed_accepted fuel s hs inp hmal h.2
  · intro h
    refine ⟨checked_of_wellformed fuel s hs inp h,?_⟩
    rintro first p ls bad hp hls hbad hver hpre
    exact absurd ⟨first,p,ls,bad,hp,fun l hl => (hls l hl).1,hbad,hver,hpre⟩ h

/-- Lines on the stream in front of an empty one are those that were sent. -/
theorem lines_within (hs ls : List Bytes) (last : Bytes)
    (hhs : ∀ l ∈ hs, Line l ∧ ¬ EmptyLine l) (hls : ∀ l ∈ ls, Line l) (hlast : EmptyLine last)
    (h : hs.flatten <+: ls.flatten ++ last) : ∀ l ∈ hs, l ∈ ls := by
  induction ls generalizing hs with
  | nil =>
    cases hs with
    | nil => simp
    | cons l hs =>
      obtain ⟨hl,hne⟩ := hhs l (by simp)
      have hpre : l <+: last := (List.prefix_append l hs.flatten).trans h
      exact absurd (line_first l last hl (empty_line last hlast) hpre ▸ hlast) hne
  | cons x ls ih =>
    cases hs with
    | nil => simp
    | cons l hs =>
      simp only [List.flatten_cons, List.append_assoc] at h
      obtain rfl : l = x := line_agree l x _ (hhs l (by simp)).1 (hls x (by simp))
        ((List.prefix_append _ _).trans h) (List.prefix_append _ _)
      have hrest := ih hs (fun y hy => hhs y (by simp [hy])) (fun y hy => hls y (by simp [hy]))
        ((List.prefix_append_right_inj l).mp h)
      intro y hy
      rcases List.mem_cons.mp hy with rfl | hy
      · exact List.mem_cons_self ..
      · exact List.mem_cons_of_mem _ (hrest y hy)

/-- A request with one header line. -/
def plainRequest : Bytes := ascii "CONNECT h:80 HTTP/1.1\na: b\n\n"

theorem header_verification_plain : HeaderChecked 0 {} plainRequest := by
  refine (header_verification 0 {} ⟨rfl,rfl⟩ plainRequest).mpr ?_
  rintro ⟨first,p,hs,bad,hp,hhs,hbad,hver,hpre⟩
  obtain rfl : first = ascii "CONNECT h:80 HTTP/1.1\n" := line_agree _ _ plainRequest hp.1.line
    ⟨ascii "CONNECT h:80 HTTP/1.1",rfl,by decide⟩
    ((List.prefix_append _ _).trans ((List.append_assoc _ _ _).symm ▸ hpre)) (by decide)
  have hsplit : plainRequest =
      ascii "CONNECT h:80 HTTP/1.1\n" ++ ([ascii "a: b\n"].flatten ++ [0x0a]) := by decide
  have hlines : (hs ++ [bad]).flatten <+: [ascii "a: b\n"].flatten ++ [0x0a] := by
    rw [hsplit, List.append_assoc, List.prefix_append_right_inj] at hpre
    rw [List.flatten_concat]
    exact hpre
  have hin := lines_within (hs ++ [bad]) [ascii "a: b\n"] [0x0a]
    (by
      intro l hl
      rcases List.mem_append.mp hl with hl | hl
      · exact ⟨(hhs l hl).1.line,(hhs l hl).2⟩
      · exact List.mem_singleton.mp hl ▸ ⟨hbad.1.line,hbad.2⟩)
    (by simpa using ⟨ascii "a: b",rfl,by decide⟩) (.inl rfl) hlines bad (by simp)
  obtain rfl := List.mem_singleton.mp hin
  refine hver fun text htext => ?_
  obtain rfl : ascii "a: b" = text := Option.some.inj htext
  decide

/-- A header line without a name and a value. -/
def malformedRequest : Bytes := ascii "CONNECT h:80 HTTP/1.1\nbad\n\n"

/-- The request is reported as a success, with the malformed line in it. -/
theorem malformed_reported : ¬ HeaderChecked 0 {} malformedRequest := by
  rintro ⟨h,-⟩
  have hfirst : Accepted 0 {} (ascii "CONNECT h:80 HTTP/1.1\n")
      ⟨.noError,⟨ascii "h",default,80⟩,.http11,true⟩ :=
    ⟨⟨⟨ascii "CONNECT h:80 HTTP/1.1",rfl,by decide⟩,by decide⟩,⟨_,rfl,rfl⟩,
      ErrorCode.noError_failed⟩
  have hbad : HeaderLine (ascii "bad\n") :=
    ⟨⟨⟨ascii "bad",rfl,by decide⟩,by decide⟩,by simp [EmptyLine, ascii]⟩
  obtain ⟨w,hr,-,ht,he,-⟩ := (request_inevitable 0 {} ⟨rfl,rfl⟩ malformedRequest _ (ascii "\n") _
    [ascii "bad\n"] hfirst (by simpa using hbad) (.inl rfl) (List.prefix_refl _)).reached
  refine h Faults.none w hr (by simp [he]) _ _ _ ht hfirst.1.line
    (by simpa using ⟨hbad.1.line,hbad.2⟩) (.inl rfl) (ascii "bad\n") (by simp) (ascii "bad") rfl ?_
  exact makeErrorCode_failed .protocolViolation

end ProxySwiss.HeaderVerification
