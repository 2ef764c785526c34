import ProxySwiss.HttpsReading
import ProxySwiss.StreamFeed

/-!
# Lines that are on the stream

A line that is on the stream is read octet by octet, and the call goes on to
what its handler makes of it. The lines of a request end in success, and a line
that is too long ends in an error, in every run without failures.
-/

set_option autoImplicit false

namespace ProxySwiss.RequestLines
open Memory TransitionSystem CallbackObject StreamObject ServerSessionHttps ServerHttpsRun
  HttpsReading

/-- A line ends at the first line feed. -/
theorem line_first (a b : Bytes) (ha : Line a) (hb : Line b) (h : a <+: b) : a = b := by
  obtain ⟨x,rfl,hx⟩ := ha
  obtain ⟨y,rfl,hy⟩ := hb
  obtain ⟨r,h⟩ := h
  rcases List.eq_nil_or_concat r with rfl | ⟨r,c,rfl⟩
  · rw [← h, List.append_nil]
  · exfalso
    rw [List.concat_eq_append, ← List.append_assoc] at h
    have hxy : x ++ [0x0a] ++ r = y := (List.append_inj' h rfl).1
    exact hy (by simp [← hxy])

theorem line_agree (a b t : Bytes) (ha : Line a) (hb : Line b) (hat : a <+: t) (hbt : b <+: t) :
    a = b := by
  rcases List.prefix_or_prefix_of_prefix hat hbt with h | h
  · exact line_first a b ha hb h
  · exact (line_first b a hb ha h).symm

/-- The call waits for the next octet of a line. -/
structure Reading (k : LineHandler) (x : Session) (cur t : Bytes) (es : List Event)
    (c : ServerState) : Prop where
  obj : c.obj = { x with line := cur ++ [0] }
  at_op : At c [.read 1 (.handleRead k)] t [] es

theorem octet_fed (fuel : ℕ) (k : LineHandler) (x : Session) (cur t : Bytes) (es : List Event)
    (c : ServerState) (b : UInt8) (h : Reading k x cur t es c) (hb : b ≠ 0x0a)
    (hmax : cur.length+1 ≠ kMaxLineLen) : Reading k x (cur ++ [b]) (t ++ [b]) es
      (c.next (server fuel) [] [] (.read 1 (.handleRead k)) (.ok [b])) := by
  have hd := (congrArg ((server fuel).done _ _) h.obj).trans (octet_more fuel k x cur b hb hmax)
  obtain ⟨hobj,hn⟩ := at_start (server fuel) c _ _ _ _ _ (.ok [b]) _ h.at_op hd
  exact ⟨hobj,by simpa using hn⟩

/-- Octets that are no line feed, and too few to fill the line. -/
theorem octets_fed (fuel : ℕ) (k : LineHandler) (x : Session) (cur t body : Bytes)
    (es : List Event) (c : ServerState) (h : Reading k x cur t es c) (hbody : 0x0a ∉ body)
    (hmax : cur.length+body.length < kMaxLineLen) :
    ∃ c', Feeds (server fuel) c body c' ∧ Reading k x (cur ++ body) (t ++ body) es c' := by
  induction body generalizing c cur t with
  | nil => exact ⟨c,.refl c,by simpa using h⟩
  | cons b body ih =>
    simp only [List.mem_cons, not_or] at hbody
    simp only [List.length_cons] at hmax
    have hnext := octet_fed fuel k x cur t es c b h (Ne.symm hbody.1) (by omega)
    obtain ⟨c',hc',hr⟩ := ih (cur ++ [b]) (t ++ [b]) _ hnext hbody.2 (by
      simp only [List.length_append, List.length_cons, List.length_nil]
      omega)
    refine ⟨c',?_,by simpa using hr⟩
    exact .read c c' 1 _ [b] body h.at_op.pending rfl hc'

/-- The octet that ends a line, be it a line feed or the last that fits. -/
theorem last_fed (fuel : ℕ) (k : LineHandler) (x : Session) (cur t : Bytes) (es : List Event)
    (c : ServerState) (b : UInt8) (r : Effect) (h : Reading k x cur t es c)
    (hr : (server fuel).done (.read 1 (.handleRead k)) (.ok [b])
      { x with line := cur ++ [0] } = r) : ∃ c', Feeds (server fuel) c [b] c' ∧ c'.obj = r.1 ∧
      At c' (started r.2) (t ++ [b]) [] (es ++ emitted r.2) := by
  have hd := (congrArg ((server fuel).done (.read 1 (.handleRead k)) (.ok [b])) h.obj).trans hr
  have hn := at_next (server fuel) c _ t [] es (.ok [b]) h.at_op
  rw [hd] at hn
  refine ⟨_,?_,congrArg Prod.fst hd,by simpa using hn⟩
  exact .read c _ 1 _ [b] [] h.at_op.pending rfl (.refl _)

theorem line_fed (fuel : ℕ) (k : LineHandler) (x : Session) (t body : Bytes) (es : List Event)
    (c : ServerState) (r : Effect) (h : Reading k x [] t es c) (hbody : 0x0a ∉ body)
    (hmax : body.length < kMaxLineLen)
    (hr : (server fuel).done (.read 1 (.handleRead k)) (.ok [0x0a])
      { x with line := body ++ [0] } = r) :
    ∃ c', Feeds (server fuel) c (body ++ [0x0a]) c' ∧ c'.obj = r.1 ∧
      At c' (started r.2) (t ++ (body ++ [0x0a])) [] (es ++ emitted r.2) := by
  obtain ⟨c1,h1,hread⟩ := octets_fed fuel k x [] t body es c h hbody (by simpa using hmax)
  obtain ⟨c2,h2,hobj,hat⟩ := last_fed fuel k x body (t ++ body) es c1 0x0a r hread hr
  exact ⟨c2,h1.append _ _ _ _ _ _ h2,hobj,by simpa using hat⟩

theorem first_fed (fuel : ℕ) (s : Session) (c : ServerState) (first : Bytes) (p : FirstLine)
    (h : Reading .handleReadFirstLine (begun s []) [] [] [] c)
    (hp : Accepted fuel s first p) : ∃ c', Feeds (server fuel) c first c' ∧
      Reading .handleReadAnotherLine (headed s p []) [] first (asserts p) c' := by
  obtain ⟨⟨⟨body,rfl,hbody⟩,hshort⟩,⟨l,hl,hparse⟩,herr⟩ := hp
  have hlen : body.length < kMaxLineLen := by
    rw [List.length_append, List.length_singleton] at hshort
    omega
  have hd := first_done fuel s body l hl
  simp only [hparse, if_neg herr] at hd
  obtain ⟨c',hc',hobj,hat⟩ := line_fed fuel _ (begun s []) [] body [] c _ h hbody hlen hd
  exact ⟨c',hc',hobj,by simpa using hat⟩

theorem header_fed (fuel : ℕ) (s : Session) (p : FirstLine) (c : ServerState) (t l : Bytes)
    (h : Reading .handleReadAnotherLine (headed s p []) [] t (asserts p) c)
    (hl : HeaderLine l) : ∃ c', Feeds (server fuel) c l c' ∧
      Reading .handleReadAnotherLine (headed s p []) [] (t ++ l) (asserts p) c' := by
  obtain ⟨⟨⟨body,rfl,hbody⟩,hshort⟩,hempty⟩ := hl
  have hlen : body.length < kMaxLineLen := by
    rw [List.length_append, List.length_singleton] at hshort
    omega
  obtain ⟨l,htrim,hnil⟩ := trimLine_feed body
  have hd := header_done fuel s p body l htrim
  rw [if_pos fun h0 => hempty (hnil.mp h0)] at hd
  obtain ⟨c',hc',hobj,hat⟩ := line_fed fuel _ (headed s p []) t body _ c _ h hbody hlen hd
  exact ⟨c',hc',hobj,by simpa using hat⟩

theorem headers_fed (fuel : ℕ) (s : Session) (p : FirstLine) (c : ServerState) (t : Bytes)
    (hs : List Bytes) (h : Reading .handleReadAnotherLine (headed s p []) [] t (asserts p) c)
    (hhs : ∀ l ∈ hs, HeaderLine l) : ∃ c', Feeds (server fuel) c hs.flatten c' ∧
      Reading .handleReadAnotherLine (headed s p []) [] (t ++ hs.flatten) (asserts p) c' := by
  induction hs generalizing c t with
  | nil => exact ⟨c,.refl c,by simpa using h⟩
  | cons l hs ih =>
    obtain ⟨c1,h1,hr1⟩ := header_fed fuel s p c t l h (hhs l (by simp))
    obtain ⟨c2,h2,hr2⟩ := ih c1 (t ++ l) hr1 fun x hx => hhs x (by simp [hx])
    exact ⟨c2,h1.append _ _ _ _ _ _ h2,by simpa using hr2⟩

/-- The first line, and the header lines behind it. -/
theorem head_fed (fuel : ℕ) (s : Session) (hs : Idle s) (first : Bytes) (p : FirstLine)
    (ls : List Bytes) (hp : Accepted fuel s first p) (hls : ∀ l ∈ ls, HeaderLine l) :
    ∃ c, Feeds (server fuel) (Conf.begun (readConnectRequest s)) (first ++ ls.flatten) c ∧
      Reading .handleReadAnotherLine (headed s p []) [] (first ++ ls.flatten) (asserts p) c := by
  obtain ⟨c1,h1,hr1⟩ := first_fed fuel s (Conf.begun (readConnectRequest s)) first p
    (by rw [begun_eq s hs]; exact ⟨rfl,at_begun _⟩) hp
  obtain ⟨c2,h2,hr2⟩ := headers_fed fuel s p c1 first ls hr1 hls
  exact ⟨c2,h1.append _ _ _ _ _ _ h2,hr2⟩

theorem empty_fed (fuel : ℕ) (s : Session) (p : FirstLine) (c : ServerState) (t last : Bytes)
    (h : Reading .handleReadAnotherLine (headed s p []) [] t (asserts p) c)
    (hlast : EmptyLine last) : ∃ c', Feeds (server fuel) c last c' ∧ c'.obj.userDst = p.dst ∧
      At c' [] (t ++ last) [] (asserts p ++ [Success]) := by
  obtain ⟨body,rfl,hbody,hlen⟩ : ∃ body, last = body ++ [0x0a] ∧ 0x0a ∉ body ∧
      body.length < kMaxLineLen := by
    rcases hlast with rfl | rfl
    · exact ⟨[],rfl,by decide,by decide⟩
    · exact ⟨[0x0d],rfl,by decide,by decide⟩
  obtain ⟨l,htrim,hnil⟩ := trimLine_feed body
  have hd := header_done fuel s p body l htrim
  rw [if_neg (not_not.mpr (hnil.mpr hlast))] at hd
  obtain ⟨c',hc',hobj,hat⟩ := line_fed fuel _ (headed s p []) t body _ c _ h hbody hlen hd
  exact ⟨c',hc',by rw [hobj],hat⟩

/-- As many octets as a line may have, and no line feed among them. -/
theorem long_fed (fuel : ℕ) (k : LineHandler) (x : Session) (t body : Bytes) (es : List Event)
    (c : ServerState) (h : Reading k x [] t es c) (hx : x.userReadReqHandler = true)
    (hbody : 0x0a ∉ body) (hlen : body.length = kMaxLineLen) :
    ∃ c', Feeds (server fuel) c body c' ∧ c'.obj.userDst = x.userDst ∧
      At c' [] (t ++ body) [] (es ++ [.call .readReq (makeErrorCode .lineTooLong)]) := by
  rcases List.eq_nil_or_concat body with rfl | ⟨body,b,rfl⟩
  · exact absurd hlen (by decide)
  · simp only [List.concat_eq_append, List.mem_append, List.mem_singleton, not_or,
      List.length_append, List.length_singleton] at hbody hlen ⊢
    obtain ⟨c1,h1,hr⟩ := octets_fed fuel k x [] t body es c h hbody.1 (by
      simp only [List.length_nil]
      omega)
    have hd := octet_full fuel k x body b hlen
    rw [long_line fuel k _ (by simp [Ne.symm hbody.2]),
      call_set { x with line := body ++ [b] } _ hx] at hd
    obtain ⟨c2,h2,hobj,hat⟩ := last_fed fuel k x body (t ++ body) es c1 b _ hr hd
    exact ⟨c2,h1.append _ _ _ _ _ _ h2,by rw [hobj],by simpa using hat⟩

/-- What is fed to the call is what becomes of it in the end. -/
theorem fed_inevitable (fuel : ℕ) (s : Session) (inp d : Bytes) (c : ServerState)
    (es : List Event) (h : Feeds (server fuel) (Conf.begun (readConnectRequest s)) d c)
    (hat : At c [] d [] es) (hd : d <+: inp) :
    Inevitable (Flow (server fuel) Faults.none.may inp)
      (fun w => w.active = [] ∧ w.taken = d ∧ w.events = es ∧ w.obj = c.obj) (start s) := by
  have hin := feeds_inevitable (server fuel) Faults.none.may (fun _ h => h) inp (start s) _ c d h
    (tracks_begun _ (readConnectRequest_single s)) List.nil_prefix (by simpa using hd)
  refine hin.strengthen fun w _ hw => ?_
  obtain ⟨hact,ht,-,he⟩ := tracks_at_idle w c _ _ _ hw.2 hat
  exact ⟨hact,ht,he,hw.2.obj⟩

/-- The lines of a request that is accepted are read to their end. -/
theorem request_inevitable (fuel : ℕ) (s : Session) (hs : Idle s) (inp first last : Bytes)
    (p : FirstLine) (ls : List Bytes) (hp : Accepted fuel s first p)
    (hls : ∀ l ∈ ls, HeaderLine l) (hlast : EmptyLine last)
    (hin : first ++ ls.flatten ++ last <+: inp) :
    Inevitable (Flow (server fuel) Faults.none.may inp)
      (fun w => w.active = [] ∧ w.taken = first ++ ls.flatten ++ last ∧
        w.events = asserts p ++ [Success] ∧ w.obj.userDst = p.dst) (start s) := by
  obtain ⟨c1,h1,hr⟩ := head_fed fuel s hs first p ls hp hls
  obtain ⟨c2,h2,hdst,hat⟩ := empty_fed fuel s p c1 _ last hr hlast
  refine (fed_inevitable fuel s inp _ c2 _ (h1.append _ _ _ _ _ _ h2) hat hin).strengthen ?_
  rintro w - ⟨hact,ht,he,ho⟩
  exact ⟨hact,ht,he,by rw [ho, hdst]⟩

end ProxySwiss.RequestLines
