import ProxySwiss.ServerHttpsRun

/-!
# Reading the lines of a request

Where the call that reads a request stands, with the lines that have been read,
what the first of them was parsed to, and why the call has failed if it has. An
endless first line leaves the object without an operation and without a call.
-/

set_option autoImplicit false

namespace ProxySwiss.HttpsReading
open Memory TransitionSystem CallbackObject StreamObject ServerSessionHttps ServerHttpsRun

/-- A line that is short enough to be read to its end. -/
structure ReadLine (l : Bytes) : Prop where
  line : Line l
  short : l.length ≤ kMaxLineLen

def HeaderLine (l : Bytes) : Prop := ReadLine l ∧ ¬ EmptyLine l

/-- What the parser finds the first line to be. -/
def Parsed (fuel : ℕ) (s : Session) (l : Bytes) (r : Option FirstLine) : Prop :=
  ∃ text, trimLine l = some text ∧ parseFirstLine fuel text s.parsedDst s.httpVer = r

def Accepted (fuel : ℕ) (s : Session) (l : Bytes) (p : FirstLine) : Prop :=
  ReadLine l ∧ Parsed fuel s l (some p) ∧ ¬ p.err.failed

/-- What a failing assertion adds to the events. -/
def asserts (p : FirstLine) : List Event := if p.asserted then [] else [.assertFailed]

def begun (s : Session) (cur : Bytes) : Session :=
  { s with puserDst := true, userReadReqHandler := true, line := cur ++ [0] }

def headed (s : Session) (p : FirstLine) (cur : Bytes) : Session :=
  { begun s cur with parsedDst := p.dst, httpVer := p.httpVer }

/-- Why a call ends with an error when `t` has been taken. -/
inductive Cause (fuel : ℕ) (f : Faults) (s : Session) (t : Bytes) (err : ErrorCode) : Prop
  | fault (h : f.may err)
  | refused (p : FirstLine) (hl : Line t) (hp : Parsed fuel s t (some p)) (h : p.err = err)
  | tooLong (h : err = makeErrorCode .lineTooLong)

inductive Stage (fuel : ℕ) (f : Faults) (s : Session) (c : ServerState) : Prop
  | first (cur : Bytes) (hcur : 0x0a ∉ cur) (hmax : cur.length < kMaxLineLen)
      (ho : c.obj = begun s cur)
      (h : At c [.read 1 (.handleRead .handleReadFirstLine)] cur [] [])
  | header (first : Bytes) (p : FirstLine) (hs : List Bytes) (cur : Bytes)
      (hp : Accepted fuel s first p) (hhs : ∀ l ∈ hs, HeaderLine l) (hcur : 0x0a ∉ cur)
      (hmax : cur.length < kMaxLineLen) (ho : c.obj = headed s p cur)
      (h : At c [.read 1 (.handleRead .handleReadAnotherLine)] (first ++ hs.flatten ++ cur) []
        (asserts p))
  | done (first : Bytes) (p : FirstLine) (hs : List Bytes) (last : Bytes)
      (hp : Accepted fuel s first p) (hhs : ∀ l ∈ hs, HeaderLine l) (hlast : EmptyLine last)
      (ho : c.obj.userReadReqHandler = false) (hd : c.obj.userDst = p.dst)
      (h : At c [] (first ++ hs.flatten ++ last) [] (asserts p ++ [Success]))
  | failed (err : ErrorCode) (t : Bytes) (es : List Event) (herr : err.failed)
      (why : Cause fuel f s t err) (hes : ∀ e ∈ es, e = .assertFailed)
      (ho : c.obj.userReadReqHandler = false) (hd : c.obj.userDst = s.userDst)
      (h : At c [] t [] (es ++ [.call .readReq err]))
  | hung (first : Bytes) (hl : ReadLine first) (hp : Parsed fuel s first none)
      (ho : c.obj.userReadReqHandler = true) (h : At c [] first [] [])

theorem asserts_all (p : FirstLine) : ∀ e ∈ asserts p, e = .assertFailed := by
  unfold asserts
  split_ifs <;> simp

/-! What the callback does with one more octet, or with an error. -/

theorem octet_feed (fuel : ℕ) (k : LineHandler) (s : Session) (cur : Bytes) :
    (server fuel).done (.read 1 (.handleRead k)) (.ok [0x0a]) { s with line := cur ++ [0] } =
      callLineHandler fuel k { s with line := cur ++ [0x0a] } .noError := by
  change handleRead fuel k (store { s with line := cur ++ [0] } [0x0a] (.handleRead k)) .noError = _
  simp [handleRead, store, readNext]

theorem octet_full (fuel : ℕ) (k : LineHandler) (s : Session) (cur : Bytes) (b : UInt8)
    (h : cur.length+1 = kMaxLineLen) :
    (server fuel).done (.read 1 (.handleRead k)) (.ok [b]) { s with line := cur ++ [0] } =
      callLineHandler fuel k { s with line := cur ++ [b] } .noError := by
  change handleRead fuel k (store { s with line := cur ++ [0] } [b] (.handleRead k)) .noError = _
  simp [handleRead, store, readNext, h]

theorem octet_more (fuel : ℕ) (k : LineHandler) (s : Session) (cur : Bytes) (b : UInt8)
    (hb : b ≠ 0x0a) (h : cur.length+1 ≠ kMaxLineLen) :
    (server fuel).done (.read 1 (.handleRead k)) (.ok [b]) { s with line := cur ++ [0] } =
      ({ s with line := cur ++ [b] ++ [0] },[.start (.read 1 (.handleRead k))]) := by
  change handleRead fuel k (store { s with line := cur ++ [0] } [b] (.handleRead k)) .noError = _
  simp [handleRead, store, readNext, h, hb]

theorem octet_error (fuel : ℕ) (k : LineHandler) (s : Session) (e : ErrorCode) (d : Bytes)
    (he : e.failed) : (server fuel).done (.read 1 (.handleRead k)) (.error e d) s =
      callAndClearHandler (store s d (.handleRead k)) e := by
  change handleRead fuel k (store s d (.handleRead k)) e = _
  cases k <;> simp [handleRead, callLineHandler, handleReadFirstLine, handleReadAnotherLine, he]

theorem call_set (s : Session) (err : ErrorCode) (h : s.userReadReqHandler = true) :
    callAndClearHandler s err =
      ({ s with userReadReqHandler := false },[.emit (.call .readReq err)]) := if_pos h

theorem store_kept (s : Session) (d : Bytes) (k : Callback) :
    (store s d k).userReadReqHandler = s.userReadReqHandler ∧
      (store s d k).userDst = s.userDst := by
  cases k with
  | handleRead k =>
    unfold store
    split_ifs <;> exact ⟨rfl,rfl⟩
  | writeConnectResponseHandler => exact ⟨rfl,rfl⟩

/-- The call ends with an error, whatever was asserted before. -/
theorem failed_next (fuel : ℕ) (f : Faults) (s x : Session) (c : ServerState) (k : LineHandler)
    (res : Result UInt8 ErrorCode) (t : Bytes) (es as : List Event) (err : ErrorCode)
    (h : At c [.read 1 (.handleRead k)] t [] es) (herr : err.failed)
    (why : Cause fuel f s (t ++ res.data) err) (hes : ∀ e ∈ es, e = .assertFailed)
    (has : ∀ e ∈ as, e = .assertFailed) (hx : x.userReadReqHandler = true)
    (hd : x.userDst = s.userDst) (he : (server fuel).done (.read 1 (.handleRead k)) res c.obj =
      ((callAndClearHandler x err).1,as.map .emit ++ (callAndClearHandler x err).2)) :
    Stage fuel f s (c.next (server fuel) [] [] (.read 1 (.handleRead k)) res) := by
  have hn := at_next (server fuel) c _ t [] es res h
  have hobj : (c.next (server fuel) [] [] (.read 1 (.handleRead k)) res).obj =
      (callAndClearHandler x err).1 := (congrArg Prod.fst he :)
  rw [he] at hn
  rw [call_set x err hx] at hn hobj
  refine .failed err _ (es ++ as) herr why ?_ (by rw [hobj]) (by rw [hobj]; exact hd)
    (by simpa using hn)
  intro e hin
  rcases List.mem_append.mp hin with hin | hin
  · exact hes e hin
  · exact has e hin

theorem error_stage (fuel : ℕ) (f : Faults) (s : Session) (c : ServerState) (k : LineHandler)
    (e : ErrorCode) (d t : Bytes) (es : List Event) (he : f.may e)
    (hes : ∀ e ∈ es, e = .assertFailed) (hh : c.obj.userReadReqHandler = true)
    (hu : c.obj.userDst = s.userDst) (h : At c [.read 1 (.handleRead k)] t [] es) :
    Stage fuel f s (c.next (server fuel) [] [] (.read 1 (.handleRead k)) (.error e d)) := by
  obtain ⟨hx,hd⟩ := store_kept c.obj d (.handleRead k)
  have hf := f.failed e he
  refine failed_next fuel f s (store c.obj d (.handleRead k)) c k _ t es [] e h hf (.fault he) hes
    (by simp) (by rw [hx, hh]) (by rw [hd, hu]) ?_
  rw [octet_error fuel k c.obj e d hf]
  rfl

/-- A line that has reached its greatest length without a line feed. -/
theorem long_line (fuel : ℕ) (k : LineHandler) (s : Session) (h : s.line.getLast? ≠ some 0x0a) :
    callLineHandler fuel k s .noError =
      callAndClearHandler s (makeErrorCode .lineTooLong) := by
  cases k <;> simp [callLineHandler, handleReadFirstLine, handleReadAnotherLine,
    trimLine_other _ h]

theorem long_stage (fuel : ℕ) (f : Faults) (s x : Session) (c : ServerState) (k : LineHandler)
    (cur t : Bytes) (b : UInt8) (es : List Event) (hb : b ≠ 0x0a)
    (hfull : cur.length+1 = kMaxLineLen) (hes : ∀ e ∈ es, e = .assertFailed)
    (ho : c.obj = { x with line := cur ++ [0] }) (hx : x.userReadReqHandler = true)
    (hd : x.userDst = s.userDst) (h : At c [.read 1 (.handleRead k)] t [] es) :
    Stage fuel f s (c.next (server fuel) [] [] (.read 1 (.handleRead k)) (.ok [b])) := by
  refine failed_next fuel f s { x with line := cur ++ [b] } c k _ t es [] _ h
    (makeErrorCode_failed _) (.tooLong rfl) hes (by simp) hx hd ?_
  rw [ho, octet_full fuel k x cur b hfull, long_line fuel k _ (by simp [hb])]
  rfl

theorem line_complete (cur : Bytes) (hcur : 0x0a ∉ cur) (hmax : cur.length < kMaxLineLen) :
    ReadLine (cur ++ [0x0a]) := by
  refine ⟨⟨cur,rfl,hcur⟩,?_⟩
  simp only [List.length_append, List.length_cons, List.length_nil]
  omega

/-- What the callback of the first line makes of a complete one. -/
theorem first_done (fuel : ℕ) (s : Session) (cur l : Bytes)
    (hl : trimLine (cur ++ [0x0a]) = some l) :
    (server fuel).done (.read 1 (.handleRead .handleReadFirstLine)) (.ok [0x0a]) (begun s cur) =
      match parseFirstLine fuel l s.parsedDst s.httpVer with
      | none => ({ begun s cur with line := l },[])
      | some p =>
        if p.err.failed then
          ((callAndClearHandler { headed s p cur with line := l } p.err).1,
            (asserts p).map .emit ++
              (callAndClearHandler { headed s p cur with line := l } p.err).2)
        else (headed s p [],(asserts p).map .emit ++
          [.start (.read 1 (.handleRead .handleReadAnotherLine))]) := by
  have h := octet_feed fuel .handleReadFirstLine (begun s cur) cur
  rw [show ({ begun s cur with line := cur ++ [0] } : Session) = begun s cur from rfl] at h
  rw [h]
  simp only [callLineHandler, handleReadFirstLine, ErrorCode.noError_failed, if_false, hl]
  rw [show parseFirstLine fuel l (begun s cur).parsedDst (begun s cur).httpVer =
    parseFirstLine fuel l s.parsedDst s.httpVer from rfl]
  cases parseFirstLine fuel l s.parsedDst s.httpVer with
  | none => rfl
  | some p =>
    simp only [assertThat_eq]
    by_cases herr : p.err.failed
    · simp only [herr, if_true]
      rfl
    · simp only [herr, if_false]
      rfl

theorem first_stage (fuel : ℕ) (f : Faults) (s : Session) (c : ServerState) (cur : Bytes)
    (hcur : 0x0a ∉ cur) (hmax : cur.length < kMaxLineLen) (ho : c.obj = begun s cur)
    (h : At c [.read 1 (.handleRead .handleReadFirstLine)] cur [] []) :
    Stage fuel f s
      (c.next (server fuel) [] [] (.read 1 (.handleRead .handleReadFirstLine)) (.ok [0x0a])) := by
  obtain ⟨l,hl,hempty⟩ := trimLine_feed cur
  have hd := (congrArg ((server fuel).done _ _) ho).trans (first_done fuel s cur l hl)
  have hline := line_complete cur hcur hmax
  cases hp : parseFirstLine fuel l s.parsedDst s.httpVer with
  | none =>
    rw [hp] at hd
    have hn := at_next (server fuel) c _ cur [] [] (.ok [0x0a]) h
    rw [hd] at hn
    refine .hung (cur ++ [0x0a]) hline ⟨l,hl,hp⟩ ?_ (by simpa using hn)
    exact congrArg (fun r : Effect => r.1.userReadReqHandler) hd
  | some p =>
    rw [hp] at hd
    by_cases herr : p.err.failed
    · simp only [if_pos herr] at hd
      exact failed_next fuel f s { headed s p cur with line := l } c _ _ cur [] (asserts p) p.err h
        herr (.refused p hline.line ⟨l,hl,hp⟩ rfl) (by simp) (asserts_all p) rfl rfl hd
    · simp only [if_neg herr] at hd
      have hn := at_next (server fuel) c _ cur [] [] (.ok [0x0a]) h
      rw [hd] at hn
      exact .header (cur ++ [0x0a]) p [] [] ⟨hline,⟨l,hl,hp⟩,herr⟩ (by simp) (by simp) (by decide)
        (congrArg Prod.fst hd) (by simpa using hn)

/-- What the callback of a later line makes of a complete one. -/
theorem header_done (fuel : ℕ) (s : Session) (p : FirstLine) (cur l : Bytes)
    (hl : trimLine (cur ++ [0x0a]) = some l) :
    (server fuel).done (.read 1 (.handleRead .handleReadAnotherLine)) (.ok [0x0a])
        (headed s p cur) =
      if l ≠ [] then
        (headed s p [],[.start (.read 1 (.handleRead .handleReadAnotherLine))])
      else ({ headed s p cur with
          line := l, userDst := p.dst, userReadReqHandler := false, puserDst := false },
        [.emit Success]) := by
  have h := octet_feed fuel .handleReadAnotherLine (headed s p cur) cur
  rw [show ({ headed s p cur with line := cur ++ [0] } : Session) = headed s p cur from rfl] at h
  rw [h]
  simp only [callLineHandler, handleReadAnotherLine, ErrorCode.noError_failed, if_false, hl]
  split_ifs
  · rfl
  · rw [call_set _ _ rfl]
    rfl

theorem header_stage (fuel : ℕ) (f : Faults) (s : Session) (c : ServerState) (first : Bytes)
    (p : FirstLine) (hs : List Bytes) (cur : Bytes) (hp : Accepted fuel s first p)
    (hhs : ∀ l ∈ hs, HeaderLine l) (hcur : 0x0a ∉ cur) (hmax : cur.length < kMaxLineLen)
    (ho : c.obj = headed s p cur)
    (h : At c [.read 1 (.handleRead .handleReadAnotherLine)] (first ++ hs.flatten ++ cur) []
      (asserts p)) :
    Stage fuel f s
      (c.next (server fuel) [] [] (.read 1 (.handleRead .handleReadAnotherLine)) (.ok [0x0a])) := by
  obtain ⟨l,hl,hempty⟩ := trimLine_feed cur
  have hd := (congrArg ((server fuel).done _ _) ho).trans (header_done fuel s p cur l hl)
  have hline := line_complete cur hcur hmax
  have hn := at_next (server fuel) c _ _ [] _ (.ok [0x0a]) h
  by_cases h0 : l = []
  · rw [if_neg (not_not.mpr h0)] at hd
    rw [hd] at hn
    refine .done first p hs (cur ++ [0x0a]) hp hhs (hempty.mp h0) ?_ ?_ (by simpa using hn)
    · exact congrArg (fun r : Effect => r.1.userReadReqHandler) hd
    · exact congrArg (fun r : Effect => r.1.userDst) hd
  · rw [if_pos h0] at hd
    rw [hd] at hn
    refine .header first p (hs ++ [cur ++ [0x0a]]) [] hp ?_ (by simp) (by decide)
      (congrArg Prod.fst hd) (by simpa using hn)
    intro x hx
    rcases List.mem_append.mp hx with hx | hx
    · exact hhs x hx
    · obtain rfl := List.mem_singleton.mp hx
      exact ⟨hline,fun he => h0 (hempty.mpr he)⟩

theorem stage_next (fuel : ℕ) (f : Faults) (s : Session) (c : ServerState) (op : Op UInt8 Callback)
    (res : Result UInt8 ErrorCode) (h : Stage fuel f s c) (hp : c.pending = [op])
    (ha : Allowed f.may op res) : Stage fuel f s (c.next (server fuel) [] [] op res) := by
  cases h with
  | first cur hcur hmax ho h =>
    obtain rfl := List.singleton_inj.mp (hp.symm.trans h.pending)
    cases res with
    | error e d =>
      exact error_stage fuel f s c _ e d cur [] ha.1 (by simp) (by rw [ho]; rfl) (by rw [ho]; rfl) h
    | ok d =>
      obtain ⟨b,rfl⟩ := List.length_eq_one_iff.mp ha
      by_cases hb : b = 0x0a
      · subst hb
        exact first_stage fuel f s c cur hcur hmax ho h
      · by_cases hfull : cur.length+1 = kMaxLineLen
        · exact long_stage fuel f s (begun s cur) c _ cur cur b [] hb hfull (by simp) ho rfl rfl h
        · have hd := (congrArg ((server fuel).done _ _) ho).trans
            (octet_more fuel .handleReadFirstLine (begun s cur) cur b hb hfull)
          obtain ⟨hobj,hn⟩ := at_start (server fuel) c _ _ _ _ _ (.ok [b]) _ h hd
          refine .first (cur ++ [b]) (by simp [hcur, Ne.symm hb]) ?_ hobj (by simpa using hn)
          simp only [List.length_append, List.length_cons, List.length_nil]
          omega
  | header first p hs cur hacc hhs hcur hmax ho h =>
    obtain rfl := List.singleton_inj.mp (hp.symm.trans h.pending)
    cases res with
    | error e d =>
      exact error_stage fuel f s c _ e d _ _ ha.1 (asserts_all p) (by rw [ho]; rfl)
        (by rw [ho]; rfl) h
    | ok d =>
      obtain ⟨b,rfl⟩ := List.length_eq_one_iff.mp ha
      by_cases hb : b = 0x0a
      · subst hb
        exact header_stage fuel f s c first p hs cur hacc hhs hcur hmax ho h
      · by_cases hfull : cur.length+1 = kMaxLineLen
        · exact long_stage fuel f s (headed s p cur) c _ cur _ b _ hb hfull (asserts_all p) ho rfl
            rfl h
        · have hd := (congrArg ((server fuel).done _ _) ho).trans
            (octet_more fuel .handleReadAnotherLine (headed s p cur) cur b hb hfull)
          obtain ⟨hobj,hn⟩ := at_start (server fuel) c _ _ _ _ _ (.ok [b]) _ h hd
          refine .header first p hs (cur ++ [b]) hacc hhs (by simp [hcur, Ne.symm hb]) ?_ hobj
            (by simpa using hn)
          simp only [List.length_append, List.length_cons, List.length_nil]
          omega
  | done first p hs last hp' hhs hlast ho hd h => exact absurd (hp.symm.trans h.pending) (by simp)
  | failed err t es herr why hes ho hd h => exact absurd (hp.symm.trans h.pending) (by simp)
  | hung first hl hp' ho h => exact absurd (hp.symm.trans h.pending) (by simp)

theorem begun_eq (s : Session) (hs : Idle s) : readConnectRequest s =
    (begun s [],[.start (.read 1 (.handleRead .handleReadFirstLine))]) := by
  simp [readConnectRequest, assertThat, hs.handler, hs.pointer, readFirstLine, readLine_eq, begun]

theorem stage_begun (fuel : ℕ) (f : Faults) (s : Session) (hs : Idle s) :
    Stage fuel f s (Conf.begun (readConnectRequest s)) := by
  rw [begun_eq s hs]
  exact .first [] (by simp) (by decide) rfl (at_begun _)

/-- Every state that a call can reach is at one of the stages. -/
theorem run_stage (fuel : ℕ) (f : Faults) (s : Session) (hs : Idle s) (inp : Bytes)
    (w : ServerWire) (h : Run (Flow (server fuel) f.may inp) (start s) w) :
    w.taken <+: inp ∧ ∃ c, Tracks w c ∧ Stage fuel f s c :=
  flow_tracks (server fuel) f.may inp _ (stage_next fuel f s) _ (readConnectRequest_single s)
    (stage_begun fuel f s hs) w h

end ProxySwiss.HttpsReading
