import ProxySwiss.StreamRun
import ProxySwiss.ServerSessionHttps

/-!
# Runs of the HTTPS server

The phases of reading the lines of a request and of writing one response, for
every client and every failure of the socket.
-/

set_option autoImplicit false

namespace ProxySwiss.ServerHttpsRun
open Memory TransitionSystem CallbackObject StreamObject ServerSessionHttps

abbrev ServerState := State Session Callback UInt8 ErrorCode Event
abbrev ServerWire := Wire Session Callback UInt8 Event

def EmptyLine (l : Bytes) : Prop := l = [0x0a] ∨ l = [0x0d,0x0a]

/-- Octets up to and with a line feed. -/
def Line (l : Bytes) : Prop := ∃ body, l = body ++ [0x0a] ∧ 0x0a ∉ body

/-- Lines through the first empty one. -/
inductive Header : Bytes → Prop
  | mk (ls : List Bytes) (last : Bytes) (hls : ∀ l ∈ ls, Line l ∧ ¬ EmptyLine l)
      (hlast : EmptyLine last) : Header (ls.flatten ++ last)

def Success : Event := .call .readReq .noError

inductive Phase (f : Faults) (c : ServerState) : Prop
  | line (k : LineHandler) (ls : List Bytes) (cur : Bytes) (es : List Event)
      (hk : k = .handleReadFirstLine → ls = [])
      (hls : ∀ l ∈ ls, Line l ∧ ¬ EmptyLine l) (hcur : 0x0a ∉ cur)
      (hmax : cur.length < kMaxLineLen) (hl : c.obj.line = cur ++ [0])
      (hh : c.obj.userReadReqHandler = true) (hes : Success ∉ es)
      (h : At c [.read 1 (.handleRead k)] (ls.flatten ++ cur) [] es)
  | ended (t : Bytes) (es : List Event) (hes : Success ∉ es) (h : At c [] t [] es)
  | answered (t : Bytes) (es : List Event) (ht : Header t) (h : At c [] t [] es)
  | responding (t msg : Bytes) (es : List Event) (ht : Header t)
      (h : At c [.write msg .writeConnectResponseHandler] t [] es)
  | responded (t u : Bytes) (es : List Event) (err : ErrorCode) (ht : Header t)
      (h : At c [] t u (es ++ [.call .writeResp err]))

theorem readLine_eq (k : LineHandler) (s : Session) :
    readLine k s = ({ s with line := [0] },[.start (.read 1 (.handleRead k))]) := rfl

theorem call_events (s : Session) (err : ErrorCode) (h : s.userReadReqHandler = true) :
    (callAndClearHandler s err).2 = [.emit (.call .readReq err)] := by
  simp [callAndClearHandler, h]

/-- What is left of a line without its end, and when nothing is. -/
theorem trimLine_feed (cur : Bytes) : ∃ l, trimLine (cur ++ [0x0a]) = some l ∧
    (l = [] ↔ EmptyLine (cur ++ [0x0a])) := by
  rcases List.eq_nil_or_concat cur with rfl | ⟨pre,x,rfl⟩
  · exact ⟨[],rfl,by simp [EmptyLine]⟩
  · by_cases hx : x = 0x0d
    · refine ⟨pre,by simp [trimLine, hx],?_⟩
      simp [EmptyLine, hx, List.append_eq_cons_iff]
    · have htake : (pre ++ [x,0x0a]).take (pre.length+1) = pre ++ [x] := by
        rw [show pre ++ [x,0x0a] = (pre ++ [x]) ++ [0x0a] by simp]
        exact List.take_left' (by simp)
      have hline : ¬ EmptyLine (pre ++ [x] ++ [0x0a]) := by
        rintro (h | h)
        · simpa using congrArg List.length h
        · have hlast : pre ++ [x] = [0x0d] := (List.append_inj' h rfl).1
          exact hx (by simpa using congrArg List.getLast? hlast)
      exact ⟨pre ++ [x],by simp [trimLine, hx, htake],by simpa using hline⟩

theorem trimLine_other (l : Bytes) (h : l.getLast? ≠ some 0x0a) : trimLine l = none := by
  simp [trimLine, h]

/-- An empty first line is not a request. -/
theorem parse_empty (fuel : ℕ) (dst : Destination) (httpVer : HttpVersion) (p : FirstLine)
    (h : parseFirstLine fuel [] dst httpVer = some p) : p.err.failed := by
  obtain rfl := Option.some.inj h
  exact makeErrorCode_failed _

theorem over_next (fuel : ℕ) (f : Faults) (c : ServerState) (k : LineHandler)
    (res : Result UInt8 ErrorCode) (t : Bytes) (es es' : List Event)
    (h : At c [.read 1 (.handleRead k)] t [] es) (hes : Success ∉ es ++ es')
    (hs : started ((server fuel).done (.read 1 (.handleRead k)) res c.obj).2 = [])
    (he : emitted ((server fuel).done (.read 1 (.handleRead k)) res c.obj).2 = es') :
    Phase f (c.next (server fuel) [] [] (.read 1 (.handleRead k)) res) := by
  have hn := at_next (server fuel) c _ t [] es res h
  rw [hs, he] at hn
  exact .ended _ _ hes hn

/-- The call ends with an error, whatever was asserted before. -/
theorem error_next (fuel : ℕ) (f : Faults) (c : ServerState) (k : LineHandler)
    (res : Result UInt8 ErrorCode) (t : Bytes) (es as : List Event) (s : Session)
    (err : ErrorCode) (h : At c [.read 1 (.handleRead k)] t [] es) (hes : Success ∉ es ++ as)
    (herr : err.failed) (hh : s.userReadReqHandler = true)
    (hd : ((server fuel).done (.read 1 (.handleRead k)) res c.obj).2 =
      as.map .emit ++ (callAndClearHandler s err).2) :
    Phase f (c.next (server fuel) [] [] (.read 1 (.handleRead k)) res) := by
  rw [call_events s err hh] at hd
  apply over_next fuel f c k res t es (as ++ [.call .readReq err]) h
  · rw [← List.append_assoc, List.mem_append, not_or]
    refine ⟨hes,?_⟩
    simp only [Success, List.mem_singleton, Event.call.injEq, true_and]
    rintro rfl
    exact ErrorCode.noError_failed herr
  · simp [hd]
  · simp [hd]

/-- The line goes on, or another one begins. -/
theorem line_next (fuel : ℕ) (f : Faults) (c : ServerState) (k k' : LineHandler)
    (res : Result UInt8 ErrorCode) (t : Bytes) (ls : List Bytes) (cur : Bytes)
    (es as : List Event) (s : Session) (h : At c [.read 1 (.handleRead k)] t [] es)
    (hes : Success ∉ es ++ as) (hk : k' = .handleReadFirstLine → ls = [])
    (hls : ∀ l ∈ ls, Line l ∧ ¬ EmptyLine l) (hcur : 0x0a ∉ cur)
    (hmax : cur.length < kMaxLineLen) (hh : s.userReadReqHandler = true)
    (ht : t ++ res.data = ls.flatten ++ cur)
    (hd : (server fuel).done (.read 1 (.handleRead k)) res c.obj =
      ({ s with line := cur ++ [0] },as.map .emit ++ [.start (.read 1 (.handleRead k'))])) :
    Phase f (c.next (server fuel) [] [] (.read 1 (.handleRead k)) res) := by
  have hn := at_next (server fuel) c _ t [] es res h
  rw [hd] at hn
  have hobj : (c.next (server fuel) [] [] (.read 1 (.handleRead k)) res).obj =
      { s with line := cur ++ [0] } := congrArg Prod.fst hd
  apply Phase.line k' ls cur (es ++ as) hk hls hcur hmax
  · rw [hobj]
  · rw [hobj]; exact hh
  · exact hes
  · simpa [ht] using hn

theorem assertThat_eq (holds : Bool) (r : Effect) :
    assertThat holds r = (r.1,(if holds then [] else [.assertFailed]).map .emit ++ r.2) := by
  cases holds <;> rfl

theorem asserted_quiet (holds : Bool) (es : List Event) (h : Success ∉ es) :
    Success ∉ es ++ if holds then [] else [.assertFailed] := by
  cases holds with
  | true => simpa using h
  | false => simpa [Success] using h

/-- An empty line ends the request. -/
theorem answer_next (fuel : ℕ) (f : Faults) (c : ServerState) (k : LineHandler)
    (res : Result UInt8 ErrorCode) (t : Bytes) (es : List Event)
    (h : At c [.read 1 (.handleRead k)] t [] es) (ht : Header (t ++ res.data))
    (hd : ((server fuel).done (.read 1 (.handleRead k)) res c.obj).2 = [.emit Success]) :
    Phase f (c.next (server fuel) [] [] (.read 1 (.handleRead k)) res) := by
  have hn := at_next (server fuel) c _ t [] es res h
  rw [hd] at hn
  exact .answered _ _ ht hn

theorem first_next (fuel : ℕ) (f : Faults) (c : ServerState) (res : Result UInt8 ErrorCode)
    (t cur l : Bytes) (es : List Event) (s : Session)
    (h : At c [.read 1 (.handleRead .handleReadFirstLine)] t [] es) (hes : Success ∉ es)
    (hcur : 0x0a ∉ cur) (ht : t ++ res.data = cur ++ [0x0a])
    (htrim : trimLine s.line = some l) (hempty : l = [] ↔ EmptyLine (cur ++ [0x0a]))
    (hh : s.userReadReqHandler = true)
    (hd : (server fuel).done (.read 1 (.handleRead .handleReadFirstLine)) res c.obj =
      handleReadFirstLine fuel s .noError) :
    Phase f (c.next (server fuel) [] [] (.read 1 (.handleRead .handleReadFirstLine)) res) := by
  simp only [handleReadFirstLine, ErrorCode.noError_failed, if_false, htrim] at hd
  cases hp : parseFirstLine fuel l s.parsedDst s.httpVer with
  | none =>
    rw [hp] at hd
    exact over_next fuel f c _ res t es [] h (by simpa using hes) (by rw [hd]; rfl)
      (by rw [hd]; rfl)
  | some p =>
    rw [hp] at hd
    simp only [assertThat_eq] at hd
    have hq := asserted_quiet p.asserted es hes
    by_cases herr : p.err.failed
    · apply error_next fuel f c _ res t es _ { s with
        line := l, parsedDst := p.dst, httpVer := p.httpVer } p.err h hq herr hh
      rw [hd, if_pos herr]
    · apply line_next fuel f c _ .handleReadAnotherLine res t [cur ++ [0x0a]] [] es _ { s with
        line := l, parsedDst := p.dst, httpVer := p.httpVer } h hq (by simp) ?_ (by simp)
        (by decide) hh (by simpa using ht)
      · rw [hd, if_neg herr]
        rfl
      · -- an empty line would not have been parsed
        have hl : l ≠ [] := fun hl => herr (parse_empty fuel _ _ p (hl ▸ hp))
        intro x hx
        obtain rfl := List.mem_singleton.mp hx
        exact ⟨⟨cur,rfl,hcur⟩,fun he => hl (hempty.mpr he)⟩

theorem another_next (fuel : ℕ) (f : Faults) (c : ServerState) (res : Result UInt8 ErrorCode)
    (ls : List Bytes) (t cur l : Bytes) (es : List Event) (s : Session)
    (hls : ∀ l ∈ ls, Line l ∧ ¬ EmptyLine l)
    (h : At c [.read 1 (.handleRead .handleReadAnotherLine)] t [] es) (hes : Success ∉ es)
    (hcur : 0x0a ∉ cur) (ht : t ++ res.data = ls.flatten ++ (cur ++ [0x0a]))
    (htrim : trimLine s.line = some l) (hempty : l = [] ↔ EmptyLine (cur ++ [0x0a]))
    (hh : s.userReadReqHandler = true)
    (hd : (server fuel).done (.read 1 (.handleRead .handleReadAnotherLine)) res c.obj =
      handleReadAnotherLine s .noError) :
    Phase f (c.next (server fuel) [] [] (.read 1 (.handleRead .handleReadAnotherLine)) res) := by
  simp only [handleReadAnotherLine, ErrorCode.noError_failed, if_false, htrim] at hd
  by_cases hl : l = []
  · rw [if_neg (not_not.mpr hl)] at hd
    apply answer_next fuel f c _ res t es h
    · rw [ht]
      exact .mk ls _ hls (hempty.mp hl)
    · rw [hd]
      exact call_events { s with line := l, userDst := s.parsedDst } .noError hh
  · rw [if_pos hl] at hd
    apply line_next fuel f c _ .handleReadAnotherLine res t (ls ++ [cur ++ [0x0a]]) [] es []
      { s with line := l } h (by simpa using hes) (by simp) ?_ (by simp) (by decide) hh
      (by simpa using ht)
    · rw [hd]
      rfl
    · intro x hx
      rcases List.mem_append.mp hx with hx | hx
      · exact hls x hx
      · obtain rfl := List.mem_singleton.mp hx
        exact ⟨⟨cur,rfl,hcur⟩,fun he => hl (hempty.mpr he)⟩

/-- One more octet, or none. -/
theorem octet_next (fuel : ℕ) (f : Faults) (c : ServerState) (k : LineHandler)
    (ls : List Bytes) (cur : Bytes) (es : List Event) (res : Result UInt8 ErrorCode)
    (hk : k = .handleReadFirstLine → ls = []) (hls : ∀ l ∈ ls, Line l ∧ ¬ EmptyLine l)
    (hcur : 0x0a ∉ cur) (hmax : cur.length < kMaxLineLen) (hl : c.obj.line = cur ++ [0])
    (hh : c.obj.userReadReqHandler = true) (hes : Success ∉ es)
    (h : At c [.read 1 (.handleRead k)] (ls.flatten ++ cur) [] es)
    (ha : Allowed f.may (.read 1 (Callback.handleRead k)) res) :
    Phase f (c.next (server fuel) [] [] (.read 1 (.handleRead k)) res) := by
  cases res with
  | error e d =>
    have he := f.failed e ha.1
    have hs : (store c.obj d (.handleRead k)).userReadReqHandler = true := by
      unfold store
      split_ifs <;> exact hh
    apply error_next fuel f c k _ _ es [] (store c.obj d (.handleRead k)) e h (by simpa using hes)
      he hs
    change (handleRead fuel k (store c.obj d (.handleRead k)) e).2 = _
    cases k <;> simp [handleRead, callLineHandler, handleReadFirstLine, handleReadAnotherLine, he]
  | ok d =>
    obtain ⟨b,rfl⟩ := List.length_eq_one_iff.mp ha
    set s : Session := { c.obj with line := cur ++ [b] } with hs
    have hd : (server fuel).done (.read 1 (.handleRead k)) (.ok [b]) c.obj =
        readNext k (fun s => callLineHandler fuel k s .noError) s := by
      change handleRead fuel k (store c.obj [b] (.handleRead k)) .noError = _
      simp [handleRead, store, hl, hs]
    have hsh : s.userReadReqHandler = true := hh
    by_cases hb : b = 0x0a
    · subst hb
      obtain ⟨l,htrim,hempty⟩ := trimLine_feed cur
      have hd' : (server fuel).done (.read 1 (.handleRead k)) (.ok [0x0a]) c.obj =
          callLineHandler fuel k s .noError := by
        rw [hd, readNext]
        simp [hs]
      cases k with
      | handleReadFirstLine =>
        obtain rfl := hk rfl
        exact first_next fuel f c _ _ cur l es s h hes hcur (by simp) htrim hempty hsh hd'
      | handleReadAnotherLine =>
        exact another_next fuel f c _ ls _ cur l es s hls h hes hcur (by simp) htrim hempty hsh hd'
    · have hlast : s.line.getLast? ≠ some 0x0a := by simp [hs, hb]
      by_cases hfull : (cur ++ [b]).length = kMaxLineLen
      · -- the line has reached its greatest length without a line feed
        apply error_next fuel f c k _ _ es [] s (makeErrorCode .lineTooLong) h (by simpa using hes)
          (makeErrorCode_failed _) hsh
        rw [hd, readNext, if_pos hfull]
        cases k <;> simp [callLineHandler, handleReadFirstLine, handleReadAnotherLine,
          trimLine_other _ hlast]
      · apply line_next fuel f c k k _ _ ls (cur ++ [b]) es [] s h (by simpa using hes) hk hls
          (by simp [hcur, Ne.symm hb]) ?_ hsh (by simp)
        · rw [hd, readNext, if_neg hfull, if_neg hlast]
          rfl
        · simp only [List.length_append, List.length_cons, List.length_nil] at hfull ⊢
          omega

theorem phase_next (fuel : ℕ) (f : Faults) (c : ServerState) (op : Op UInt8 Callback)
    (res : Result UInt8 ErrorCode) (h : Phase f c) (hp : c.pending = [op])
    (ha : Allowed f.may op res) : Phase f (c.next (server fuel) [] [] op res) := by
  cases h with
  | line k ls cur es hk hls hcur hmax hl hh hes h =>
    obtain rfl := List.singleton_inj.mp (hp.symm.trans h.pending)
    exact octet_next fuel f c k ls cur es res hk hls hcur hmax hl hh hes h ha
  | ended t es hes h => exact absurd (hp.symm.trans h.pending) (by simp)
  | answered t es ht h => exact absurd (hp.symm.trans h.pending) (by simp)
  | responding t msg es ht h =>
    obtain rfl := List.singleton_inj.mp (hp.symm.trans h.pending)
    have hn := (at_emit (server fuel) c _ _ _ _ res _ (.call .writeResp (res.code .noError)) h
      rfl).2
    rw [received_write, List.append_nil] at hn
    exact .responded _ _ _ _ ht hn
  | responded t u es err ht h => exact absurd (hp.symm.trans h.pending) (by simp)

/-- No handler is set and no variable of the user is referred to. -/
structure Idle (s : Session) : Prop where
  handler : s.userReadReqHandler = false
  pointer : s.puserDst = false

theorem phase_begun (f : Faults) (s : Session) (hs : Idle s) :
    Phase f (Conf.begun (readConnectRequest s)) := by
  have h : readConnectRequest s = ({ s with
      puserDst := true, userReadReqHandler := true, line := [0] },
      [.start (.read 1 (.handleRead .handleReadFirstLine))]) := by
    simp [readConnectRequest, assertThat, hs.handler, hs.pointer, readFirstLine, readLine_eq]
  rw [h]
  exact .line .handleReadFirstLine [] [] [] (fun _ => rfl) (by simp) (by simp) (by decide) rfl rfl
    (by simp) (at_begun _)

def Due (es : List Event) : Prop := es.getLast? = some Success

theorem responding_invoke (f : Faults) (resp : ConnectResponse) (c : ServerState) (h : Phase f c)
    (hp : c.pending = []) (hd : Due c.events) :
    Phase f (c.invoke (writeConnectResponse c.obj resp)) := by
  cases h with
  | line k ls cur es hk hls hcur hmax hl hh hes h =>
    exact absurd (h.pending.symm.trans hp) (by simp)
  | ended t es hes h => exact absurd (h.events ▸ List.mem_of_getLast? hd) hes
  | answered t es ht h =>
    have hn := at_invoke c (writeConnectResponse c.obj resp) _ _ _ h
    exact .responding t _ _ ht hn
  | responding t msg es ht h => exact absurd (h.pending.symm.trans hp) (by simp)
  | responded t u es err ht h => simp [Due, h.events, Success] at hd

/-- A server on a socket that may fail, used as a session uses it. -/
abbrev Dialogue (fuel : ℕ) (f : Faults) (inp : Bytes) (resp : ConnectResponse) :
    ServerWire → ServerWire → Prop :=
  Served (server fuel) f.may inp Due fun s => writeConnectResponse s resp

def start (s : Session) : ServerWire := Wire.begun (readConnectRequest s)

theorem readConnectRequest_single (s : Session) :
    (started (readConnectRequest s).2).length ≤ 1 := by
  simp only [readConnectRequest, started_assertThat]
  exact readLine_single _ _

theorem dialogue_phase (fuel : ℕ) (f : Faults) (s : Session) (hs : Idle s) (inp : Bytes)
    (resp : ConnectResponse) (w : ServerWire) (hr : Run (Dialogue fuel f inp resp) (start s) w) :
    ∃ c, Tracks w c ∧ Phase f c :=
  served_tracks (server fuel) f.may inp Due (fun s => writeConnectResponse s resp)
    (fun _ => Nat.le_refl _) (Phase f) (phase_next fuel f) (responding_invoke f resp) _ w _
    (tracks_begun _ (readConnectRequest_single s)) (phase_begun f s hs) hr

/-- Once success is reported, the lines of the request are all that was taken. -/
theorem header_taken (f : Faults) (w : ServerWire) (c : ServerState) (h : Tracks w c)
    (hph : Phase f c) (hin : Success ∈ w.events) : Header w.taken := by
  cases hph with
  | line k ls cur es hk hls hcur hmax hl hh hes hat =>
    obtain ⟨_,-,-,-,-,hev⟩ := tracks_at_op w c _ _ _ _ h hat
    exact absurd (hev ▸ hin) hes
  | ended t es hes hat =>
    obtain ⟨-,-,-,hev⟩ := tracks_at_idle w c _ _ _ h hat
    exact absurd (hev ▸ hin) hes
  | answered t es ht hat =>
    obtain ⟨-,htk,-,-⟩ := tracks_at_idle w c _ _ _ h hat
    exact htk ▸ ht
  | responding t msg es ht hat =>
    obtain ⟨_,-,-,htk,-,-⟩ := tracks_at_op w c _ _ _ _ h hat
    rw [htk, received_write, List.append_nil]
    exact ht
  | responded t u es err ht hat =>
    obtain ⟨-,htk,-,-⟩ := tracks_at_idle w c _ _ _ h hat
    exact htk ▸ ht

end ProxySwiss.ServerHttpsRun
