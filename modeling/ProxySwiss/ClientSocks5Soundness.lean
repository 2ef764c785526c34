import ProxySwiss.ClientSocks5Run

/-!
# What a SOCKS5 server can make the client do

The peer may send any bytes and the socket may fail at any operation. Whatever
they do, the client writes its credentials and its request only in answer to
the octets that ask for them, and accepts only a complete successful reply.
-/

set_option autoImplicit false

namespace ProxySwiss.ClientSocks5Soundness
open Memory TransitionSystem CallbackObject StreamObject Socks5 ClientSessionSocks5
open ClientSocks5Run

theorem written_due (f : Faults) (creds : Credentials) (dst : Destination) (old : ConnectResponse)
    (c : ClientState) (h : Asking f creds dst old c) (hp : c.pending = []) (hd : Due c.events) :
    Reading f old (authAnswer creds) (preamble creds ++ connectRequest dst)
      [.call .writeReq .noError] (c.invoke (readConnectResponse c.obj)) := by
  cases h with
  | greet hw h => exact absurd (h.pending.symm.trans hp) (by simp)
  | method hw h => exact absurd (h.pending.symm.trans hp) (by simp)
  | credentials hc hw h => exact absurd (h.pending.symm.trans hp) (by simp)
  | status hc hw h => exact absurd (h.pending.symm.trans hp) (by simp)
  | request hw h => exact absurd (h.pending.symm.trans hp) (by simp)
  | written hr hresp h => exact hresp ▸ reading_invoke f _ _ _ c hr.1 hr.2 h
  | refused err t u herr ho hresp why h =>
    rw [Due, h.events] at hd
    simp only [List.cons.injEq, Event.call.injEq, true_and, and_true] at hd
    exact absurd (hd ▸ herr) ErrorCode.noError_failed

/-- The response is not asked for a second time. -/
theorem reading_due (f : Faults) (old : ConnectResponse) (base out : Bytes) (c : ClientState)
    (h : Reading f old base out [.call .writeReq .noError] c) (hp : c.pending = []) :
    ¬ Due c.events := by
  intro hd
  cases h with
  | header hr h => exact absurd (h.pending.symm.trans hp) (by simp)
  | length rep rsv hrep hr hh h => exact absurd (h.pending.symm.trans hp) (by simp)
  | address rep rsv atyp pre n k hrep hk hf hr hh h =>
    exact absurd (h.pending.symm.trans hp) (by simp)
  | answered rep m hm hresp h => simp [Due, h.events] at hd
  | failed err t herr hresp why h => simp [Due, h.events] at hd

theorem readConnectResponse_single (s : Session) :
    (started (readConnectResponse s).2).length ≤ 1 := by
  simp only [readConnectResponse, connReadResp, assertThat]
  split_ifs <;> simp

/-- A call that was refused at once never gets as far as a callback. -/
theorem accepted_or_over (s : Session) (dst : Destination) :
    Accepted s.creds dst ∨
      (Conf.begun (writeConnectRequest s dst) : ClientState).pending = [] ∧
        ¬ Due (Conf.begun (writeConnectRequest s dst) : ClientState).events := by
  have hbad : ∀ e, ¬ Due [.call .writeReq (makeErrorCode e)] := by
    intro e h
    simp only [Due, List.cons.injEq, Event.call.injEq, true_and, and_true] at h
    exact ErrorCode.noError_failed (h ▸ makeErrorCode_failed e)
  unfold writeConnectRequest
  split_ifs with hc hh
  · exact .inr ⟨rfl,hbad _⟩
  · exact .inr ⟨rfl,hbad _⟩
  · rw [not_or, not_lt, not_lt] at hc
    exact .inl ⟨hc.1,hc.2,fun h => not_lt.mp fun hlt => hh ⟨h,hlt⟩⟩

/-- The phases before the response is asked for, and those behind. -/
def Stage (f : Faults) (creds : Credentials) (dst : Destination) (old : ConnectResponse)
    (asked : Bool) (c : ClientState) : Prop :=
  if asked then Reading f old (authAnswer creds) (preamble creds ++ connectRequest dst)
    [.call .writeReq .noError] c
  else Asking f creds dst old c

theorem stage_phase (f : Faults) (creds : Credentials) (dst : Destination) (old : ConnectResponse)
    (asked : Bool) (c : ClientState) (h : Stage f creds dst old asked c) :
    Phase f creds dst old c := by
  cases asked with
  | true => exact .reading h
  | false => exact .asking h

theorem stage_next (f : Faults) (creds : Credentials) (dst : Destination) (old : ConnectResponse)
    (hacc : Accepted creds dst) (asked : Bool) (c : ClientState) (op : Op UInt8 Callback)
    (res : Result UInt8 ErrorCode) (h : Stage f creds dst old asked c) (hp : c.pending = [op])
    (ha : Allowed f.may op res) : Stage f creds dst old asked (c.next client [] [] op res) := by
  cases asked with
  | true => exact reading_next f old _ _ _ c op res h hp ha
  | false => exact asking_next f creds dst old hacc c op res h hp ha

theorem stage_call (f : Faults) (creds : Credentials) (dst : Destination) (old : ConnectResponse)
    (asked : Bool) (c : ClientState) (h : Stage f creds dst old asked c) (hp : c.pending = [])
    (hd : Due c.events) : Stage f creds dst old true (c.invoke (readConnectResponse c.obj)) := by
  cases asked with
  | true => exact absurd hd (reading_due f old _ _ c h hp)
  | false => exact written_due f creds dst old c h hp hd

theorem recall_stage (f : Faults) (s : Session) (hs : Idle s) (dst : Destination) (inp : Bytes)
    (w : ClientWire) (asked : Bool) (hr : Run (Recall f inp) (start s dst,false) (w,asked)) :
    ∃ c, Tracks w c ∧ Stage f s.creds dst s.connResp asked c := by
  have h : ∃ c, Tracks w c ∧ Stage f s.creds dst s.connResp asked c ∧
      (Accepted s.creds dst ∨ c.pending = [] ∧ ¬ Due c.events) := by
    refine recorded_tracks client f.may inp Due readConnectResponse readConnectResponse_single
      (fun asked c => Stage f s.creds dst s.connResp asked c ∧
        (Accepted s.creds dst ∨ c.pending = [] ∧ ¬ Due c.events)) ?_ ?_ (start s dst,false)
      (w,asked) (Conf.begun (writeConnectRequest s dst))
      (tracks_begun _ (writeConnectRequest_single s dst))
      ⟨asking_begun f s hs dst,accepted_or_over s dst⟩ hr
    · rintro b c op res ⟨hstage,hacc | ⟨hidle,-⟩⟩ hp ha
      · exact ⟨stage_next f _ _ _ hacc b c op res hstage hp ha,.inl hacc⟩
      · exact absurd (hidle.symm.trans hp) (by simp)
    · rintro b c ⟨hstage,hacc⟩ hp hd
      exact ⟨stage_call f _ _ _ b c hstage hp hd,.inl (hacc.resolve_right fun h => h.2 hd)⟩
  obtain ⟨c,hc,hstage,-⟩ := h
  exact ⟨c,hc,hstage⟩

theorem dialogue_phase (f : Faults) (s : Session) (hs : Idle s) (dst : Destination) (inp : Bytes)
    (w : ClientWire) (hr : Run (Dialogue f inp) (start s dst) w) :
    ∃ c, Tracks w c ∧ Phase f s.creds dst s.connResp c := by
  obtain ⟨asked,hrec⟩ := served_recorded client f.may inp Due readConnectResponse _ w false hr
  obtain ⟨c,hc,hstage⟩ := recall_stage f s hs dst inp w asked hrec
  exact ⟨c,hc,stage_phase f _ _ _ asked c hstage⟩

/-- What the user of the client can see of a run. -/
structure Outcome (creds : Credentials) (dst : Destination) (old : ConnectResponse)
    (w : ClientWire) : Prop where
  ordered : Ordered creds dst w.taken w.sent
  written : .call .writeReq .noError ∈ w.events →
    w.sent = preamble creds ++ connectRequest dst ∧ authAnswer creds <+: w.taken
  changed : w.obj.connResp ≠ old → .call .readResp .noError ∈ w.events
  answered : ∀ err, .call .readResp err ∈ w.events → ¬ err.failed →
    ∃ rep m, Reply rep m ∧ w.taken = authAnswer creds ++ m ∧
      w.obj.connResp = ⟨socks5RepToMajorCode rep⟩

/-- While a reply is being read everything has been written. -/
theorem reading_outcome (f : Faults) (creds : Credentials) (dst : Destination)
    (old : ConnectResponse) (w : ClientWire) (c : ClientState) (h : Tracks w c)
    (hr : Reading f old (authAnswer creds) (preamble creds ++ connectRequest dst)
      [.call .writeReq .noError] c) : Outcome creds dst old w := by
  have hord : ∀ t, authAnswer creds <+: t →
      Ordered creds dst t (preamble creds ++ connectRequest dst) :=
    fun t ht => .request ht (List.prefix_refl _) (by simp)
  -- a reply that is not complete yet: nothing was reported after the request
  have hopen : ∀ n k t, Awaiting old c.obj → authAnswer creds <+: t →
      At c [.read n k] t (preamble creds ++ connectRequest dst) [.call .writeReq .noError] →
      Outcome creds dst old w := by
    intro n k t ha ht hat
    obtain ⟨moved,-,-,htk,hst,hev⟩ := tracks_at_op w c _ _ _ _ h hat
    have hpre : authAnswer creds <+: w.taken := htk ▸ ht.trans (List.prefix_append _ _)
    rw [handed_read, List.append_nil] at hst
    refine ⟨hst ▸ hord _ hpre,fun _ => ⟨hst,hpre⟩,?_,?_⟩
    · intro hne
      exact absurd (h.obj ▸ ha.connResp) hne
    · intro err herr
      simp [hev] at herr
  cases hr with
  | header hr h => exact hopen _ _ _ hr (List.prefix_refl _) h
  | length rep rsv hrep hr hh h => exact hopen _ _ _ hr (List.prefix_append _ _) h
  | address rep rsv atyp pre n k hrep hk hf hr hh h =>
    exact hopen _ _ _ hr (by simp) h
  | answered rep m hm hresp hat =>
    obtain ⟨-,htk,hst,hev⟩ := tracks_at_idle w c _ _ _ h hat
    have hpre : authAnswer creds <+: w.taken := htk ▸ List.prefix_append _ _
    refine ⟨hst ▸ hord _ hpre,fun _ => ⟨hst,hpre⟩,?_,?_⟩
    · intro _
      simp [hev]
    · intro err _ _
      exact ⟨rep,m,hm,htk,by rw [h.obj, hresp]⟩
  | failed err t herr hresp why hat =>
    obtain ⟨-,htk,hst,hev⟩ := tracks_at_idle w c _ _ _ h hat
    have hpre : authAnswer creds <+: w.taken := htk ▸ List.prefix_append _ _
    refine ⟨hst ▸ hord _ hpre,fun _ => ⟨hst,hpre⟩,?_,?_⟩
    · intro hne
      exact absurd (by rw [h.obj, hresp]) hne
    · intro err' herr' hok
      simp only [hev, List.mem_append, List.mem_singleton, Event.call.injEq, reduceCtorEq,
        false_and, false_or, true_and] at herr'
      exact absurd (herr' ▸ herr) hok

theorem asking_outcome (f : Faults) (creds : Credentials) (dst : Destination)
    (old : ConnectResponse) (w : ClientWire) (c : ClientState) (h : Tracks w c)
    (hphase : Asking f creds dst old c) : Outcome creds dst old w := by
  -- an operation of the request is outstanding, and nothing was reported yet
  have hopen : ∀ op t u, Writing creds dst old c.obj → At c [op] t u [] →
      (∀ moved, op.Part moved →
        Ordered creds dst (t ++ op.received moved) (u ++ op.handed moved)) →
      Outcome creds dst old w := by
    intro op t u hw hat ho
    obtain ⟨moved,-,hpart,htk,hst,hev⟩ := tracks_at_op w c _ _ _ _ h hat
    refine ⟨htk ▸ hst ▸ ho moved hpart,?_,?_,?_⟩
    · intro hin
      simp [hev] at hin
    · intro hne
      exact absurd (h.obj ▸ hw.connResp) hne
    · intro err herr
      simp [hev] at herr
  cases hphase with
  | greet hw hat => exact hopen _ _ _ hw hat fun moved hp => .greeting hp (by simp)
  | method hw hat =>
    exact hopen _ _ _ hw hat fun moved hp => .greeting (by simp) (by simp)
  | credentials hc hw hat =>
    exact hopen _ _ _ hw hat fun moved hp => .credentials hc (by simp) hp (by simp)
  | status hc hw hat =>
    refine hopen _ _ _ hw hat fun moved hp => ?_
    rw [handed_read, List.append_nil, preamble, if_neg (by simp [hc])]
    exact .credentials hc (by simp) (List.prefix_refl _) (by simp)
  | request hw hat =>
    exact hopen _ _ _ hw hat fun moved hp => .request (by simp) hp (by simp)
  | written hr hresp hat =>
    obtain ⟨-,htk,hst,hev⟩ := tracks_at_idle w c _ _ _ h hat
    have hpre : authAnswer creds <+: w.taken := htk ▸ List.prefix_refl _
    refine ⟨hst ▸ .request hpre (List.prefix_refl _) (by simp),fun _ => ⟨hst,hpre⟩,?_,?_⟩
    · intro hne
      exact absurd (by rw [h.obj, hresp]) hne
    · intro err herr
      simp [hev] at herr
  | refused err t u herr ho hresp why hat =>
    obtain ⟨-,htk,hst,hev⟩ := tracks_at_idle w c _ _ _ h hat
    refine ⟨htk ▸ hst ▸ ho,?_,?_,?_⟩
    · intro hin
      simp only [hev, List.mem_singleton, Event.call.injEq, true_and] at hin
      exact absurd (hin ▸ herr) ErrorCode.noError_failed
    · intro hne
      exact absurd (by rw [h.obj, hresp]) hne
    · intro err' herr'
      simp [hev] at herr'

theorem phase_outcome (f : Faults) (creds : Credentials) (dst : Destination) (old : ConnectResponse)
    (w : ClientWire) (c : ClientState) (h : Tracks w c) (hphase : Phase f creds dst old c) :
    Outcome creds dst old w := by
  cases hphase with
  | asking ha => exact asking_outcome f creds dst old w c h ha
  | reading hr => exact reading_outcome f creds dst old w c h hr

theorem dialogue_outcome (f : Faults) (s : Session) (hs : Idle s) (dst : Destination) (inp : Bytes)
    (w : ClientWire) (hr : Run (Dialogue f inp) (start s dst) w) :
    Outcome s.creds dst s.connResp w := by
  obtain ⟨c,hc,hphase⟩ := dialogue_phase f s hs dst inp w hr
  exact phase_outcome f _ _ _ w c hc hphase

/-- A client that waits for its user has taken the answer to its credentials. -/
theorem written_taken (f : Faults) (creds : Credentials) (dst : Destination)
    (old : ConnectResponse) (w : ClientWire) (c : ClientState) (h : Tracks w c)
    (hphase : Phase f creds dst old c) (hev : w.events = [.call .writeReq .noError])
    (hact : w.active = []) : w.taken = authAnswer creds := by
  have hopen : ∀ op t u es, ¬ At c [op] t u es := fun op t u es => not_at_op w c op t u es h hact
  cases hphase with
  | asking ha =>
    cases ha with
    | greet hw hat => exact (hopen _ _ _ _ hat).elim
    | method hw hat => exact (hopen _ _ _ _ hat).elim
    | credentials hc hw hat => exact (hopen _ _ _ _ hat).elim
    | status hc hw hat => exact (hopen _ _ _ _ hat).elim
    | request hw hat => exact (hopen _ _ _ _ hat).elim
    | written hr hresp hat => exact (tracks_at_idle w c _ _ _ h hat).2.1
    | refused err t u herr ho hresp why hat =>
      obtain rfl : err = .noError := by simpa [hev] using (h.events.trans hat.events).symm
      exact absurd herr ErrorCode.noError_failed
  | reading hr =>
    cases hr with
    | header hr hat => exact (hopen _ _ _ _ hat).elim
    | length rep rsv hrep hr hh hat => exact (hopen _ _ _ _ hat).elim
    | address rep rsv atyp pre n k hrep hk hf hr hh hat => exact (hopen _ _ _ _ hat).elim
    | answered rep m hm hresp hat => simpa [hev] using h.events.trans hat.events
    | failed err t herr hresp why hat => simpa [hev] using h.events.trans hat.events

theorem socks5RepToMajorCode_succeeded (rep : UInt8) :
    socks5RepToMajorCode rep = .succeeded ↔ rep = 0 := by
  unfold socks5RepToMajorCode
  split_ifs <;> simp_all

theorem ordered_credentials (creds : Credentials) (dst : Destination) (taken sent : Bytes)
    (h : Ordered creds dst taken sent) (hlo : (greeting creds).length < sent.length)
    (hhi : sent.length ≤ (preamble creds).length) :
    creds.empty = false ∧ [5,2] <+: taken ∧
      (sent.length < (preamble creds).length → taken = [5,2]) := by
  have hc : creds.empty = false := by
    by_contra hne
    rw [preamble, if_pos (by simpa using hne)] at hhi
    omega
  refine ⟨hc,?_⟩
  cases h with
  | greeting h _ => exact absurd h.length_le (by omega)
  | credentials _ ht _ hx =>
    refine ⟨ht,fun hlt => hx ?_⟩
    rintro rfl
    simp [preamble, hc] at hlt
  | request ht _ _ =>
    simp only [authAnswer, hc] at ht
    refine ⟨List.IsPrefix.trans (by simp) ht,fun hlt => ?_⟩
    rw [List.length_append] at hlt
    omega

theorem ordered_request (creds : Credentials) (dst : Destination) (taken sent : Bytes)
    (h : Ordered creds dst taken sent) (hlo : (preamble creds).length < sent.length) :
    authAnswer creds <+: taken := by
  have hge : (greeting creds).length ≤ (preamble creds).length := by
    unfold preamble
    split <;> simp
  cases h with
  | greeting h _ => exact absurd h.length_le (by omega)
  | credentials hc _ h _ =>
    have := h.length_le
    simp [preamble, hc] at hlo
    omega
  | request ht _ _ => exact ht

/-- How it ends when nothing is outstanding: before the response is asked for with
an error or with the request written, and behind that with an error, with a
response that is not success, or with success that the server has granted. -/
inductive Ended (creds : Credentials) (w : ClientWire) : Bool → Prop
  | refused (err : ErrorCode) (herr : err.failed) (h : w.events = [.call .writeReq err]) :
      Ended creds w false
  | written (h : w.events = [.call .writeReq .noError]) : Ended creds w false
  | failed (err : ErrorCode) (herr : err.failed)
      (h : w.events = [.call .writeReq .noError,.call .readResp err]) : Ended creds w true
  | declined (hresp : w.obj.connResp ≠ ⟨.succeeded⟩)
      (h : w.events = [.call .writeReq .noError,.call .readResp .noError]) : Ended creds w true
  | granted (m : Bytes) (hm : Reply 0 m) (ht : w.taken = authAnswer creds ++ m)
      (hresp : w.obj.connResp = ⟨.succeeded⟩)
      (h : w.events = [.call .writeReq .noError,.call .readResp .noError]) : Ended creds w true

theorem asking_ended (f : Faults) (creds : Credentials) (dst : Destination)
    (old : ConnectResponse) (w : ClientWire) (c : ClientState) (h : Tracks w c)
    (ha : Asking f creds dst old c) (hact : w.active = []) : Ended creds w false := by
  have hopen : ∀ op t u es, ¬ At c [op] t u es := fun op t u es => not_at_op w c op t u es h hact
  cases ha with
  | greet hw hat => exact absurd hat (hopen _ _ _ _)
  | method hw hat => exact absurd hat (hopen _ _ _ _)
  | credentials hc hw hat => exact absurd hat (hopen _ _ _ _)
  | status hc hw hat => exact absurd hat (hopen _ _ _ _)
  | request hw hat => exact absurd hat (hopen _ _ _ _)
  | written hr hresp hat => exact .written (h.events.trans hat.events)
  | refused err t u herr ho hresp why hat => exact .refused err herr (h.events.trans hat.events)

theorem reading_ended (f : Faults) (creds : Credentials) (out : Bytes) (old : ConnectResponse)
    (w : ClientWire) (c : ClientState) (h : Tracks w c)
    (hr : Reading f old (authAnswer creds) out [.call .writeReq .noError] c)
    (hact : w.active = []) : Ended creds w true := by
  have hopen : ∀ op t u es, ¬ At c [op] t u es := fun op t u es => not_at_op w c op t u es h hact
  cases hr with
  | header hr hat => exact absurd hat (hopen _ _ _ _)
  | length rep rsv hrep hr hh hat => exact absurd hat (hopen _ _ _ _)
  | address rep rsv atyp pre n k hrep hk hf hr hh hat => exact absurd hat (hopen _ _ _ _)
  | answered rep m hm hresp hat =>
    obtain ⟨-,ht,-,hev⟩ := tracks_at_idle w c _ _ _ h hat
    have hconn : w.obj.connResp = ⟨socks5RepToMajorCode rep⟩ := by rw [h.obj, hresp]
    by_cases h0 : rep = 0
    · subst h0
      exact .granted m hm ht hconn hev
    · refine .declined (fun hs => h0 ?_) hev
      rw [hconn, ConnectResponse.mk.injEq] at hs
      exact (socks5RepToMajorCode_succeeded rep).mp hs
  | failed err t herr hresp why hat => exact .failed err herr (h.events.trans hat.events)

theorem recall_ended (f : Faults) (s : Session) (hs : Idle s) (dst : Destination) (inp : Bytes)
    (w : ClientWire) (asked : Bool) (hr : Run (Recall f inp) (start s dst,false) (w,asked))
    (hact : w.active = []) : Ended s.creds w asked := by
  obtain ⟨c,hc,hstage⟩ := recall_stage f s hs dst inp w asked hr
  cases asked with
  | true => exact reading_ended f _ _ _ w c hc hstage hact
  | false => exact asking_ended f _ _ _ w c hc hstage hact

/-- Authentication order and soundness, against every peer and every failure. -/
theorem client_authenticates (s : Session) (hs : Idle s) (dst : Destination) (inp : Bytes)
    (w : ClientWire) (asked : Bool)
    (hr : Run (Recall Faults.any inp) (start s dst,false) (w,asked)) :
    w.sent <+: preamble s.creds ++ connectRequest dst ∧
    ((greeting s.creds).length < w.sent.length → w.sent.length ≤ (preamble s.creds).length →
      s.creds.empty = false ∧ [5,2] <+: w.taken ∧
        (w.sent.length < (preamble s.creds).length → w.taken = [5,2])) ∧
    ((preamble s.creds).length < w.sent.length → authAnswer s.creds <+: w.taken) ∧
    (.call .writeReq .noError ∈ w.events →
      w.sent = preamble s.creds ++ connectRequest dst) ∧
    (w.obj.connResp ≠ s.connResp → .call .readResp .noError ∈ w.events) ∧
    (∀ err, .call .readResp err ∈ w.events → ¬ err.failed →
      ∃ rep m, Reply rep m ∧ w.taken = authAnswer s.creds ++ m ∧
        w.obj.connResp = ⟨socks5RepToMajorCode rep⟩ ∧
        (w.obj.connResp = ⟨.succeeded⟩ ↔ rep = 0)) ∧
    (w.active = [] → Ended s.creds w asked) := by
  have ho := dialogue_outcome Faults.any s hs dst inp w
    (recorded_served client _ inp Due readConnectResponse _ (w,asked) hr)
  refine ⟨ordered_script _ _ _ _ ho.ordered,ordered_credentials _ _ _ _ ho.ordered,
    ordered_request _ _ _ _ ho.ordered,fun h => (ho.written h).1,ho.changed,?_,
    recall_ended Faults.any s hs dst inp w asked hr⟩
  intro err herr hok
  obtain ⟨rep,m,hm,ht,hresp⟩ := ho.answered err herr hok
  refine ⟨rep,m,hm,ht,hresp,?_⟩
  rw [hresp, ConnectResponse.mk.injEq, socks5RepToMajorCode_succeeded]

def loginClient : Session := { creds := ⟨[97],[98]⟩ }
def loginDst : Destination := { hostname := [104], port := 80 }
def loginStream : Bytes := [5,2,5,0,5,0,0,1,0,0,0,0,0,80]

def loginAsked : List (Result UInt8 ErrorCode) :=
  [.ok [5,1,2],.ok [5,2],.ok [5,1,97,1,98],.ok [5,0],.ok [5,1,0,3,1,104,0,80]]

def loginWritten : ClientState :=
  play client loginAsked (Conf.begun (writeConnectRequest loginClient loginDst))

def loginReading : ClientState := loginWritten.invoke (readConnectResponse loginWritten.obj)

def loginAnswered : List (Result UInt8 ErrorCode) := [.ok [5,0,0,1],.ok [0,0,0,0,0,80]]

/-- A complete login and a complete reply, whatever follows on the stream. -/
theorem login_run (rest : Bytes) : ∃ w,
    Run (Recall Faults.any (loginStream ++ rest)) (start loginClient loginDst,false) (w,true) ∧
    w.active = [] ∧ w.events = [.call .writeReq .noError,.call .readResp .noError] ∧
    w.obj.connResp = ⟨.succeeded⟩ := by
  have hasked : taken loginWritten <+: loginStream := by decide
  have hanswered : taken (play client loginAnswered loginReading) <+: loginStream := by decide
  have hflow : ∀ b u v, Run (Flow client ErrorCode.failed (loginStream ++ rest)) u v →
      Run (Recall Faults.any (loginStream ++ rest)) (u,b) (v,b) := fun b u v h =>
    Relation.ReflTransGen.lift (·,b) (fun s t ht => .io s t b ht) u v h
  obtain ⟨v,hv,hs⟩ := play_flow client ErrorCode.failed (loginStream ++ rest) loginAsked
    (start loginClient loginDst) (Conf.begun (writeConnectRequest loginClient loginDst))
    (settled_begun _) ⟨rfl,rfl,rfl,rfl,rfl,trivial⟩ (hasked.trans (List.prefix_append _ _))
  obtain ⟨hact,hinv⟩ := settled_invoke readConnectResponse v loginWritten hs rfl
  obtain ⟨w,hw,hs'⟩ := play_flow client ErrorCode.failed (loginStream ++ rest) loginAnswered _
    loginReading hinv ⟨rfl,rfl,trivial⟩ (hanswered.trans (List.prefix_append _ _))
  exact ⟨w,((hflow false _ _ hv).tail (.call v false hact hs.events)).trans (hflow true _ _ hw),
    hs'.active,hs'.events,congrArg Session.connResp hs'.obj⟩

theorem client_authenticates_login : ∃ w,
    Run (Recall Faults.any (loginStream ++ [])) (start loginClient loginDst,false) (w,true) ∧
    w.sent = preamble loginClient.creds ++ connectRequest loginDst ∧
    ∃ m, Reply 0 m ∧ w.taken = authAnswer loginClient.creds ++ m := by
  obtain ⟨w,hr,hact,he,hresp⟩ := login_run []
  obtain ⟨-,-,-,hwritten,-,-,hended⟩ :=
    client_authenticates loginClient ⟨rfl,rfl,rfl⟩ loginDst _ w true hr
  refine ⟨w,hr,hwritten (by simp [he]),?_⟩
  cases hended hact with
  | failed err herr h =>
    obtain rfl : ErrorCode.noError = err := by simpa [he] using h
    exact absurd herr ErrorCode.noError_failed
  | declined hno h => exact absurd hresp hno
  | granted m hm ht hconn h => exact ⟨m,hm,ht⟩

end ProxySwiss.ClientSocks5Soundness
