import ProxySwiss.Socks5Idle
import ProxySwiss.Socks5ServerIdle
import ProxySwiss.RequestLines

/-!
# Return to idle

The HTTPS server lets go of the destination of its user only behind the empty
line at the end of a request. With the two SOCKS5 calls this makes three that
find their own assertions failing when they are called again after a refusal.
-/

set_option autoImplicit false

namespace ProxySwiss.ReturnToIdle
open Memory TransitionSystem CallbackObject StreamObject

namespace Https
open ServerSessionHttps ServerHttpsRun HttpsReading RequestLines

theorem idle_asserts (s : Session) :
    .assertFailed ∉ emitted (readConnectRequest s).2 ↔ Idle s := by
  constructor
  · intro h
    cases hh : s.userReadReqHandler <;> cases hp : s.puserDst <;>
      simp_all [readConnectRequest, assertThat, Idle.mk]
  · intro h
    simp [begun_eq s h]

/-- No line, or a first line that is accepted and header lines. -/
inductive Lines (fuel : ℕ) (s : Session) : Bytes → Prop
  | none : Lines fuel s []
  | head (first : Bytes) (p : FirstLine) (hs : List Bytes) (hp : Accepted fuel s first p)
      (hhs : ∀ l ∈ hs, HeaderLine l) : Lines fuel s (first ++ hs.flatten)

/-- A first line that is not accepted, or a line that does not end in time. -/
inductive Refused (fuel : ℕ) (s : Session) : Bytes → Prop
  | first (l : Bytes) (p : FirstLine) (hl : ReadLine l) (hp : Parsed fuel s l (some p))
      (herr : p.err.failed) : Refused fuel s l
  | long (ls cur : Bytes) (hls : Lines fuel s ls) (hcur : 0x0a ∉ cur)
      (hlen : cur.length = kMaxLineLen) : Refused fuel s (ls ++ cur)

inductive Granted (fuel : ℕ) (s : Session) : Bytes → Prop
  | mk (first : Bytes) (p : FirstLine) (hs : List Bytes) (last : Bytes)
      (hp : Accepted fuel s first p) (hhs : ∀ l ∈ hs, HeaderLine l) (hlast : EmptyLine last) :
      Granted fuel s (first ++ hs.flatten ++ last)

def Called (es : List Event) : Prop := ∃ err, .call .readReq err ∈ es

structure Armed (s : Session) : Prop where
  handler : s.userReadReqHandler = true
  pointer : s.puserDst = true

abbrev Left (fuel : ℕ) (f : Faults) (s : Session) (c : ServerState) : Prop :=
  Remains f.may (Refused fuel s) (Granted fuel s) Armed Idle Called c

theorem uncalled (es : List Event) (h : ∀ e ∈ es, e = .assertFailed) : ¬ Called es := by
  rintro ⟨err,herr⟩
  exact absurd (h _ herr) (by simp)

/-- The call ends with an error, whatever was asserted before. -/
theorem kept_next (fuel : ℕ) (f : Faults) (s x : Session) (c : ServerState) (k : LineHandler)
    (res : Result UInt8 ErrorCode) (t : Bytes) (es as : List Event) (err : ErrorCode)
    (h : At c [.read 1 (.handleRead k)] t [] es) (hx : Armed x)
    (he : (server fuel).done (.read 1 (.handleRead k)) res c.obj =
      ((callAndClearHandler x err).1,as.map .emit ++ (callAndClearHandler x err).2))
    (why : (∃ e, f.may e) ∨ Refused fuel s (t ++ res.data)) :
    Left fuel f s (c.next (server fuel) [] [] (.read 1 (.handleRead k)) res) := by
  have hn := at_next (server fuel) c _ t [] es res h
  have hobj : (c.next (server fuel) [] [] (.read 1 (.handleRead k)) res).obj =
      (callAndClearHandler x err).1 := (congrArg Prod.fst he :)
  rw [he] at hn
  rw [call_set x err hx.handler] at hn hobj
  refine .kept (by simpa using hn.pending) (by rw [hn.taken]; exact why) ?_
    ⟨err,by simp [hn.events]⟩
  rintro ⟨-,hp⟩
  rw [hobj] at hp
  exact absurd (hx.pointer.symm.trans hp) (by simp)

theorem store_armed (s : Session) (d : Bytes) (k : Callback) (hs : Armed s) :
    Armed (store s d k) := by
  cases k with
  | handleRead k =>
    unfold store
    split_ifs <;> exact ⟨hs.handler,hs.pointer⟩
  | writeConnectResponseHandler => exact hs

theorem error_left (fuel : ℕ) (f : Faults) (s : Session) (c : ServerState) (k : LineHandler)
    (e : ErrorCode) (d t : Bytes) (es : List Event) (he : f.may e) (hs : Armed c.obj)
    (h : At c [.read 1 (.handleRead k)] t [] es) :
    Left fuel f s (c.next (server fuel) [] [] (.read 1 (.handleRead k)) (.error e d)) := by
  refine kept_next fuel f s (store c.obj d (.handleRead k)) c k _ t es [] e h
    (store_armed _ _ _ hs) ?_ (.inl ⟨e,he⟩)
  rw [octet_error fuel k c.obj e d (f.failed e he)]
  rfl

/-- One octet that is no line feed, and the line goes on or has become too long. -/
theorem octet_left (fuel : ℕ) (f : Faults) (s x : Session) (c : ServerState) (k : LineHandler)
    (ls cur : Bytes) (b : UInt8) (es : List Event) (hls : Lines fuel s ls) (hb : b ≠ 0x0a)
    (hcur : 0x0a ∉ cur) (hes : ∀ e ∈ es, e = .assertFailed)
    (ho : c.obj = { x with line := cur ++ [0] }) (hx : Armed x)
    (h : At c [.read 1 (.handleRead k)] (ls ++ cur) [] es) :
    Left fuel f s (c.next (server fuel) [] [] (.read 1 (.handleRead k)) (.ok [b])) := by
  by_cases hfull : cur.length+1 = kMaxLineLen
  · refine kept_next fuel f s { x with line := cur ++ [b] } c k _ _ es []
      (makeErrorCode .lineTooLong) h ⟨hx.handler,hx.pointer⟩ ?_ (.inr ?_)
    · rw [ho, octet_full fuel k x cur b hfull, long_line fuel k _ (by simp [hb])]
      rfl
    · rw [List.append_assoc]
      exact .long ls _ hls (by simp [hcur, Ne.symm hb]) (by simpa using hfull)
  · have hd := (congrArg ((server fuel).done _ _) ho).trans (octet_more fuel k x cur b hb hfull)
    exact .starts _ _ _ _ _ _ _ c _ _ _ _ _ _ es h hd ⟨hx.handler,hx.pointer⟩ (uncalled es hes)

theorem first_left (fuel : ℕ) (f : Faults) (s : Session) (c : ServerState) (cur : Bytes)
    (hcur : 0x0a ∉ cur) (hmax : cur.length < kMaxLineLen) (ho : c.obj = begun s cur)
    (h : At c [.read 1 (.handleRead .handleReadFirstLine)] cur [] []) : Left fuel f s
      (c.next (server fuel) [] [] (.read 1 (.handleRead .handleReadFirstLine)) (.ok [0x0a])) := by
  obtain ⟨l,hl,-⟩ := trimLine_feed cur
  have hd := (congrArg ((server fuel).done _ _) ho).trans (first_done fuel s cur l hl)
  have hn := at_next (server fuel) c _ cur [] [] (.ok [0x0a]) h
  cases hp : parseFirstLine fuel l s.parsedDst s.httpVer with
  | none =>
    rw [hp] at hd
    rw [hd] at hn
    exact .waits ⟨congrArg (fun r : Effect => r.1.userReadReqHandler) hd,
      congrArg (fun r : Effect => r.1.puserDst) hd⟩ (uncalled _ (by simp [hn.events]))
  | some p =>
    rw [hp] at hd
    by_cases herr : p.err.failed
    · simp only [if_pos herr] at hd
      exact kept_next fuel f s { headed s p cur with line := l } c _ _ cur [] (asserts p) p.err h
        ⟨rfl,rfl⟩ hd (.inr (.first _ p (line_complete cur hcur hmax) ⟨l,hl,hp⟩ herr))
    · simp only [if_neg herr] at hd
      rw [hd] at hn
      refine .waits ⟨congrArg (fun r : Effect => r.1.userReadReqHandler) hd,
        congrArg (fun r : Effect => r.1.puserDst) hd⟩ (uncalled _ ?_)
      rw [hn.events]
      simpa using asserts_all p

theorem header_left (fuel : ℕ) (f : Faults) (s : Session) (c : ServerState) (first : Bytes)
    (p : FirstLine) (hs : List Bytes) (cur : Bytes) (hp : Accepted fuel s first p)
    (hhs : ∀ l ∈ hs, HeaderLine l) (ho : c.obj = headed s p cur)
    (h : At c [.read 1 (.handleRead .handleReadAnotherLine)] (first ++ hs.flatten ++ cur) []
      (asserts p)) : Left fuel f s
      (c.next (server fuel) [] [] (.read 1 (.handleRead .handleReadAnotherLine)) (.ok [0x0a])) := by
  obtain ⟨l,hl,hempty⟩ := trimLine_feed cur
  have hd := (congrArg ((server fuel).done _ _) ho).trans (header_done fuel s p cur l hl)
  have hn := at_next (server fuel) c _ _ [] _ (.ok [0x0a]) h
  by_cases h0 : l = []
  · rw [if_neg (not_not.mpr h0)] at hd
    rw [hd] at hn
    refine .cleared (by simpa using hn.pending) ?_
      ⟨congrArg (fun r : Effect => r.1.userReadReqHandler) hd,
        congrArg (fun r : Effect => r.1.puserDst) hd⟩ ⟨.noError,by simp [hn.events, Success]⟩
    rw [hn.taken, List.append_assoc]
    exact .mk first p hs _ hp hhs (hempty.mp h0)
  · rw [if_pos h0] at hd
    exact .starts _ _ _ _ _ _ _ c _ _ _ _ _ _ _ h hd ⟨rfl,rfl⟩ (uncalled _ (asserts_all p))

theorem left_next (fuel : ℕ) (f : Faults) (s : Session) (c : ServerState) (op : Op UInt8 Callback)
    (res : Result UInt8 ErrorCode) (hc : Stage fuel f s c) (hl : Left fuel f s c)
    (hp : c.pending = [op]) (ha : Allowed f.may op res) :
    Left fuel f s (c.next (server fuel) [] [] op res) := by
  have hs := hl.armed _ _ _ _ _ _ c op hp
  cases hc with
  | first cur hcur hmax ho h =>
    obtain rfl := List.singleton_inj.mp (hp.symm.trans h.pending)
    cases res with
    | error e d => exact error_left fuel f s c _ e d cur [] ha.1 hs h
    | ok d =>
      obtain ⟨b,rfl⟩ := List.length_eq_one_iff.mp ha
      by_cases hb : b = 0x0a
      · subst hb
        exact first_left fuel f s c cur hcur hmax ho h
      · exact octet_left fuel f s (begun s cur) c _ [] cur b [] .none hb hcur (by simp) ho
          ⟨rfl,rfl⟩ h
  | header first p hs' cur hacc hhs hcur hmax ho h =>
    obtain rfl := List.singleton_inj.mp (hp.symm.trans h.pending)
    cases res with
    | error e d => exact error_left fuel f s c _ e d _ _ ha.1 hs h
    | ok d =>
      obtain ⟨b,rfl⟩ := List.length_eq_one_iff.mp ha
      by_cases hb : b = 0x0a
      · subst hb
        exact header_left fuel f s c first p hs' cur hacc hhs ho h
      · exact octet_left fuel f s (headed s p cur) c _ _ cur b _ (.head first p hs' hacc hhs) hb
          hcur (asserts_all p) ho ⟨rfl,rfl⟩ h
  | done first p hs' last hp' hhs hlast ho hd h => exact absurd (hp.symm.trans h.pending) (by simp)
  | failed err t es herr why hes ho hd h => exact absurd (hp.symm.trans h.pending) (by simp)
  | hung first hl hp' ho h => exact absurd (hp.symm.trans h.pending) (by simp)

abbrev Stands (fuel : ℕ) (f : Faults) (s : Session) (c : ServerState) : Prop :=
  Stage fuel f s c ∧ Left fuel f s c

theorem stands_begun (fuel : ℕ) (f : Faults) (s : Session) (hs : Idle s) :
    Stands fuel f s (Conf.begun (readConnectRequest s)) := by
  refine ⟨stage_begun fuel f s hs,?_⟩
  rw [begun_eq s hs]
  exact .waits ⟨rfl,rfl⟩ (uncalled _ (by simp [Conf.begun]))

theorem stands_next (fuel : ℕ) (f : Faults) (s : Session) (c : ServerState) (op : Op UInt8 Callback)
    (res : Result UInt8 ErrorCode) (h : Stands fuel f s c) (hp : c.pending = [op])
    (ha : Allowed f.may op res) : Stands fuel f s (c.next (server fuel) [] [] op res) :=
  ⟨stage_next fuel f s c op res h.1 hp ha,left_next fuel f s c op res h.1 h.2 hp ha⟩

/-- The call ends with an error on what is refused. -/
theorem refused_fed (fuel : ℕ) (s : Session) (hs : Idle s) (t : Bytes) (h : Refused fuel s t) :
    ∃ c es err, Feeds (server fuel) (Conf.begun (readConnectRequest s)) t c ∧
      At c [] t [] (es ++ [.call .readReq err]) ∧ err.failed := by
  have hread : Reading .handleReadFirstLine (begun s []) [] [] []
      (Conf.begun (readConnectRequest s)) := by
    rw [begun_eq s hs]
    exact ⟨rfl,at_begun _⟩
  cases h with
  | first l p hl hp herr =>
    obtain ⟨⟨body,rfl,hbody⟩,hshort⟩ := hl
    obtain ⟨l,hl,hparse⟩ := hp
    have hlen : body.length < kMaxLineLen := by
      rw [List.length_append, List.length_singleton] at hshort
      omega
    have hd := first_done fuel s body l hl
    simp only [hparse, if_pos herr] at hd
    rw [call_set { headed s p body with line := l } p.err rfl] at hd
    obtain ⟨c,hc,-,hat⟩ := line_fed fuel _ (begun s []) [] body [] _ _ hread hbody hlen hd
    exact ⟨c,asserts p,p.err,hc,by simpa using hat,herr⟩
  | long ls cur hls hcur hlen =>
    cases hls with
    | none =>
      obtain ⟨c,hc,-,hat⟩ := long_fed fuel _ (begun s []) [] cur [] _ hread rfl hcur hlen
      exact ⟨c,[],_,hc,hat,makeErrorCode_failed _⟩
    | head first p hs' hp hhs =>
      obtain ⟨c1,h1,hread1⟩ := head_fed fuel s hs first p _ hp hhs
      obtain ⟨c2,h2,-,hat⟩ := long_fed fuel _ (headed s p []) _ cur _ c1 hread1 rfl hcur hlen
      exact ⟨c2,asserts p,_,h1.append _ _ _ _ _ _ h2,hat,makeErrorCode_failed _⟩

theorem refused_inevitable (fuel : ℕ) (s : Session) (hs : Idle s) (inp t : Bytes)
    (h : Refused fuel s t) (ht : t <+: inp) :
    Inevitable (Flow (server fuel) Faults.none.may inp)
      (fun w => w.active = [] ∧ ∃ es err, w.events = es ++ [.call .readReq err] ∧ err.failed)
      (start s) := by
  obtain ⟨c,es,err,hc,hat,herr⟩ := refused_fed fuel s hs t h
  refine (fed_inevitable fuel s inp t c _ hc hat ht).strengthen ?_
  rintro w - ⟨hact,-,he,-⟩
  exact ⟨hact,es,err,he,herr⟩

/-- A stream that begins with a request does not begin with what is refused. -/
theorem granted_alone (fuel : ℕ) (s : Session) (hs : Idle s) (inp t m : Bytes)
    (ht : Refused fuel s t) (hm : Granted fuel s m) (htpre : t <+: inp) : ¬ m <+: inp := by
  intro hmpre
  cases hm with
  | mk first p ls last hp hls hlast =>
    obtain ⟨w,hr,hact,-,he,-⟩ :=
      (request_inevitable fuel s hs inp first last p ls hp hls hlast hmpre).reached
    have hend : ∀ u v : ServerWire, u.active = [] → ¬ Flow (server fuel) Faults.none.may inp u v :=
      fun u v hu hv => flow_active _ _ _ u v hv hu
    obtain ⟨-,es,err,he',herr⟩ := (refused_inevitable fuel s hs inp t ht htpre).ended
      (fun u v hu => hend u v hu.1) hr (fun v => hend w v hact)
    have hlast := congrArg List.getLast? (he.symm.trans he')
    simp only [List.getLast?_append_of_ne_nil _ (List.cons_ne_nil _ _), List.getLast?_singleton,
      Option.some.injEq, Success, Event.call.injEq, true_and] at hlast
    exact ErrorCode.noError_failed (hlast ▸ herr)

/-- The call leaves the object idle exactly if nothing fails and neither the first
line is refused nor a line is too long. -/
theorem https_idle (fuel : ℕ) (f : Faults) (s : Session) (hs : Idle s) (inp : Bytes) :
    (∀ w, Run (Flow (server fuel) f.may inp) (start s) w → Called w.events → Idle w.obj) ↔
      (∀ e, ¬ f.may e) ∧ ¬ ∃ t, Refused fuel s t ∧ t <+: inp := by
  refine rests_iff (server fuel) f.may inp (Refused fuel s) (Granted fuel s) Armed Idle Called
    (Stands fuel f s) (stands_next fuel f s) (fun c hc => hc.2) (readConnectRequest s)
    (.read 1 (.handleRead .handleReadFirstLine)) (by rw [begun_eq s hs]; rfl)
    (stands_begun fuel f s hs) ?_ (granted_alone fuel s hs inp) ?_
  · intro e he
    rw [octet_error fuel _ _ e [] (f.failed e he), begun_eq s hs, call_set _ _ rfl]
    exact ⟨⟨e,by simp⟩,fun h => absurd h.pointer (by simp [store, begun])⟩
  · intro _ t ht hpre
    obtain ⟨w,hr,-,es,err,he,-⟩ := (refused_inevitable fuel s hs inp t ht hpre).reached
    refine ⟨w,Relation.ReflTransGen.mono ?_ _ _ hr,err,by simp [he]⟩
    exact fun u v huv => flow_mono (server fuel) _ f.may inp (fun _ h => h.elim) u v huv

end Https

open Socks5Idle

/-- Each of the calls leaves its object idle on exactly the streams that nothing
refuses, and only if no operation fails. -/
theorem return_to_idle (f : Faults) (inp : Bytes) :
    (∀ s, Client.Rests s → ((∀ w, Run (Flow ClientSessionSocks5.client f.may inp)
      (Client.start s) w → Client.Called w.events → Client.Rests w.obj) ↔
        (∀ e, ¬ f.may e) ∧ ¬ ∃ t, Client.Unfavourable t ∧ t <+: inp)) ∧
    (∀ s, ServerSocks5Run.Idle s → ((∀ w, Run (Flow ServerSessionSocks5.server f.may inp)
      (ServerSocks5Run.start s) w → Server.Called w.events → ServerSocks5Run.Idle w.obj) ↔
        (∀ e, ¬ f.may e) ∧ ¬ ∃ t, Server.Unwanted t ∧ t <+: inp)) ∧
    ∀ fuel s, ServerHttpsRun.Idle s → ((∀ w, Run (Flow (ServerSessionHttps.server fuel) f.may inp)
      (ServerHttpsRun.start s) w → Https.Called w.events → ServerHttpsRun.Idle w.obj) ↔
        (∀ e, ¬ f.may e) ∧ ¬ ∃ t, Https.Refused fuel s t ∧ t <+: inp) :=
  ⟨fun s hs => Client.client_rests f s hs inp,fun s hs => Server.server_idle f s hs inp,
    fun fuel s hs => Https.https_idle fuel f s hs inp⟩

/-- A response that the connection was made. -/
theorem return_to_idle_granted : ∀ w, Run (Flow ClientSessionSocks5.client Faults.none.may
    [5,0,0,1,0,0,0,0,0,80]) (Client.start {}) w → Client.Called w.events →
      Client.Rests w.obj := by
  refine ((return_to_idle Faults.none [5,0,0,1,0,0,0,0,0,80]).1 {} ⟨rfl,rfl⟩).mpr
    ⟨fun _ h => h,?_⟩
  rintro ⟨t,ht,hpre⟩
  exact Client.granted_alone _ t _ ht (.mk 0 1 [0,0,0,0,0,80] (by decide) (.ipv4 _ rfl)) hpre
    (List.prefix_refl _)

/-- A response that the connection was refused is no error, and the second
assertion of a further call fails. -/
theorem refusal_unrested : ¬ ∀ w, Run (Flow ClientSessionSocks5.client Faults.none.may
    [5,5,0,1,0,0,0,0,0,80]) (Client.start {}) w → Client.Called w.events →
      Client.Rests w.obj := by
  intro hall
  obtain ⟨w,hr,hs⟩ := play_flow ClientSessionSocks5.client Faults.none.may
    [5,5,0,1,0,0,0,0,0,80] [.ok [5,5,0,1],.ok [0,0,0,0,0,80]] (Client.start {})
    (Conf.begun (ClientSessionSocks5.readConnectResponse {})) (settled_begun _)
    ⟨rfl,rfl,trivial⟩ (List.prefix_refl _)
  have hpointer : w.obj.puserConnResp = true := congrArg (·.puserConnResp) hs.obj
  have hev : w.events = [.call .readResp .noError] := hs.events
  exact absurd (hall w hr ⟨.noError,by simp [hev]⟩).pointer (by simp [hpointer])

end ProxySwiss.ReturnToIdle
