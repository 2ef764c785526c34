import ProxySwiss.OneCall
import ProxySwiss.ClientSocks5Run
import ProxySwiss.ServerSocks5Run
import ProxySwiss.RequestLines
import ProxySwiss.ParserTermination

/-!
# The handler of a user is called once

Each callback of a session starts one operation or calls the handler of its
user, which is set for as long as an operation is outstanding. Entering
`call_and_clear_handler` with an empty handler would end a call without an
answer. Only the parser of the first line of a request may not come back.
-/

set_option autoImplicit false

namespace ProxySwiss.ExactlyOnce
open Memory Text TransitionSystem CallbackObject StreamObject

namespace Client
open ClientSessionSocks5

/-- The call that a callback belongs to. -/
def user : Callback → UserHandler
  | .authWriteReqHandler | .authReadRespHandler | .authWriteCredsHandler
  | .authReadCredsReplyHandler | .connWriteReqHandler => .writeReq
  | .connReadRespHandler | .connReadRespAddrIpv4Handler | .connReadRespAddrDomainnameHandler
  | .connReadRespAddrDomainnameStrHandler | .connReadRespAddrIpv6Handler => .readResp

def Armed (h : UserHandler) (s : Session) : Prop :=
  match h with
  | .writeReq => s.userWriteReqHandler = true
  | .readResp => s.userReadRespHandler = true

def Answer (h : UserHandler) (e : Event) : Prop := ∃ err, e = .call h err

abbrev Comes (h : UserHandler) (r : Effect) : Prop :=
  Outcome (fun k => user k = h) (Armed h) (Answer h) r

theorem call_comes (h : UserHandler) (s : Session) (err : ErrorCode) (hs : Armed h s) :
    Comes h (callAndClearHandler s h err) := by
  cases h with
  | writeReq =>
    rw [ClientSocks5Run.call_writeReq s err hs]
    exact .answer _ _ _ _ _ ⟨err,rfl⟩
  | readResp =>
    rw [ClientSocks5Run.call_readResp s err hs]
    exact .answer _ _ _ _ _ ⟨err,rfl⟩

theorem complete_comes (s : Session) (err : ErrorCode) (hs : Armed .readResp s) :
    Comes .readResp (connReadRespAddrComplete s err) := by
  unfold connReadRespAddrComplete
  split_ifs
  · exact call_comes .readResp s err hs
  · exact call_comes .readResp _ .noError hs
  · -- the pointer is cleared behind the call
    have h := call_comes .readResp { s with connResp := ⟨.succeeded⟩ } .noError hs
    cases h with
    | starts op hst => exact absurd (hst.symm.trans (call_single _ _ _)) (by simp)
    | answers es e hst he hans hn => exact .answers es e hst he hans hn

theorem run_comes (k : Callback) (s : Session) (err : ErrorCode) (hs : Armed (user k) s) :
    Comes (user k) (run k s err) := by
  cases k with
  | authWriteReqHandler =>
    simp only [run, authWriteReqHandler]
    split_ifs
    · exact call_comes .writeReq _ err hs
    · exact .start _ _ _ _ _ hs rfl
  | authReadRespHandler =>
    simp only [run, authReadRespHandler]
    split_ifs
    · exact call_comes .writeReq s err hs
    · exact call_comes .writeReq s _ hs
    · exact call_comes .writeReq s _ hs
    · exact call_comes .writeReq s _ hs
    · exact .start _ _ _ _ _ hs rfl
    · exact call_comes .writeReq s _ hs
    · exact .start _ _ _ _ _ hs rfl
  | authWriteCredsHandler =>
    simp only [run, authWriteCredsHandler]
    split_ifs
    · exact call_comes .writeReq _ err hs
    · exact .start _ _ _ _ _ hs rfl
  | authReadCredsReplyHandler =>
    simp only [run, authReadCredsReplyHandler]
    split_ifs
    · exact call_comes .writeReq s err hs
    · exact call_comes .writeReq s _ hs
    · exact call_comes .writeReq s _ hs
    · exact .start _ _ _ _ _ hs rfl
  | connWriteReqHandler =>
    simp only [run, connWriteReqHandler]
    split_ifs
    · exact call_comes .writeReq _ err hs
    · exact call_comes .writeReq _ .noError hs
  | connReadRespHandler =>
    simp only [run, connReadRespHandler]
    split_ifs
    · exact call_comes .readResp s err hs
    · exact call_comes .readResp s _ hs
    · exact call_comes .readResp s _ hs
    · exact .start _ _ _ _ _ hs rfl
    · exact .start _ _ _ _ _ hs rfl
    · exact .start _ _ _ _ _ hs rfl
    · exact call_comes .readResp s _ hs
  | connReadRespAddrIpv4Handler => exact complete_comes s err hs
  | connReadRespAddrDomainnameHandler =>
    simp only [run, connReadRespAddrDomainnameHandler]
    split_ifs
    · exact call_comes .readResp s err hs
    · exact .start _ _ _ _ _ hs rfl
  | connReadRespAddrDomainnameStrHandler => exact complete_comes s err hs
  | connReadRespAddrIpv6Handler => exact complete_comes s err hs

theorem store_armed (h : UserHandler) (s : Session) (data : Bytes) (k : Callback)
    (hs : Armed h s) : Armed h (store s data k) := by
  cases h <;> cases k <;> exact hs

theorem done_comes (h : UserHandler) (op : Op UInt8 Callback) (res : Result UInt8 ErrorCode)
    (s : Session) (hk : user op.callback = h) (hs : Armed h s) :
    Comes h (client.done op res s) := by
  subst hk
  exact run_comes _ _ _ (store_armed _ _ _ _ hs)

theorem write_comes (s : Session) (dst : Destination) :
    Comes .writeReq (writeConnectRequest s dst) := by
  unfold writeConnectRequest
  split_ifs
  · exact .answer _ _ _ _ _ ⟨_,rfl⟩
  · exact .answer _ _ _ _ _ ⟨_,rfl⟩
  · exact .start _ _ _ _ _ rfl rfl

theorem assert_comes (h : UserHandler) (holds : Bool) (r : Effect) (hr : Comes h r) :
    Comes h (assertThat holds r) := by
  cases holds with
  | true => exact hr
  | false => exact hr.behind _ _ _ r .assertFailed (by simp [Answer])

theorem read_comes (s : Session) : Comes .readResp (readConnectResponse s) :=
  assert_comes _ _ _ (assert_comes _ _ _ (.start _ _ _ _ _ rfl rfl))

end Client

namespace Server
open ServerSessionSocks5

def user : Callback → UserHandler
  | .writeConnectResponseHandler => .writeResp
  | _ => .readReq

def Armed (h : UserHandler) (s : Session) : Prop :=
  match h with
  | .readReq => s.userReadReqHandler = true
  | .writeResp => s.userWriteRespHandler = true

def Answer (h : UserHandler) (e : Event) : Prop := ∃ err, e = .call h err

abbrev Comes (h : UserHandler) (r : Effect) : Prop :=
  Outcome (fun k => user k = h) (Armed h) (Answer h) r

theorem call_comes (h : UserHandler) (s : Session) (err : ErrorCode) (hs : Armed h s) :
    Comes h (callAndClearHandler s h err) := by
  cases h with
  | readReq =>
    rw [ServerSocks5Run.call_readReq s err hs]
    exact .answer _ _ _ _ _ ⟨err,rfl⟩
  | writeResp =>
    rw [ServerSocks5Run.call_writeResp s err hs]
    exact .answer _ _ _ _ _ ⟨err,rfl⟩

theorem assert_comes (h : UserHandler) (holds : Bool) (r : Effect) (hr : Comes h r) :
    Comes h (assertThat holds r) := by
  cases holds with
  | true => exact hr
  | false => exact hr.behind _ _ _ r .assertFailed (by simp [Answer])

theorem deliver_comes (s : Session) (asserted : Bool) (hs : Armed .readReq s) :
    Comes .readReq (deliver s asserted) := by
  rw [deliver, ServerSocks5Run.call_readReq s .noError hs]
  exact assert_comes _ _ _ (.answer _ _ _ _ _ ⟨.noError,rfl⟩)

theorem run_comes (k : Callback) (s : Session) (err : ErrorCode) (hs : Armed (user k) s) :
    Comes (user k) (run k s err) := by
  cases k with
  | authReadReqHandler =>
    simp only [run, authReadReqHandler]
    split_ifs
    · exact call_comes .readReq s err hs
    · exact call_comes .readReq s _ hs
    · exact call_comes .readReq s _ hs
    · exact .start _ _ _ _ _ hs rfl
  | authReadReqMethodsHandler =>
    simp only [run, authReadReqMethodsHandler]
    split_ifs
    · exact call_comes .readReq _ err hs
    · exact .start _ _ _ _ _ hs rfl
    · exact call_comes .readReq _ _ hs
  | authWriteRespHandler =>
    simp only [run, authWriteRespHandler]
    split_ifs
    · exact call_comes .readReq s err hs
    · exact .start _ _ _ _ _ hs rfl
  | connReadReqHandler =>
    simp only [run, connReadReqHandler]
    split_ifs
    · exact call_comes .readReq s err hs
    · exact call_comes .readReq s _ hs
    · exact call_comes .readReq s _ hs
    · exact .start _ _ _ _ _ hs rfl
    · exact .start _ _ _ _ _ hs rfl
    · exact .start _ _ _ _ _ hs rfl
    · exact call_comes .readReq s _ hs
  | connReadReqAddrIpv4Handler =>
    simp only [run, connReadReqAddrIpv4Handler]
    split_ifs
    · exact call_comes .readReq s err hs
    · exact deliver_comes _ _ hs
  | connReadReqAddrDomainnameHandler =>
    simp only [run, connReadReqAddrDomainnameHandler]
    split_ifs
    · exact call_comes .readReq s err hs
    · exact .start _ _ _ _ _ hs rfl
  | connReadReqAddrDomainnameStrHandler =>
    simp only [run, connReadReqAddrDomainnameStrHandler]
    split_ifs
    · exact call_comes .readReq s err hs
    · exact deliver_comes _ _ hs
  | connReadReqAddrIpv6Handler =>
    simp only [run, connReadReqAddrIpv6Handler]
    split_ifs
    · exact call_comes .readReq s err hs
    · exact deliver_comes _ _ hs
  | writeConnectResponseHandler =>
    simp only [run, writeConnectResponseHandler]
    split_ifs
    · exact call_comes .writeResp s err hs
    · exact call_comes .writeResp s .noError hs

theorem store_armed (h : UserHandler) (s : Session) (data : Bytes) (k : Callback)
    (hs : Armed h s) : Armed h (store s data k) := by
  cases h <;> cases k <;> exact hs

theorem done_comes (h : UserHandler) (op : Op UInt8 Callback) (res : Result UInt8 ErrorCode)
    (s : Session) (hk : user op.callback = h) (hs : Armed h s) :
    Comes h (server.done op res s) := by
  subst hk
  exact run_comes _ _ _ (store_armed _ _ _ _ hs)

theorem read_comes (s : Session) : Comes .readReq (readConnectRequest s) :=
  assert_comes _ _ _ (assert_comes _ _ _ (.start _ _ _ _ _ rfl rfl))

theorem write_comes (s : Session) (resp : ConnectResponse) :
    Comes .writeResp (writeConnectResponse s resp) :=
  .start _ _ _ _ _ rfl rfl

end Server

namespace Https
open ServerSessionHttps ServerHttpsRun HttpsReading RequestLines ParserTermination

def Armed (s : Session) : Prop := s.userReadReqHandler = true

def Answer (e : Event) : Prop := ∃ err, e = .call .readReq err

/-- The first line on the stream is one that the parser does not return from. -/
def EndlessRequest (inp : Bytes) : Prop :=
  ∃ l text, ReadLine l ∧ l <+: inp ∧ trimLine l = some text ∧ EndlessLine text

theorem unanswered (es : List Event) (h : ∀ e ∈ es, e = .assertFailed) :
    ∀ e ∈ es, ¬ Answer e := by
  rintro e he ⟨err,rfl⟩
  exact absurd (h _ he) (by simp)

/-- Where the first line has been parsed, the call waits or has been answered. -/
theorem stage_once (fuel : ℕ) (f : Faults) (s : Session) (w : ServerWire) (c : ServerState)
    (hc : Tracks w c) (h : Stage fuel f s c)
    (hret : ∀ l, ReadLine l → w.taken = l → ¬ Parsed fuel s l none) : Once Armed Answer w := by
  cases h with
  | first cur hcur hmax ho h =>
    obtain ⟨moved,ha,-,-,-,hev⟩ := tracks_at_op w c _ _ _ _ hc h
    exact .waits _ moved ha (by rw [hc.obj, ho]; rfl) (by simp [hev])
  | header first p hs cur hp hhs hcur hmax ho h =>
    obtain ⟨moved,ha,-,-,-,hev⟩ := tracks_at_op w c _ _ _ _ hc h
    exact .waits _ moved ha (by rw [hc.obj, ho]; rfl) (hev ▸ unanswered _ (asserts_all p))
  | done first p hs last hp hhs hlast ho hd h =>
    obtain ⟨ha,-,-,hev⟩ := tracks_at_idle w c _ _ _ hc h
    exact .answered _ _ ha hev ⟨.noError,rfl⟩ (unanswered _ (asserts_all p))
  | failed err t es herr why hes ho hd h =>
    obtain ⟨ha,-,-,hev⟩ := tracks_at_idle w c _ _ _ hc h
    exact .answered _ _ ha hev ⟨err,rfl⟩ (unanswered es hes)
  | hung first hl hp ho h =>
    obtain ⟨-,ht,-,-⟩ := tracks_at_idle w c _ _ _ hc h
    exact absurd hp (hret first hl ht)

/-- With enough rounds no line at the start of the stream is left unparsed. -/
theorem first_returns (s : Session) (inp : Bytes) (h : ¬ EndlessRequest inp) :
    ∃ N, ∀ fuel, N ≤ fuel → ∀ l, ReadLine l → l <+: inp → ¬ Parsed fuel s l none := by
  by_cases hl : ∃ l, ReadLine l ∧ l <+: inp
  · obtain ⟨l,hread,hpre⟩ := hl
    obtain ⟨body,rfl,hbody⟩ := hread.line
    obtain ⟨text,htext,-⟩ := trimLine_feed body
    have hno : ¬ EndlessLine text := fun hend => h ⟨_,text,hread,hpre,htext,hend⟩
    obtain ⟨N,hN⟩ := (parseFirstLine_returns text s.parsedDst s.httpVer).mpr hno
    refine ⟨N,fun fuel hfuel l hl hpre' => ?_⟩
    rintro ⟨text',htext',hnone⟩
    obtain rfl := line_agree l _ inp hl.line hread.line hpre' hpre
    obtain rfl := Option.some.inj (htext'.symm.trans htext)
    have hsome := parseFirstLine_mono N fuel _ _ _ hN hfuel
    rw [hnone] at hsome
    exact absurd hsome (by simp)
  · exact ⟨0,fun fuel _ l hread hpre => absurd ⟨l,hread,hpre⟩ hl⟩

theorem read_once (s : Session) (hs : Idle s) (inp : Bytes) (h : ¬ EndlessRequest inp) :
    ∃ N, ∀ fuel, N ≤ fuel → ∀ (f : Faults) w,
      Run (Flow (server fuel) f.may inp) (start s) w → Once Armed Answer w := by
  obtain ⟨N,hN⟩ := first_returns s inp h
  refine ⟨N,fun fuel hfuel f w hr => ?_⟩
  obtain ⟨ht,c,hc,hstage⟩ := run_stage fuel f s hs inp w hr
  exact stage_once fuel f s w c hc hstage fun l hl htk => hN fuel hfuel l hl (htk ▸ ht)

/-- A run in which nothing fails, nothing is outstanding and nobody was called. -/
theorem endless_hangs (fuel : ℕ) (s : Session) (hs : Idle s) (inp : Bytes)
    (h : EndlessRequest inp) : ∃ w, Run (Flow (server fuel) Faults.none.may inp) (start s) w ∧
      w.active = [] ∧ w.events = [] := by
  obtain ⟨l,text,⟨⟨body,rfl,hbody⟩,hshort⟩,hpre,htext,hend⟩ := h
  have hlen : body.length < kMaxLineLen := by
    rw [List.length_append, List.length_singleton] at hshort
    omega
  have hnone : parseFirstLine fuel text s.parsedDst s.httpVer = none := by
    refine Option.not_isSome_iff_eq_none.mp fun hsome => ?_
    exact (parseFirstLine_returns text s.parsedDst s.httpVer).mp ⟨fuel,hsome⟩ hend
  have hd := first_done fuel s body text htext
  simp only [hnone] at hd
  have hread : Reading .handleReadFirstLine (begun s []) [] [] []
      (Conf.begun (readConnectRequest s)) := by
    rw [begun_eq s hs]
    exact ⟨rfl,at_begun _⟩
  obtain ⟨c,hc,-,hat⟩ := line_fed fuel _ (begun s []) [] body [] _ _ hread hbody hlen hd
  obtain ⟨w,hr,ha,-,he,-⟩ := (fed_inevitable fuel s inp _ c _ hc hat hpre).reached
  exact ⟨w,hr,ha,he⟩

end Https

/-- On every run of a call its handler is called once, when nothing is
outstanding any more. A call of the HTTPS server is given enough rounds. -/
structure CalledOnce (inp : Bytes) : Prop where
  writeConnectRequest : ∀ (f : Faults) s dst w, Run (Flow ClientSessionSocks5.client f.may inp)
    (Wire.begun (ClientSessionSocks5.writeConnectRequest s dst)) w →
      Once (Client.Armed .writeReq) (Client.Answer .writeReq) w
  readConnectResponse : ∀ (f : Faults) s w, Run (Flow ClientSessionSocks5.client f.may inp)
    (Wire.begun (ClientSessionSocks5.readConnectResponse s)) w →
      Once (Client.Armed .readResp) (Client.Answer .readResp) w
  readConnectRequest : ∀ (f : Faults) s w, Run (Flow ServerSessionSocks5.server f.may inp)
    (Wire.begun (ServerSessionSocks5.readConnectRequest s)) w →
      Once (Server.Armed .readReq) (Server.Answer .readReq) w
  writeConnectResponse : ∀ (f : Faults) s resp w, Run (Flow ServerSessionSocks5.server f.may inp)
    (Wire.begun (ServerSessionSocks5.writeConnectResponse s resp)) w →
      Once (Server.Armed .writeResp) (Server.Answer .writeResp) w
  httpsReadConnectRequest : ∀ s, ServerHttpsRun.Idle s → ∃ N, ∀ fuel, N ≤ fuel →
    ∀ (f : Faults) w, Run (Flow (ServerSessionHttps.server fuel) f.may inp)
      (Wire.begun (ServerSessionHttps.readConnectRequest s)) w → Once Https.Armed Https.Answer w

theorem hung_call (inp : Bytes) (h : Https.EndlessRequest inp) : ¬ CalledOnce inp := by
  intro hc
  obtain ⟨N,hN⟩ := hc.httpsReadConnectRequest {} ⟨rfl,rfl⟩
  obtain ⟨w,hr,ha,he⟩ := Https.endless_hangs N {} ⟨rfl,rfl⟩ inp h
  cases hN N (Nat.le_refl N) Faults.none w hr with
  | waits op moved hact => exact absurd (ha.symm.trans hact) (by simp)
  | answered es e _ hev => exact absurd (he.symm.trans hev) (by simp)

/-- The handler of each call is called exactly once, unless the first line of a
request to the HTTPS server is one that the parser does not return from. -/
theorem exactly_once (inp : Bytes) : CalledOnce inp ↔ ¬ Https.EndlessRequest inp := by
  constructor
  · exact fun h hend => hung_call inp hend h
  · intro h
    constructor
    · exact fun f s dst w hr =>
        once_run _ _ _ _ _ _ (Client.done_comes .writeReq) _ (Client.write_comes s dst) w hr
    · exact fun f s w hr =>
        once_run _ _ _ _ _ _ (Client.done_comes .readResp) _ (Client.read_comes s) w hr
    · exact fun f s w hr =>
        once_run _ _ _ _ _ _ (Server.done_comes .readReq) _ (Server.read_comes s) w hr
    · exact fun f s resp w hr =>
        once_run _ _ _ _ _ _ (Server.done_comes .writeResp) _ (Server.write_comes s resp) w hr
    · exact fun s hs => Https.read_once s hs inp h

/-- One line with a scope identifier leaves its call without an answer. -/
theorem scope_unanswered : ¬ CalledOnce (ascii "CONNECT [::1%1]:80 HTTP/1.1\n") := by
  refine hung_call _ ⟨_,ascii "CONNECT [::1%1]:80 HTTP/1.1",
    ⟨⟨ascii "CONNECT [::1%1]:80 HTTP/1.1",rfl,by decide⟩,by decide⟩,List.prefix_refl _,rfl,
    ascii "[::1%1]:80",ascii "HTTP/1.1",by decide,by decide,ascii "::1%1",by decide,?_⟩
  exact ParserTermination.loopback_scoped

end ProxySwiss.ExactlyOnce
