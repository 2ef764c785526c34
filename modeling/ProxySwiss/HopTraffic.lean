import ProxySwiss.ReplyTraffic

/-!
# The traffic of the chain

Each hop uses the output socket behind the hops before it. The session goes
along with a run of the hop by itself, which tells the hop what it has to be
told, and the next hop begins when that run has been let through.
-/

set_option autoImplicit false

namespace ProxySwiss.HopTraffic
open Memory CallbackObject StreamObject StreamLedger Ownership Socks5 SessionLife SessionOwners
  HopOwners HopReturns SessionTraffic RequestTraffic ReplyTraffic
open SessionTunnel (Side)
open ChainWalk (hops target)
open ChainDialogue (Spoken hopCreds hopSession)
open ClientSocks5Run (ClientState)
open ClientSessionSocks5 (Callback client)

/-! The hop on its own. -/

theorem client_code (k : Callback) (s : ClientSessionSocks5.Session) (err : ErrorCode)
    (h : ¬ err.failed) :
    ClientSessionSocks5.run k s err = ClientSessionSocks5.run k s .noError := by
  cases k <;> simp [ClientSessionSocks5.run, ClientSessionSocks5.authWriteReqHandler,
    ClientSessionSocks5.authReadRespHandler, ClientSessionSocks5.authWriteCredsHandler,
    ClientSessionSocks5.authReadCredsReplyHandler, ClientSessionSocks5.connWriteReqHandler,
    ClientSessionSocks5.connReadRespHandler, ClientSessionSocks5.connReadRespAddrIpv4Handler,
    ClientSessionSocks5.connReadRespAddrDomainnameHandler,
    ClientSessionSocks5.connReadRespAddrDomainnameStrHandler,
    ClientSessionSocks5.connReadRespAddrIpv6Handler,
    ClientSessionSocks5.connReadRespAddrComplete, h]

theorem client_done (op : StreamObject.Op UInt8 Callback) (s : ClientSessionSocks5.Session)
    (res : Completion) : client.done op (outcome res) s =
      ClientSessionSocks5.run op.callback (ClientSessionSocks5.store s res.data op.callback)
        res.err := by
  change ClientSessionSocks5.run _ (ClientSessionSocks5.store s (outcome res).data _) _ = _
  rw [outcome_data, outcome_code]
  split_ifs with he
  · rfl
  · exact (client_code _ _ _ he).symm

/-- How far a callback is from the end of the dialogue. -/
def rank : Callback → ℕ
  | .authWriteReqHandler => 9
  | .authReadRespHandler => 8
  | .authWriteCredsHandler => 7
  | .authReadCredsReplyHandler => 6
  | .connWriteReqHandler => 5
  | .connReadRespHandler => 4
  | .connReadRespAddrDomainnameHandler => 3
  | .connReadRespAddrIpv4Handler | .connReadRespAddrDomainnameStrHandler
  | .connReadRespAddrIpv6Handler => 2

/-- Every callback of the hop leads on. -/
theorem run_rank (k : Callback) (s : ClientSessionSocks5.Session) (err : ErrorCode)
    (op : StreamObject.Op UInt8 Callback)
    (h : op ∈ started (ClientSessionSocks5.run k s err).2) : rank op.callback < rank k := by
  have hcall : ∀ (t : ClientSessionSocks5.Session) (u : ClientSessionSocks5.UserHandler)
      (e : ErrorCode), op ∉ started (ClientSessionSocks5.callAndClearHandler t u e).2 := by
    intro t u e hop
    rw [ClientSessionSocks5.call_single] at hop
    exact absurd hop List.not_mem_nil
  revert h
  cases k <;>
    simp only [ClientSessionSocks5.run, ClientSessionSocks5.authWriteReqHandler,
      ClientSessionSocks5.authReadRespHandler, ClientSessionSocks5.authWriteCredsHandler,
      ClientSessionSocks5.authReadCredsReplyHandler, ClientSessionSocks5.connWriteReqHandler,
      ClientSessionSocks5.connReadRespHandler, ClientSessionSocks5.connReadRespAddrIpv4Handler,
      ClientSessionSocks5.connReadRespAddrDomainnameHandler,
      ClientSessionSocks5.connReadRespAddrDomainnameStrHandler,
      ClientSessionSocks5.connReadRespAddrIpv6Handler,
      ClientSessionSocks5.connReadRespAddrComplete] <;>
    split_ifs <;> intro h <;> first
      | exact absurd h (hcall _ _ _)
      | (rw [List.mem_singleton.mp h]; exact Nat.le_of_ble_eq_true rfl)

/-- Only the last callback of the request reports it as written. -/
theorem written_last (k : Callback) (s : ClientSessionSocks5.Session) (err : ErrorCode)
    (h : .call .writeReq .noError ∈ emitted (ClientSessionSocks5.run k s err).2) :
    k = .connWriteReqHandler := by
  have hread : ∀ (x : ClientSessionSocks5.Session) (e : ErrorCode), .call .writeReq .noError ∉
      emitted (ClientSessionSocks5.callAndClearHandler x .readResp e).2 := by
    intro x e
    unfold ClientSessionSocks5.callAndClearHandler
    split_ifs <;> simp
  have hfail : ∀ (x : ClientSessionSocks5.Session) (e : ErrorCode), e.failed →
      .call .writeReq .noError ∉
        emitted (ClientSessionSocks5.callAndClearHandler x .writeReq e).2 := by
    intro x e he
    have hne : ErrorCode.noError ≠ e := fun h0 => ErrorCode.noError_failed (h0 ▸ he)
    unfold ClientSessionSocks5.callAndClearHandler
    split_ifs <;> simp [hne]
  revert h
  cases k <;>
    simp only [ClientSessionSocks5.run, ClientSessionSocks5.authWriteReqHandler,
      ClientSessionSocks5.authReadRespHandler, ClientSessionSocks5.authWriteCredsHandler,
      ClientSessionSocks5.authReadCredsReplyHandler, ClientSessionSocks5.connReadRespHandler,
      ClientSessionSocks5.connReadRespAddrIpv4Handler,
      ClientSessionSocks5.connReadRespAddrDomainnameHandler,
      ClientSessionSocks5.connReadRespAddrDomainnameStrHandler,
      ClientSessionSocks5.connReadRespAddrIpv6Handler,
      ClientSessionSocks5.connReadRespAddrComplete]
  case connWriteReqHandler => exact fun _ => trivial
  all_goals
    split_ifs <;> intro h <;> first
      | exact absurd h (hread _ _)
      | exact absurd h (hfail _ _ (makeErrorCode_failed _))
      | exact absurd h (hfail _ _ (by assumption))
      | exact absurd h List.not_mem_nil

/-- What the hop has done when it calls its user. -/
inductive Reports (creds : Credentials) (dst : Destination) (d : ClientState) :
    ClientSessionSocks5.Event → Prop
  | written (hr : d.obj.userReadRespHandler = false ∧ d.obj.puserConnResp = false)
      (h : At d [] (authAnswer creds) (preamble creds ++ connectRequest dst)
        [.call .writeReq .noError]) : Reports creds dst d (.call .writeReq .noError)
  | refused (err : ErrorCode) (herr : err.failed)
      (hs : StreamObject.sent d <+: preamble creds ++ connectRequest dst) :
      Reports creds dst d (.call .writeReq err)
  | answered (rep : UInt8) (m : Bytes) (hm : Reply rep m)
      (hresp : d.obj.connResp = ⟨ClientSessionSocks5.socks5RepToMajorCode rep⟩)
      (ht : StreamObject.taken d = authAnswer creds ++ m)
      (hs : StreamObject.sent d = preamble creds ++ connectRequest dst) :
      Reports creds dst d (.call .readResp .noError)
  | failed (err : ErrorCode) (herr : err.failed)
      (hs : StreamObject.sent d = preamble creds ++ connectRequest dst) :
      Reports creds dst d (.call .readResp err)

theorem phase_reports (creds : Credentials) (dst : Destination) (old : ConnectResponse)
    (d : ClientState) (e : ClientSessionSocks5.Event)
    (h : ClientSocks5Run.Phase .any creds dst old d) (hp : d.pending = [])
    (he : d.events.getLast? = some e) : Reports creds dst d e := by
  cases h with
  | asking h =>
    cases h with
    | written hr hresp hat =>
      obtain rfl : .call .writeReq .noError = e := by simpa [hat.events] using he
      exact .written hr hat
    | refused err t u herr ho hresp why hat =>
      obtain rfl : .call .writeReq err = e := by simpa [hat.events] using he
      exact .refused err herr (hat.sent ▸ ClientSocks5Run.ordered_script creds dst t u ho)
    | greet hw hat | method hw hat | credentials hc hw hat | status hc hw hat | request hw hat =>
      exact absurd (hat.pending.symm.trans hp) (by simp)
  | reading h =>
    cases h with
    | answered rep m hm hresp hat =>
      obtain rfl : .call .readResp .noError = e := by simpa [hat.events] using he
      exact .answered rep m hm hresp hat.taken hat.sent
    | failed err t herr hresp why hat =>
      obtain rfl : .call .readResp err = e := by simpa [hat.events] using he
      exact .failed err herr hat.sent
    | header hr hat | length rep rsv hrep hr hh hat
    | address rep rsv atyp pre n k hrep hk hf hr hh hat =>
      exact absurd (hat.pending.symm.trans hp) (by simp)

theorem asked_none (cfg : OutputConfig) (dst : Destination) : Asked cfg dst 0 :=
  fun j hj => absurd hj (Nat.not_lt_zero j)

theorem cleared_scripted (cfg : OutputConfig) (dst : Destination) (i : ℕ) (taken sent : Bytes)
    (h : Cleared cfg dst i taken sent) (hi : i ≤ hops cfg) : Scripted cfg dst sent :=
  ⟨i,hi,h.asked,h.sent ▸ List.prefix_refl _⟩

/-! The hop in the session. -/

theorem setHop_hop (w : World) (i : ℕ) (s : ClientSessionSocks5.Session)
    (h : i < w.sess.output.chain.length) : (w.setHop i s).hop i = s := by
  have hget : (w.sess.output.chain.set i s).getD i {} = s := by
    rw [List.getD_eq_getElem?_getD, List.getElem?_set_self h]
    rfl
  change { (w.sess.output.chain.set i s).getD i {} with connResp := s.connResp } = s
  rw [hget]

theorem setHop_other (w : World) (i j : ℕ) (s : ClientSessionSocks5.Session) (h : j ≠ i) :
    (w.setHop i s).sess.output.chain.getD j {} = w.sess.output.chain.getD j {} := by
  change (w.sess.output.chain.set i s).getD j {} = _
  rw [List.getD_eq_getElem?_getD, List.getD_eq_getElem?_getD, List.getElem?_set_ne (Ne.symm h)]

/-- The hops from `i` on are as they were created. -/
def Untouched (cfg : OutputConfig) (i : ℕ) (w : World) : Prop :=
  ∀ j, i ≤ j → w.sess.output.chain.getD j {} = hopSession cfg j

theorem untouched_set (cfg : OutputConfig) (i k : ℕ) (w : World) (s : ClientSessionSocks5.Session)
    (h : Untouched cfg k w) (hi : i < k) : Untouched cfg k (w.setHop i s) := fun j hj =>
  (setHop_other w i j s (by omega)).trans (h j hj)

/-- The session waits for the hop at its position, which goes along with a run of
its own that began behind `base`. -/
structure Hopping (fuel : ℕ) (cfg : Config) (w : World) (l : Traffic) (dst : Destination)
    (asked answered : Bytes) (response : ConnectResponse → Bytes) (i index : ℕ) (base : Bytes)
    (old : ConnectResponse) (c : ClientState) (op : StreamObject.Op UInt8 Callback) : Prop where
  walking : Walking cfg false dst i { w with pending := [] }
  lower : i < hops cfg.output
  requests : Asked cfg.output dst (i+1)
  ahead : Untouched cfg.output (i+1) w
  obj : w.hop i = c.obj
  talks : ClientSocks5Run.Phase .any (hopCreds cfg.output i) (target cfg.output dst i) old c
  pending : c.pending = [op]
  waits : w.pending = [.hop i index op]
  spoken : Spoken cfg.output i base
  carries : Carries l .output base (script cfg.output dst i) c
  understood : Understood fuel cfg w l dst asked answered response

/-- How many callbacks of the chain can follow, at most. -/
def remaining (cfg : OutputConfig) (i : ℕ) (k : Callback) : ℕ := 10*(hops cfg-i)+rank k

/-- The session is nearer to its response than `n`. -/
inductive Onward (fuel : ℕ) (cfg : Config) (w : World) (l : Traffic) (dst : Destination)
    (asked answered : Bytes) (response : ConnectResponse → Bytes) (i n : ℕ) : Prop
  | hopping (index : ℕ) (base : Bytes) (old : ConnectResponse) (c : ClientState)
      (op : StreamObject.Op UInt8 Callback)
      (h : Hopping fuel cfg w l dst asked answered response i index base old c op)
      (hn : remaining cfg.output i op.callback < n)
  | replied (h : Replied fuel cfg w l)

theorem understood_frame (fuel : ℕ) (cfg : Config) (v w : World) (l : Traffic)
    (dst : Destination) (asked answered : Bytes) (response : ConnectResponse → Bytes)
    (h : Understood fuel cfg v l dst asked answered response) (hs : w.srvSess = v.srvSess) :
    Understood fuel cfg w l dst asked answered response :=
  ⟨h.requested,answering_frame v w response h.answering hs,h.taken,h.sent⟩

section AddressText

variable (addressText : Address → Bytes) (fuel : ℕ) (cfg : Config) (l : Traffic)
  (dst : Destination) (asked answered : Bytes) (response : ConnectResponse → Bytes)

/-- The chain has failed, and the handler is called with what has come of it. -/
theorem fails_replies (cr : Output.ConnectResult) (i : ℕ) (m : Life)
    (hw : Walking cfg false dst i m.state)
    (hu : Understood fuel cfg m.state l dst asked answered response)
    (hcr : cr.success = false) (hno : ¬ cr.err.failed → cr.connResp.major ≠ .succeeded)
    (ht : Scripted cfg.output dst (l.sent .output)) :
    Held.Brings (callAndClearHandler addressText cr) m fun w => Replied fuel cfg w l := by
  refine called_replies addressText fuel cfg l dst asked answered response cr m hw.wired hw.idle
    hw.standing.handler (fun _ => hno) hu.answering ⟨hu.requested,hu.taken,ht,fun hr => ?_⟩
    hu.sent
  have hsucc := (reply_succeeds cr fun _ => hno).mpr hr
  exact absurd (hcr.symm.trans hsucc) (by simp)

/-- The last hop has let the session through. -/
theorem arrives_replies (m : Life) (hw : Walking cfg false dst (hops cfg.output) m.state)
    (hu : Understood fuel cfg m.state l dst asked answered response)
    (hc : Cleared cfg.output dst (hops cfg.output) (l.taken .output) (l.sent .output)) :
    Held.Brings (callAndClearHandler addressText { success := true }) m
      fun w => Replied fuel cfg w l := by
  refine called_replies addressText fuel cfg l dst asked answered response { success := true } m
    hw.wired hw.idle hw.standing.handler (fun h => absurd h (by simp)) hu.answering
    ⟨hu.requested,hu.taken,cleared_scripted _ _ _ _ _ hc (Nat.le_refl _),fun _ => hc⟩ hu.sent

/-- The next hop is asked, unless what it is asked for is too long. -/
theorem request_goes (i index n : ℕ) (m : Life) (hw : Walking cfg false dst i m.state)
    (hi : i < hops cfg.output) (hn : remaining cfg.output i .authWriteReqHandler < n)
    (hahead : Untouched cfg.output i m.state)
    (hu : Understood fuel cfg m.state l dst asked answered response)
    (hc : Cleared cfg.output dst i (l.taken .output) (l.sent .output)) :
    Held.Brings (writeConnectRequest addressText i (target cfg.output dst i) index) m
      fun w => Onward fuel cfg w l dst asked answered response i n := by
  have hlen : i < m.state.sess.output.chain.length := by rw [hw.standing.chain]; exact hi
  have hcreds : (m.state.hop i).creds = hopCreds cfg.output i := hw.creds i
  have hhop : m.state.hop i = { hopSession cfg.output i with
      connResp := m.state.sess.output.connResp } := by
    rw [World.hop, hahead i (Nat.le_refl i)]
  have hidle : ClientSocks5Run.Idle (m.state.hop i) := by
    have h := ChainDialogue.hopSession_idle cfg.output i
    rw [hhop]
    exact ⟨h.writer,h.reader,h.pointer⟩
  by_cases hacc : Accepted (hopCreds cfg.output i) (target cfg.output dst i)
  · obtain ⟨t,htc,-,hr⟩ := write_accepted (m.state.hop i) (target cfg.output dst i) (hcreds ▸ hacc)
    have hasking := ClientSocks5Run.asking_begun .any (m.state.hop i) hidle
      (target cfg.output dst i)
    rw [hr, hcreds] at hasking
    rw [hcreds] at hr
    have hwalk := hop_walking cfg false dst i i _ t hw (htc.trans hcreds)
    let op : StreamObject.Op UInt8 Callback :=
      .write (greeting (hopCreds cfg.output i)) .authWriteReqHandler
    refine ⟨(m.state.setHop i t).start (.hop i index op),by rw [writeConnectRequest, hr]; rfl,
      .hopping index (l.taken .output) (m.state.hop i).connResp (Conf.begun (t,[.start op])) op
        ⟨walking_idle cfg false dst i (m.state.setHop i t) hwalk,hi,
          asked_next _ _ _ hc.asked hacc,?_,setHop_hop m.state i t hlen,.asking hasking,rfl,
          ?_,hc.spoken,?_,
          understood_frame fuel cfg m.state _ l dst asked answered response hu rfl⟩ hn⟩
    · exact untouched_set cfg.output i (i+1) m.state t (fun j hj => hahead j (by omega))
        (Nat.lt_succ_self i)
    · change m.state.pending ++ [_] = _
      rw [hw.idle]
      rfl
    · rw [← hc.sent]
      exact carries_begun l .output _
  · obtain ⟨e,he,hr⟩ := write_refused (m.state.hop i) (target cfg.output dst i) (hcreds ▸ hacc)
    have hwalk := hop_walking cfg false dst i i _ (m.state.hop i) hw hcreds
    refine ((fails_replies addressText fuel cfg l dst asked answered response ⟨false,e,index,{}⟩ i
      (m.modify (·.setHop i (m.state.hop i))) hwalk
      (understood_frame fuel cfg m.state _ l dst asked answered response hu rfl) rfl
      (fun hno => absurd he hno) (cleared_scripted _ _ _ _ _ hc (Nat.le_of_lt hi))).mono
      fun _ => .replied).after _ ?_
    rw [writeConnectRequest, hr]
    exact if_pos he

theorem next_goes (i index n : ℕ) (err : ErrorCode) (m : Life)
    (hw : Walking cfg false dst i m.state) (hi : i ≤ hops cfg.output)
    (hn : i < hops cfg.output → remaining cfg.output i .authWriteReqHandler < n)
    (hahead : Untouched cfg.output i m.state)
    (hu : Understood fuel cfg m.state l dst asked answered response)
    (hc : Cleared cfg.output dst i (l.taken .output) (l.sent .output)) :
    Held.Brings (connectNext addressText err index) m
      fun w => Onward fuel cfg w l dst asked answered response i n := by
  by_cases he : err.failed
  · refine ((fails_replies addressText fuel cfg l dst asked answered response ⟨false,err,index,{}⟩
      i m hw hu rfl (fun hno => absurd he hno) (cleared_scripted _ _ _ _ _ hc hi)).mono
      fun _ => .replied).of_eq (if_pos he)
  · have heq := connectNext_eq addressText cfg false dst i index err m hw he hi
    by_cases hlast : i = hops cfg.output
    · subst hlast
      exact ((arrives_replies addressText fuel cfg l dst asked answered response m hw hu
        hc).mono fun _ => .replied).of_eq (heq.trans (if_pos rfl))
    · have hlt := Nat.lt_of_le_of_ne hi hlast
      exact (request_goes addressText fuel cfg l dst asked answered response i index n m hw hlt
        (hn hlt) hahead hu hc).of_eq (heq.trans (if_neg hlast))

theorem next_remaining (i n : ℕ) (hn : 10*(hops cfg.output-i) ≤ n) :
    i+1 < hops cfg.output → remaining cfg.output (i+1) .authWriteReqHandler < n := by
  intro hnext
  rw [remaining, rank]
  omega

/-! What the output does when a hop calls it. -/

section Report

variable (i index n : ℕ) (base : Bytes) (d : ClientState) (m : Life)

/-- A request that was written is followed by the response to it. -/
theorem written_goes (hw : Walking cfg false dst i m.state) (hi : i < hops cfg.output)
    (hn : remaining cfg.output i .connReadRespHandler < n)
    (hasked : Asked cfg.output dst (i+1))
    (hahead : Untouched cfg.output (i+1) m.state) (hobj : m.state.hop i = d.obj)
    (hu : Understood fuel cfg m.state l dst asked answered response)
    (hsp : Spoken cfg.output i base)
    (hl : Carries l .output base (script cfg.output dst i) d)
    (hr : d.obj.userReadRespHandler = false ∧ d.obj.puserConnResp = false)
    (hat : At d [] (authAnswer (hopCreds cfg.output i))
      (preamble (hopCreds cfg.output i) ++ connectRequest (target cfg.output dst i))
      [.call .writeReq .noError]) :
    Held.Brings (readConnectResponse i index) m
      fun w => Onward fuel cfg w l dst asked answered response i n := by
  have hread := ClientSocks5Run.readConnectResponse_eq d.obj hr.1 hr.2
  have hreading := ClientSocks5Run.reading_invoke .any _ _ _ d hr.1 hr.2 hat
  have hlen : i < m.state.sess.output.chain.length := by rw [hw.standing.chain]; exact hi
  let s : ClientSessionSocks5.Session :=
    { d.obj with puserConnResp := true, userReadRespHandler := true }
  have hcreds : s.creds = hopCreds cfg.output i :=
    (congrArg ClientSessionSocks5.Session.creds hobj).symm.trans (hw.creds i)
  have hwalk := hop_walking cfg false dst i i _ s hw hcreds
  refine ⟨(m.state.setHop i s).start (.hop i index (.read 4 .connReadRespHandler)),?_,
    .hopping index base d.obj.connResp (d.invoke (ClientSessionSocks5.readConnectResponse d.obj))
      (.read 4 .connReadRespHandler) ⟨walking_idle cfg false dst i (m.state.setHop i s) hwalk,hi,
        hasked,untouched_set cfg.output i (i+1) m.state s hahead (Nat.lt_succ_self i),?_,
        .reading hreading,?_,?_,hsp,carries_invoke l .output base _ d _ hl,
        understood_frame fuel cfg m.state _ l dst asked answered response hu rfl⟩ hn⟩
  · rw [SessionLife.readConnectResponse, hobj, hread]
    rfl
  · rw [hread]
    exact setHop_hop m.state i s hlen
  · rw [hread]
    change d.pending ++ [_] = _
    rw [hat.pending]
    rfl
  · change m.state.pending ++ [_] = _
    rw [hw.idle]
    rfl

/-- A success is a complete reply, and the request was written before it. -/
theorem granted_cleared (err : ErrorCode) (hasked : Asked cfg.output dst (i+1))
    (hsp : Spoken cfg.output i base)
    (hl : Carries l .output base (script cfg.output dst i) d) (he : ¬ err.failed)
    (hgot : d.obj.connResp = ⟨.succeeded⟩)
    (hrep : Reports (hopCreds cfg.output i) (target cfg.output dst i) d (.call .readResp err)) :
    Cleared cfg.output dst (i+1) (l.taken .output) (l.sent .output) := by
  cases hrep with
  | failed err herr hs => exact absurd herr he
  | answered rep reply hm hresp ht hs =>
    have hrep : rep = 0 := (ClientSocks5Soundness.socks5RepToMajorCode_succeeded rep).mp
      (congrArg ConnectResponse.major (hresp.symm.trans hgot))
    subst hrep
    refine ⟨hasked,?_,?_⟩
    · rw [hl.taken, ht]
      exact .hop i base reply hsp hm
    · rw [hl.sent, hs]
      rfl

/-- Whatever the hop reports, the next hop is asked or the client is told. -/
theorem report_goes (h : ClientSessionSocks5.UserHandler) (err : ErrorCode)
    (hw : Walking cfg false dst i m.state) (hi : i < hops cfg.output)
    (hn : 10*(hops cfg.output-i) ≤ n)
    (hlast : h = .writeReq → err = .noError → remaining cfg.output i .connReadRespHandler < n)
    (hasked : Asked cfg.output dst (i+1))
    (hahead : Untouched cfg.output (i+1) m.state) (hobj : m.state.hop i = d.obj)
    (hu : Understood fuel cfg m.state l dst asked answered response)
    (hsp : Spoken cfg.output i base)
    (hl : Carries l .output base (script cfg.output dst i) d)
    (hrep : Reports (hopCreds cfg.output i) (target cfg.output dst i) d (.call h err)) :
    Held.Brings (callOutput addressText index h err) m
      fun w => ∃ j, Onward fuel cfg w l dst asked answered response j n := by
  have hfails : ∀ cr : Output.ConnectResult, cr.success = false →
      (¬ cr.err.failed → cr.connResp.major ≠ .succeeded) →
      StreamObject.sent d <+: preamble (hopCreds cfg.output i) ++
        connectRequest (target cfg.output dst i) →
      Held.Brings (callAndClearHandler addressText cr) m
        fun w => ∃ j, Onward fuel cfg w l dst asked answered response j n := by
    intro cr hcr hno ht
    refine (fails_replies addressText fuel cfg l dst asked answered response cr i m hw hu hcr hno
      ⟨i+1,hi,hasked,?_⟩).mono fun _ hr => ⟨i,.replied hr⟩
    rw [hl.sent]
    exact (List.prefix_append_right_inj _).mpr ht
  have hresp : m.state.sess.output.connResp = d.obj.connResp :=
    congrArg ClientSessionSocks5.Session.connResp hobj
  have hreport := hrep
  cases hrep with
  | written hr hat =>
    refine ((written_goes fuel cfg l dst asked answered response i index n base d m hw hi
      (hlast rfl rfl) hasked hahead hobj hu hsp hl hr hat).mono fun _ h => ⟨i,h⟩).of_eq ?_
    rw [callOutput, handleWriteConnectRequest, if_neg ErrorCode.noError_failed,
      hw.standing.position]
  | refused err herr hs =>
    exact (hfails ⟨false,err,index,{}⟩ rfl (fun hno => absurd herr hno) hs).of_eq (if_pos herr)
  | failed err herr hs =>
    exact (hfails ⟨false,err,index,{}⟩ rfl (fun hno => absurd herr hno)
      (hs ▸ List.prefix_refl _)).of_eq (if_pos herr)
  | answered rep reply hm hgot ht hs =>
    by_cases hmajor : d.obj.connResp.major = .succeeded
    · have hc := granted_cleared cfg l dst i base d .noError hasked hsp hl
        ErrorCode.noError_failed (congrArg ConnectResponse.mk hmajor) hreport
      exact ((next_goes addressText fuel cfg l dst asked answered response (i+1)
        ((index+1) % 2^64) n .noError (m.modify behind)
        (behind_walking cfg false dst i m.state hw hi) hi (next_remaining cfg i n hn) hahead
        (understood_frame fuel cfg m.state _ l dst asked answered response hu rfl) hc).mono
        fun _ h => ⟨i+1,h⟩).after behind
          (responded_eq addressText index m (hresp ▸ hmajor))
    · refine (hfails ⟨false,.noError,index,m.state.sess.output.connResp⟩ rfl
        (fun _ => hresp ▸ hmajor) (hs ▸ List.prefix_refl _)).of_eq ?_
      have hno : m.state.sess.output.connResp.major ≠ .succeeded := hresp ▸ hmajor
      rw [callOutput, handleReadConnectResponse, if_neg ErrorCode.noError_failed, if_pos hno]

end Report

/-! What is left of a callback behind the call. -/

theorem clear_hopping (i j index : ℕ) (base : Bytes) (old : ConnectResponse) (c : ClientState)
    (op : StreamObject.Op UInt8 Callback) (w : World) (hij : i < j)
    (h : Hopping fuel cfg w l dst asked answered response j index base old c op) :
    Hopping fuel cfg (clearHop i w) l dst asked answered response j index base old c op := by
  refine ⟨hop_walking cfg false dst j i _ _ h.walking (h.walking.creds i),h.lower,h.requests,
    untouched_set cfg.output i (j+1) w _ h.ahead (by omega),?_,h.talks,h.pending,h.waits,h.spoken,
    h.carries,understood_frame fuel cfg w _ l dst asked answered response h.understood rfl⟩
  rw [← h.obj, World.hop, World.hop, clearHop, setHop_other w i j _ (Nat.ne_of_gt hij)]
  rfl

theorem clear_settled (i : ℕ) (w : World) (h : Settled fuel cfg w l) :
    Settled fuel cfg (clearHop i w) l := by
  cases h with
  | tunnelled dst asked answered heard told response read written h =>
    exact .tunnelled dst asked answered heard told response read written
      ⟨wired_sess cfg false _ _ h.wired rfl,h.handlers,h.handler,h.requested,h.cleared,
        h.flows.tunnels,h.flows.taken,h.flows.sent,fun src =>
          flow_frame w _ src _ _ (h.flows.flow src) rfl (by cases src <;> rfl) id⟩
  | ended dst asked answered told response r h =>
    exact .ended dst asked answered told response r
      ⟨⟨wired_sess cfg false _ _ h.gone.wired rfl,h.gone.idle,h.gone.handlers,h.gone.handler⟩,
        h.concluded,h.sent,h.told⟩

theorem clear_replied (i : ℕ) (w : World) (h : Replied fuel cfg w l) :
    Replied fuel cfg (clearHop i w) l := by
  cases h with
  | replying dst asked answered response r h =>
    refine .replying dst asked answered response r
      ⟨wired_sess cfg false _ _ h.wired rfl,h.handler,h.success,h.concluded,?_,h.sent⟩
    cases h.writing with
    | socks5 s hs hread hwrite hp => exact .socks5 s hs hread hwrite hp
    | https s hs hread hp => exact .https s hs hread hp
  | settled h => exact .settled (clear_settled fuel cfg l i w h)

theorem clear_onward (i n : ℕ) (w : World)
    (h : Onward fuel cfg w l dst asked answered response (i+1) n) :
    ∃ j, Onward fuel cfg (clearHop i w) l dst asked answered response j n := by
  cases h with
  | hopping index base old c op h hn =>
    exact ⟨i+1,.hopping index base old c op (clear_hopping fuel cfg l dst asked answered response i
      (i+1) index base old c op w (Nat.lt_succ_self i) h) hn⟩
  | replied h => exact ⟨i,.replied (clear_replied fuel cfg l i w h)⟩

/-- One operation of a hop. -/
theorem hop_goes (i index : ℕ) (base : Bytes) (old : ConnectResponse) (c : ClientState)
    (op : StreamObject.Op UInt8 Callback) (res : Completion) (w : World) (m : Life)
    (h : Hopping fuel cfg w l dst asked answered response i index base old c op)
    (hm : m.state = { w with pending := [] }) (ha : SessionLife.Allowed res (.hop i index op)) :
    Held.Leaves (hopDone addressText i index op res) m fun v => ∃ j, Onward fuel cfg v
      (l.move .output op res.data) dst asked answered response j
        (remaining cfg.output i op.callback) := by
  have hall := outcome_allowed op res ha
  have hhop : m.state.hop i = c.obj := by rw [hm]; exact h.obj
  have hw : Walking cfg false dst i m.state := hm ▸ h.walking
  have hlen : i < m.state.sess.output.chain.length := by rw [hw.standing.chain]; exact h.lower
  set x := ClientSessionSocks5.store c.obj res.data op.callback
  have hx : received m.state i op res = x := by rw [received, hhop]
  set d := c.next client [] [] op (outcome res)
  have hrun : client.done op (outcome res) c.obj =
      ClientSessionSocks5.run op.callback x res.err := client_done op _ res
  have hphase : ClientSocks5Run.Phase .any (hopCreds cfg.output i) (target cfg.output dst i)
      old d := ClientSocks5Run.phase_next .any _ _ old
      (h.requests i (Nat.lt_succ_self i)) c op _ h.talks h.pending hall
  have hl : Carries (l.move .output op res.data) .output base (script cfg.output dst i) d := by
    rw [← outcome_data res]
    exact carries_next client l .output base _ c op (outcome res) h.carries
  have hu : Understood fuel cfg m.state (l.move .output op res.data) dst asked answered
      response := by
    obtain ⟨ht,hs⟩ := Ledger.move_other l .output .input op res.data (by decide)
    have hu := h.understood
    exact ⟨hu.requested,answering_frame w m.state response hu.answering (by rw [hm]),
      ht.trans hu.taken,hs.trans hu.sent⟩
  have hxc : x.creds = hopCreds cfg.output i :=
    (store_creds _ _ _).trans (hhop ▸ hw.creds i)
  have hahead : Untouched cfg.output (i+1) m.state := by rw [hm]; exact h.ahead
  -- a call of the user is the last event, and ends what the hop does by itself
  have hcalled : ∀ (t : ClientSessionSocks5.Session) (e : ClientSessionSocks5.Event),
      ClientSessionSocks5.run op.callback x res.err = (t,[.emit e]) →
      d.obj = t ∧ Reports (hopCreds cfg.output i) (target cfg.output dst i) d e := by
    intro t e hr
    have hd := hrun.trans hr
    refine ⟨congrArg Prod.fst hd,phase_reports _ _ old d e hphase ?_ ?_⟩
    · change started (client.done op (outcome res) c.obj).2 = []
      rw [hd]
      rfl
    · change (c.events ++ emitted (client.done op (outcome res) c.obj).2).getLast? = some e
      rw [hd]
      exact List.getLast?_concat
  have hfar : 10*(hops cfg.output-i) ≤ remaining cfg.output i op.callback := Nat.le_add_right _ _
  have hlast : ∀ t e err, ClientSessionSocks5.run op.callback x res.err =
      (t,[.emit (.call e err)]) → e = .writeReq → err = .noError →
      remaining cfg.output i .connReadRespHandler < remaining cfg.output i op.callback := by
    rintro t e err hr rfl rfl
    have hk := written_last op.callback x res.err (by rw [hr]; exact List.mem_singleton_self _)
    rw [hk]
    exact Nat.add_lt_add_left (by decide) _
  cases hg : AfterCall.Client.goesOn op.callback x res.err with
  | true =>
    have hcut := AfterCall.Client.run_cut op.callback x res.err
    rw [if_pos hg] at hcut
    have huntil : AfterCall.Client.untilCall op.callback x res.err =
        ClientSessionSocks5.callAndClearHandler { x with connResp := ⟨.succeeded⟩ } .readResp
          .noError := if_pos hg
    rw [huntil] at hcut
    by_cases hh : x.userReadRespHandler = true
    · rw [ClientSocks5Run.call_readResp { x with connResp := ⟨.succeeded⟩ } .noError hh] at hcut
      obtain ⟨hobj,hrep⟩ := hcalled _ _ hcut
      have hgot : d.obj.connResp = ⟨.succeeded⟩ :=
        congrArg ClientSessionSocks5.Session.connResp hobj
      have hc := granted_cleared cfg _ dst i base d .noError h.requests h.spoken hl
        ErrorCode.noError_failed hgot hrep
      refine Held.Leaves.of_eq (Held.leaves_resume stored (clearHop i) (Held.Brings.mono ?_
        fun v hv => clear_onward fuel cfg _ dst asked answered response i _ v hv))
        (hop_on addressText i index op res m (hx ▸ hg))
      rw [hx]
      refine granted_calls addressText i index x m _ hh ?_
      have hset := hop_walking cfg false dst i i m.state { x with
        connResp := ⟨.succeeded⟩
        userReadRespHandler := false } hw hxc
      exact next_goes addressText fuel cfg _ dst asked answered response (i+1)
        ((index+1) % 2^64) _ .noError _ (behind_walking cfg false dst i _ hset h.lower) h.lower
        (next_remaining cfg i _ hfar)
        (untouched_set cfg.output i (i+1) m.state _ hahead (Nat.lt_succ_self i))
        (understood_frame fuel cfg m.state _ _ dst asked answered response hu rfl) hc
    · have hfails : ClientSessionSocks5.callAndClearHandler { x with connResp := ⟨.succeeded⟩ }
          .readResp .noError = ({ x with connResp := ⟨.succeeded⟩ },[.emit .assertFailed]) :=
        if_neg hh
      rw [hfails] at hcut
      obtain ⟨-,hrep⟩ := hcalled _ _ hcut
      cases hrep
  | false =>
    refine Held.Brings.leaves (Held.Brings.of_eq ?_
      (hop_over addressText i index op res m (hx ▸ hg)))
    rw [hx]
    cases AfterCall.Client.run_turn op.callback x res.err hg with
    | starts t op' hr hc =>
      have hd := hrun.trans hr
      have hobj : d.obj = t := congrArg Prod.fst hd
      have hwalk := hop_walking cfg false dst i i _ t hw (hc.trans hxc)
      rw [hr]
      refine ⟨(m.state.setHop i t).start (.hop i index op'),rfl,i,.hopping index base old d op'
        ⟨walking_idle cfg false dst i (m.state.setHop i t) hwalk,h.lower,h.requests,
          untouched_set cfg.output i (i+1) m.state t hahead (Nat.lt_succ_self i),?_,hphase,?_,?_,
          h.spoken,hl,understood_frame fuel cfg m.state _ _ dst asked answered response hu rfl⟩
        (Nat.add_lt_add_left (run_rank _ x res.err op'
          (by rw [hr]; exact List.mem_singleton_self _)) _)⟩
      · rw [hobj]
        exact setHop_hop m.state i t hlen
      · change started (client.done op (outcome res) c.obj).2 = [op']
        rw [hd]
        rfl
      · change m.state.pending ++ [_] = _
        rw [hw.idle]
        rfl
    | calls t e err hr hc =>
      obtain ⟨hobj,hrep⟩ := hcalled t _ hr
      rw [hr]
      refine (report_goes addressText fuel cfg _ dst asked answered response i index _ base d
        (m.modify (·.setHop i t)) e err (hop_walking cfg false dst i i _ t hw (hc.trans hxc))
        h.lower hfar (hlast t e err hr) h.requests
        (untouched_set cfg.output i (i+1) m.state t hahead (Nat.lt_succ_self i))
        (hobj ▸ setHop_hop m.state i t hlen)
        (understood_frame fuel cfg m.state _ _ dst asked answered response hu rfl) h.spoken hl
        hrep).after _ rfl
    | fails t hr hc =>
      obtain ⟨-,hrep⟩ := hcalled t _ hr
      cases hrep

/-! The output looks for its first stop. -/

theorem opened_untouched (w : World) (h : w.sess.output.chain = (Output.create cfg.output).chain) :
    Untouched cfg.output 0 w := by
  intro j _
  rw [h]
  rfl

/-- A name is looked up before the connect. -/
def lookups : Output.Op → ℕ
  | .asyncResolve _ _ _ => 1
  | _ => 0

/-- One operation of the output itself. -/
theorem output_advances (op : Output.Op) (res : Completion) (w : World) (m : Life)
    (h : Opened fuel cfg false w l dst asked answered response)
    (hm : m.state = { w with pending := [] }) (hp : w.pending = [.output op]) :
    Held.Brings (outputDone addressText op res) m fun v =>
      Opened fuel cfg false v l dst asked answered response ∧
          (∃ op', v.pending = [.output op'] ∧ lookups op' < lookups op) ∨
        ∃ i, Onward fuel cfg v l dst asked answered response i (10*hops cfg.output+10) := by
  have hw : Walking cfg false dst 0 m.state := hm ▸ h.opening.walking
  have hu : Understood fuel cfg m.state l dst asked answered response :=
    understood_frame fuel cfg w _ l dst asked answered response h.understood (by rw [hm])
  have hchain : m.state.sess.output.chain = (Output.create cfg.output).chain := by
    rw [hm]
    exact h.hops
  obtain ⟨hnone,hsilent⟩ := h.silent
  obtain ⟨op',hp',hwaits⟩ := h.opening.pending
  obtain rfl : op' = op := SessionLife.Op.output.inj (List.singleton_inj.mp (hp'.symm.trans hp))
  cases hwaits with
  | connect address port index =>
    refine (next_goes addressText fuel cfg l dst asked answered response 0 index _ res.err m hw
      (Nat.zero_le _) (fun _ => Nat.lt_succ_self _) (opened_untouched cfg _ hchain) hu ?_).mono
      fun _ h => .inr ⟨0,h⟩
    rw [hnone, hsilent]
    exact ⟨asked_none _ _,.nil,rfl⟩
  | resolve hostname port index =>
    have hclear := resolved_walking cfg false dst 0 m.state hw
    have hframe := understood_frame fuel cfg m.state (resolved m.state) l dst asked answered
      response hu rfl
    by_cases he : res.err.failed
    · refine ((fails_replies addressText fuel cfg l dst asked answered response
        ⟨false,res.err,index,{}⟩ 0 (m.modify resolved) hclear hframe rfl (fun hno => absurd he hno)
        ⟨0,Nat.zero_le _,asked_none _ _,hsilent ▸ List.nil_prefix⟩).mono
        fun _ h => .inr ⟨0,.replied h⟩).after resolved (if_pos he)
    · have hopens := launch_opens cfg false dst _ _ hclear (.connect res.address port index)
      refine ⟨_,resolved_eq addressText hostname port index res m he,.inl ⟨⟨hopens,hchain,
          understood_frame fuel cfg _ _ l dst asked answered response hframe rfl,h.silent⟩,
        .asyncConnect res.address port index,?_,Nat.one_pos⟩⟩
      change m.state.pending ++ [_] = _
      rw [hw.idle]
      rfl

end AddressText

end ProxySwiss.HopTraffic
