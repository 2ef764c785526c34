import ProxySwiss.SessionPhases

/-!
# The return to a session without an owner

Where a tunnel has a hop behind the first that is asked for too much, the hops
before it can all report their success. The last of them then calls its handler,
which finds the next hop unable to take its request and fails the session. The
tunnel has nothing that would keep the session, and the hop returns to clear a
pointer of its own.
-/

set_option autoImplicit false

namespace ProxySwiss.OwnerlessReturn
open Memory TransitionSystem CallbackObject Ownership Socks5 SessionLife SessionOwners HopOwners
  HopReturns RequestOwners SessionPhases
open ChainWalk (Standing hops target)
open ChainDialogue (hopCreds)

abbrev HopOp := StreamObject.Op UInt8 ClientSessionSocks5.Callback
abbrev Hop := ClientSessionSocks5.Session

section AddressText

variable (addressText : Address → Bytes) (fuel : ℕ)

/-- A world of `P` can go on to a world of `Q`, with nothing left in a frame. -/
def Leads (P Q : World → Prop) : Prop :=
  ∀ m : Life, m.locals = 0 → P m.state →
    ∃ n, Run (Step addressText fuel) m n ∧ n.locals = 0 ∧ Q n.state

theorem Leads.trans {P Q R : World → Prop} (h : Leads addressText fuel P Q)
    (h' : Leads addressText fuel Q R) : Leads addressText fuel P R := by
  intro m hl hp
  obtain ⟨n,hr,hl',hq⟩ := h m hl hp
  obtain ⟨o,hr',ho,hq'⟩ := h' n hl' hq
  exact ⟨o,hr.trans hr',ho,hq'⟩

/-- The only operation completes. -/
theorem leads_done (P Q : World → Prop) (h : ∀ m : Life, P m.state → ∃ op res,
    m.state.pending = [op] ∧ Allowed res op ∧
      Held.Keeps (done addressText fuel op res) (m.modify fun w => { w with pending := [] }) Q) :
    Leads addressText fuel P Q := by
  intro m hl hp
  obtain ⟨op,res,hpend,hall,w,ns,heq,-,hq⟩ := h m hp
  have ht : Step addressText fuel m (done addressText fuel op res
      (m.modify fun w => { w with pending := [] })) := .complete m [] [] op res hpend hall
  rw [heq] at ht
  exact ⟨_,.single ht,hl,hq⟩

/-- A hop is at one of its own operations. -/
structure Talking (cfg : Config) (dst : Destination) (i : ℕ) (O : HopOp → Prop)
    (P : Hop → Prop) (w : World) : Prop where
  walking : Walking cfg false dst i { w with pending := [] }
  pending : ∃ index op, w.pending = [.hop i index op] ∧ O op
  hop : P (w.hop i)

/-- What the hop does with the answer, for a hop that goes on by itself. -/
def Answers (creds : Credentials) (O : HopOp → Prop) (P : Hop → Prop) (O' : HopOp → Prop)
    (P' : Hop → Prop) : Prop :=
  ∀ op s, O op → P s → s.creds = creds → ∃ data t op', op.Whole data ∧
    AfterCall.Client.goesOn op.callback (ClientSessionSocks5.store s data op.callback)
      .noError = false ∧
    ClientSessionSocks5.client.done op (.ok data) s = (t,[.start op']) ∧
    t.creds = s.creds ∧ O' op' ∧ P' t

theorem hop_setHop (w : World) (i : ℕ) (t : Hop) (h : i < w.sess.output.chain.length) :
    (w.setHop i t).hop i = t := by
  change ({ (w.sess.output.chain.set i t).getD i {} with connResp := t.connResp } : Hop) = t
  rw [List.getD_eq_getElem?_getD, List.getElem?_set_self h]
  rfl

theorem talking_start (cfg : Config) (dst : Destination) (i index : ℕ) (O : HopOp → Prop)
    (P : Hop → Prop) (w : World) (t : Hop) (op : HopOp) (hw : Walking cfg false dst i w)
    (hi : i < hops cfg.output) (hc : t.creds = hopCreds cfg.output i) (ho : O op) (hp : P t) :
    Talking cfg dst i O P ((w.setHop i t).start (.hop i index op)) := by
  have hw' := hop_walking cfg false dst i i w t hw hc
  have hidle := walking_idle cfg false dst i _ hw'
  refine ⟨hidle,⟨index,op,?_,ho⟩,?_⟩
  · change w.pending ++ [_] = _
    rw [hw.idle]
    rfl
  · change P ((w.setHop i t).hop i)
    rw [hop_setHop w i t (hw.standing.chain.symm ▸ hi)]
    exact hp

/-- The world and the completion in which a hop gets the answer. -/
theorem leads_answer (cfg : Config) (dst : Destination) (i : ℕ) (O O' : HopOp → Prop)
    (P P' : Hop → Prop) (hi : i < hops cfg.output)
    (h : Answers (hopCreds cfg.output i) O P O' P') :
    Leads addressText fuel (Talking cfg dst i O P) (Talking cfg dst i O' P') := by
  apply leads_done
  intro m hm
  obtain ⟨index,op,hpend,ho⟩ := hm.pending
  obtain ⟨data,t,op',hwhole,hg,hr,hc,ho',hp'⟩ := h op _ ho hm.hop (hm.walking.creds i)
  refine ⟨_,{ data := data },hpend,?_,?_⟩
  · simp only [Allowed, ErrorCode.noError_failed, if_false]
    exact hwhole
  · have heq := (hop_over addressText i index op { data := data }
        (m.modify fun w => { w with pending := [] }) hg).trans
      (congrArg (fun r => hopDoes i index r (callOutput addressText index)
        (m.modify fun w => { w with pending := [] })) hr)
    refine Held.Brings.keeps ⟨_,heq,?_⟩
    exact talking_start cfg dst i index O' P' _ t op' hm.walking hi
      (hc.trans (hm.walking.creds i)) ho' hp'

/-! The answers of a hop that makes its connection. -/

def Writes (k : ClientSessionSocks5.Callback) (op : HopOp) : Prop := ∃ msg, op = .write msg k

def Reads (n : ℕ) (k : ClientSessionSocks5.Callback) (op : HopOp) : Prop := op = .read n k

def Writing (s : Hop) : Prop := s.userWriteReqHandler = true

def Waiting (s : Hop) : Prop := s.userReadRespHandler = true

def Succeeding (s : Hop) : Prop :=
  s.userReadRespHandler = true ∧ s.connReadPacketHeader[1] = 0

theorem request_starts (s : Hop) : ∃ t msg,
    ClientSessionSocks5.connWriteReq s = (t,[.start (.write msg .connWriteReqHandler)]) ∧
      t.creds = s.creds ∧ t.userWriteReqHandler = s.userWriteReqHandler :=
  ⟨_,_,rfl,rfl,rfl⟩

theorem creds_starts (s : Hop) : ∃ t msg,
    ClientSessionSocks5.authWriteCreds s = (t,[.start (.write msg .authWriteCredsHandler)]) ∧
      t.creds = s.creds ∧ t.userWriteReqHandler = s.userWriteReqHandler :=
  ⟨_,_,rfl,rfl,rfl⟩

theorem greeting_written (creds : Credentials) :
    Answers creds (Writes .authWriteReqHandler) Writing (Reads 2 .authReadRespHandler) Writing := by
  rintro op s ⟨msg,rfl⟩ hs -
  refine ⟨msg,{ s with writeBuf := [] },_,rfl,rfl,?_,rfl,rfl,hs⟩
  change ClientSessionSocks5.authWriteReqHandler s .noError = _
  rw [ClientSessionSocks5.authWriteReqHandler, if_neg ErrorCode.noError_failed]
  rfl

theorem method_request (creds : Credentials) (h : creds.empty = true) :
    Answers creds (Reads 2 .authReadRespHandler) Writing (Writes .connWriteReqHandler) Writing := by
  rintro op s rfl hs hc
  obtain ⟨t,msg,hr,ht,hh⟩ := request_starts { s with authReadPacket := ⟨[5,0],rfl⟩ }
  refine ⟨[5,0],t,_,rfl,rfl,?_,ht,⟨msg,rfl⟩,hh.trans hs⟩
  rw [ClientSocks5Run.method_done s _ creds 5 0 hc rfl, if_neg (by simp), if_neg (by decide),
    if_pos h, if_neg (by simp), hr]

theorem method_creds (creds : Credentials) (h : creds.empty = false) :
    Answers creds (Reads 2 .authReadRespHandler) Writing (Writes .authWriteCredsHandler)
      Writing := by
  rintro op s rfl hs hc
  obtain ⟨t,msg,hr,ht,hh⟩ := creds_starts { s with authReadPacket := ⟨[5,2],rfl⟩ }
  refine ⟨[5,2],t,_,rfl,rfl,?_,ht,⟨msg,rfl⟩,hh.trans hs⟩
  rw [ClientSocks5Run.method_done s _ creds 5 2 hc rfl, if_neg (by simp), if_neg (by decide),
    if_neg (by simp [h]), if_neg (by simp), hr]

theorem creds_written (creds : Credentials) :
    Answers creds (Writes .authWriteCredsHandler) Writing (Reads 2 .authReadCredsReplyHandler)
      Writing := by
  rintro op s ⟨msg,rfl⟩ hs -
  refine ⟨msg,{ s with writeBuf := [] },_,rfl,rfl,?_,rfl,rfl,hs⟩
  change ClientSessionSocks5.authWriteCredsHandler s .noError = _
  rw [ClientSessionSocks5.authWriteCredsHandler, if_neg ErrorCode.noError_failed]
  rfl

theorem status_request (creds : Credentials) :
    Answers creds (Reads 2 .authReadCredsReplyHandler) Writing (Writes .connWriteReqHandler)
      Writing := by
  rintro op s rfl hs -
  obtain ⟨t,msg,hr,ht,hh⟩ := request_starts { s with authReadPacket := ⟨[5,0],rfl⟩ }
  refine ⟨[5,0],t,_,rfl,rfl,?_,ht,⟨msg,rfl⟩,hh.trans hs⟩
  rw [ClientSocks5Run.status_done s _ 5 0 rfl, if_neg (by simp), if_neg (by simp), hr]

theorem header_address (creds : Credentials) :
    Answers creds (Reads 4 .connReadRespHandler) Waiting (Reads 6 .connReadRespAddrIpv4Handler)
      Succeeding := by
  rintro op s rfl hs -
  refine ⟨[5,0,0,1],{ s with connReadPacketHeader := ⟨[5,0,0,1],rfl⟩ },_,rfl,rfl,?_,rfl,rfl,hs,rfl⟩
  rw [ClientSocks5Run.header_done s _ 5 0 0 1 rfl, if_pos (by decide), if_pos rfl]
  rfl

/-- The hop when it has written its request. -/
def written (s : Hop) : Hop := { s with writeBuf := [], userWriteReqHandler := false }

theorem written_calls (s : Hop) (hs : Writing s) :
    ClientSessionSocks5.run .connWriteReqHandler s .noError =
      (written s,[.emit (.call .writeReq .noError)]) := by
  change ClientSessionSocks5.connWriteReqHandler s .noError = _
  rw [ClientSessionSocks5.connWriteReqHandler, if_neg ErrorCode.noError_failed]
  exact ClientSocks5Run.call_writeReq _ _ hs

theorem written_asks (i index : ℕ) (m : Life) (h : m.state.sess.output.curProxy = i) :
    handleWriteConnectRequest addressText .noError index m = readConnectResponse i index m := by
  rw [handleWriteConnectRequest, if_neg ErrorCode.noError_failed, h]

/-- The request was written, and the hop is asked for its response. -/
theorem leads_written (cfg : Config) (dst : Destination) (i : ℕ) (hi : i < hops cfg.output) :
    Leads addressText fuel (Talking cfg dst i (Writes .connWriteReqHandler) Writing)
      (Talking cfg dst i (Reads 4 .connReadRespHandler) Waiting) := by
  apply leads_done
  intro m hm
  obtain ⟨index,op,hpend,msg,rfl⟩ := hm.pending
  have hwalk := hop_walking cfg false dst i i _ (written (m.state.hop i)) hm.walking
    (hm.walking.creds i)
  set v : Life := m.modify fun w => { w with pending := [] }
  set u : Life := v.modify (·.setHop i (written (m.state.hop i)))
  obtain ⟨t,hc,hh,hstart⟩ := response_starts i index u
  have heq : done addressText fuel (.hop i index (.write msg .connWriteReqHandler))
      { data := msg } v = readConnectResponse i index u :=
    (hop_over addressText i index (.write msg .connWriteReqHandler) { data := msg } v rfl).trans
      ((congrArg (fun r => hopDoes i index r (callOutput addressText index) v)
        (written_calls _ hm.hop)).trans
          (written_asks addressText i index u hwalk.standing.position))
  refine ⟨_,{ data := msg },hpend,?_,Held.Brings.keeps ⟨_,heq.trans hstart,?_⟩⟩
  · simp only [Allowed, ErrorCode.noError_failed, if_false]
    rfl
  · exact talking_start cfg dst i index _ _ _ t _ hwalk hi (hc.trans (hwalk.creds i)) rfl hh

/-- A hop that says what it takes comes to the address of its response. -/
theorem leads_address (cfg : Config) (dst : Destination) (i : ℕ) (hi : i < hops cfg.output) :
    Leads addressText fuel (Talking cfg dst i (Writes .authWriteReqHandler) Writing)
      (Talking cfg dst i (Reads 6 .connReadRespAddrIpv4Handler) Succeeding) := by
  have hgreeted := leads_answer addressText fuel cfg dst i _ _ _ _ hi (greeting_written _)
  have hrequested := (leads_written addressText fuel cfg dst i hi).trans addressText fuel
    (leads_answer addressText fuel cfg dst i _ _ _ _ hi (header_address _))
  cases hc : (hopCreds cfg.output i).empty with
  | true =>
    exact hgreeted.trans addressText fuel ((leads_answer addressText fuel cfg dst i _ _ _ _ hi
      (method_request _ hc)).trans addressText fuel hrequested)
  | false =>
    have hcreds := (leads_answer addressText fuel cfg dst i _ _ _ _ hi (creds_written _)).trans
      addressText fuel (leads_answer addressText fuel cfg dst i _ _ _ _ hi (status_request _))
    exact hgreeted.trans addressText fuel ((leads_answer addressText fuel cfg dst i _ _ _ _ hi
      (method_creds _ hc)).trans addressText fuel (hcreds.trans addressText fuel hrequested))

/-! The end of the response. -/

/-- The hop that is asked next, if it takes its request. -/
theorem next_talks (cfg : Config) (dst : Destination) (i index : ℕ) (m : Life)
    (hw : Walking cfg false dst i m.state) (hi : i < hops cfg.output)
    (h : Accepted (hopCreds cfg.output i) (target cfg.output dst i)) :
    Held.Brings (connectNext addressText .noError index) m
      (Talking cfg dst i (Writes .authWriteReqHandler) Writing) := by
  obtain ⟨t,hc,hh,hr⟩ := write_accepted (m.state.hop i) (target cfg.output dst i)
    ((target_asked cfg false dst i _ hw).symm ▸ h)
  refine Held.Brings.of_eq (g := writeConnectRequest addressText i (target cfg.output dst i) index)
    ⟨_,by rw [writeConnectRequest, hr]; rfl,?_⟩
    ((connectNext_eq addressText cfg false dst i index .noError m hw ErrorCode.noError_failed
      (Nat.le_of_lt hi)).trans (if_neg (Nat.ne_of_lt hi)))
  exact talking_start cfg dst i index _ _ m.state t _ hw hi
    (hc.trans (target_asked cfg false dst i _ hw)) ⟨_,rfl⟩ hh

theorem clear_talking (cfg : Config) (dst : Destination) (i j : ℕ) (O : HopOp → Prop) (w : World)
    (hij : i ≠ j) (h : Talking cfg dst j O Writing w) :
    Talking cfg dst j O Writing (clearHop i w) := by
  refine ⟨hop_walking cfg false dst j i _ _ h.walking (h.walking.creds i),h.pending,?_⟩
  change ((w.sess.output.chain.set i _).getD j {}).userWriteReqHandler = true
  rw [List.getD_eq_getElem?_getD, List.getElem?_set_ne hij, ← List.getD_eq_getElem?_getD]
  exact h.hop

/-- The last octets of a response that tells of a connection, and the world in
which they arrive. -/
theorem address_eq (cfg : Config) (dst : Destination) (i index : ℕ) (m : Life) (Q : World → Prop)
    (hm : Talking cfg dst i (Reads 6 .connReadRespAddrIpv4Handler) Succeeding m.state)
    (hi : i < hops cfg.output)
    (h : ∀ v : Life, v.locals = m.locals → v.resumed = m.resumed →
      Walking cfg false dst (i+1) v.state →
      Held.Brings (connectNext addressText .noError ((index+1) % 2^64)) v Q) :
    ∃ s, Q s ∧ hopDone addressText i index (.read 6 .connReadRespAddrIpv4Handler)
        { data := [0,0,0,0,0,0] } (m.modify fun w => { w with pending := [] }) =
      ⟨clearHop i s,m.locals,m.resumed ++ [stored s+m.locals]⟩ := by
  set v : Life := m.modify fun w => { w with pending := [] }
  set s := received v.state i (.read 6 .connReadRespAddrIpv4Handler) { data := [0,0,0,0,0,0] }
  have hg : AfterCall.Client.goesOn .connReadRespAddrIpv4Handler s .noError = true := by
    have h0 : s.connReadPacketHeader[1] = 0 := hm.hop.2
    simp [AfterCall.Client.goesOn, h0, ErrorCode.noError_failed]
  have hset := hop_walking cfg false dst i i v.state { s with
    connResp := ⟨.succeeded⟩
    userReadRespHandler := false } hm.walking (hm.walking.creds i)
  have hcalls := granted_calls addressText i index s v Q hm.hop.1
    (h _ rfl rfl (behind_walking cfg false dst i _ hset hi))
  obtain ⟨u,hq,heq⟩ := Held.resume_eq stored (clearHop i) hcalls
  exact ⟨u,hq,(hop_on addressText i index (.read 6 .connReadRespAddrIpv4Handler)
    { data := [0,0,0,0,0,0] } v hg).trans heq⟩

theorem leads_next (cfg : Config) (dst : Destination) (i : ℕ) (hi : i+1 < hops cfg.output)
    (h : Accepted (hopCreds cfg.output (i+1)) (target cfg.output dst (i+1))) :
    Leads addressText fuel
      (Talking cfg dst i (Reads 6 .connReadRespAddrIpv4Handler) Succeeding)
      (Talking cfg dst (i+1) (Writes .authWriteReqHandler) Writing) := by
  apply leads_done
  intro m hm
  obtain ⟨index,op,hpend,rfl⟩ := hm.pending
  obtain ⟨s,hq,heq⟩ := address_eq addressText cfg dst i index m
    (Talking cfg dst (i+1) (Writes .authWriteReqHandler) Writing) hm (Nat.lt_of_succ_lt hi)
    fun v _ _ hv => next_talks addressText cfg dst (i+1) _ v hv hi h
  refine ⟨_,{ data := [0,0,0,0,0,0] },hpend,?_,clearHop i s,_,heq,?_,
    clear_talking cfg dst i (i+1) _ s (Nat.ne_of_lt (Nat.lt_succ_self i)) hq⟩
  · simp only [Allowed, ErrorCode.noError_failed, if_false]
    rfl
  · intro n hn
    have := handler_owned s hq.walking.standing.handler
    rw [List.mem_singleton.mp hn]
    omega

/-- The next hop does not take its request, and nobody owns the session any more
when the call returns. -/
theorem lost_return (cfg : Config) (d dst : Destination) (i : ℕ) (m : Life)
    (hcfg : cfg.input = .tunnel d) (hi : i+1 < hops cfg.output)
    (h : ¬ Accepted (hopCreds cfg.output (i+1)) (target cfg.output dst (i+1)))
    (hl : m.locals = 0)
    (hm : Talking cfg dst i (Reads 6 .connReadRespAddrIpv4Handler) Succeeding m.state) :
    ∃ n, Run (Step addressText fuel) m n ∧ 0 ∈ n.resumed := by
  obtain ⟨index,op,hpend,rfl⟩ := hm.pending
  obtain ⟨s,hq,heq⟩ := address_eq addressText cfg dst i index m (Ends cfg false false) hm
    (Nat.lt_of_succ_lt hi) fun v _ _ hv =>
      next_refused addressText cfg false dst (i+1) _ .noError v hv ErrorCode.noError_failed hi h
  have ht : Step addressText fuel m (done addressText fuel
      (.hop i index (.read 6 .connReadRespAddrIpv4Handler)) { data := [0,0,0,0,0,0] }
      (m.modify fun w => { w with pending := [] })) := by
    refine .complete m [] [] _ _ hpend ?_
    simp only [Allowed, ErrorCode.noError_failed, if_false]
    rfl
  refine ⟨_,.single ht,?_⟩
  rw [show done addressText fuel (.hop i index (.read 6 .connReadRespAddrIpv4Handler))
    { data := [0,0,0,0,0,0] } _ = _ from heq, hq.lost d hcfg rfl rfl, hl]
  simp

/-- The output connects to its first stop. -/
structure Dialing (cfg : Config) (dst : Destination) (w : World) : Prop where
  walking : Walking cfg false dst 0 { w with pending := [] }
  pending : ∃ a port index, w.pending = [.output (.asyncConnect a port index)]

theorem leads_dialed (cfg : Config) (dst : Destination) (hi : 0 < hops cfg.output)
    (h : Accepted (hopCreds cfg.output 0) (target cfg.output dst 0)) :
    Leads addressText fuel (Dialing cfg dst)
      (Talking cfg dst 0 (Writes .authWriteReqHandler) Writing) := by
  apply leads_done
  intro m hm
  obtain ⟨a,port,index,hpend⟩ := hm.pending
  exact ⟨_,{},hpend,trivial,(next_talks addressText cfg dst 0 index
    (m.modify fun w => { w with pending := [] }) hm.walking hi h).keeps⟩

theorem leads_resolved (cfg : Config) (dst : Destination) :
    Leads addressText fuel
      (fun w => Walking cfg false dst 0 { w with pending := [] } ∧
        ∃ hostname port index, w.pending = [.output (.asyncResolve hostname port index)])
      (Dialing cfg dst) := by
  apply leads_done
  rintro m ⟨hw,hostname,port,index,hpend⟩
  have hclear := resolved_walking cfg false dst 0 _ hw
  have hopen := launch_opens cfg false dst _ _ hclear (.connect default port index)
  exact ⟨_,{},hpend,trivial,Held.Brings.keeps ⟨_,resolved_eq addressText hostname port index {}
    (m.modify fun w => { w with pending := [] }) ErrorCode.noError_failed,
    hopen.walking,default,port,index,rfl⟩⟩

/-- The connection is made, and the first hop is asked. -/
theorem leads_first (cfg : Config) (dst : Destination) (hi : 0 < hops cfg.output)
    (h : Accepted (hopCreds cfg.output 0) (target cfg.output dst 0)) :
    Leads addressText fuel (Opening cfg false dst)
      (Talking cfg dst 0 (Writes .authWriteReqHandler) Writing) := by
  have hdialed := leads_dialed addressText fuel cfg dst hi h
  intro m hl hm
  obtain ⟨op,hpend,hwaits⟩ := hm.pending
  cases hwaits with
  | connect a port index => exact hdialed m hl ⟨hm.walking,a,port,index,hpend⟩
  | resolve hostname port index =>
    exact (leads_resolved addressText fuel cfg dst).trans addressText fuel hdialed m hl
      ⟨hm.walking,hostname,port,index,hpend⟩

/-- Every hop up to the one that is asked for too much can be reached. -/
theorem leads_hop (cfg : Config) (dst : Destination) (k : ℕ) (hk : k < hops cfg.output)
    (hasked : Asked cfg.output dst k) (i : ℕ) (hi : i < k) :
    Leads addressText fuel (Opening cfg false dst)
      (Talking cfg dst i (Writes .authWriteReqHandler) Writing) := by
  induction i with
  | zero => exact leads_first addressText fuel cfg dst (Nat.zero_lt_of_lt hk) (hasked 0 hi)
  | succ i ih =>
    have hlt := Nat.lt_trans hi hk
    exact ((ih (Nat.lt_of_succ_lt hi)).trans addressText fuel
      (leads_address addressText fuel cfg dst i (Nat.lt_of_succ_lt hlt))).trans addressText fuel
        (leads_next addressText fuel cfg dst i hlt (hasked (i+1) hi))

/-- An exposed session has a run in which a hop returns to nobody's session. -/
theorem exposed_run (cfg : Config) (hx : Exposed cfg) (printProxyErrors : Bool)
    (log history : List Bytes) :
    ∃ m, Run (Step addressText fuel) (begun cfg printProxyErrors log history) m ∧
      0 ∈ m.resumed := by
  obtain ⟨d,k,hcfg,hpos,hk,hasked,hno⟩ := hx
  obtain ⟨i,rfl⟩ : ∃ i, k = i+1 := ⟨k-1,by omega⟩
  set b := begun cfg printProxyErrors log history
  obtain ⟨w,heq,hw⟩ := start_opens cfg true d b hcfg
    (begun_fresh cfg printProxyErrors log history)
  have haccept : Step addressText fuel b (handleAccept .noError b) := .accept b .noError rfl
  have hopen : handleAccept .noError b = ⟨release w,0,[]⟩ := by
    rw [handleAccept, if_neg ErrorCode.noError_failed, heq]
    rfl
  rw [hopen] at haccept
  obtain ⟨m,hr,hl,hm⟩ := ((leads_hop addressText fuel cfg d (i+1) hk hasked i
    (Nat.lt_succ_self i)).trans addressText fuel
      (leads_address addressText fuel cfg d i (Nat.lt_of_succ_lt hk))) ⟨release w,0,[]⟩ rfl
        (opening_release cfg true d w hw)
  obtain ⟨n,hr',hn⟩ := lost_return addressText fuel cfg d d i m hcfg hk hno hl hm
  exact ⟨n,(Relation.ReflTransGen.head haccept hr).trans hr',hn⟩

/-- Every callback that goes on after it has called its user finds an owner of the
session, in every run, exactly if the session is not exposed. -/
theorem owner_at_return (cfg : Config) (printProxyErrors : Bool) (log history : List Bytes) :
    (∀ m, Run (Step addressText fuel) (begun cfg printProxyErrors log history) m →
      ∀ n ∈ m.resumed, 0 < n) ↔ ¬ Exposed cfg := by
  constructor
  · intro h hx
    obtain ⟨m,hr,hm⟩ := exposed_run addressText fuel cfg hx printProxyErrors log history
    exact absurd (h m hr 0 hm) (Nat.lt_irrefl 0)
  · intro hx m hr
    exact (run_owned addressText fuel cfg hx printProxyErrors log history m hr).resumed

end AddressText

/-! Two proxies, and a destination with a name of 256 octets. -/

def farConfig : Config where
  input := .tunnel { hostname := List.replicate 256 0x61, port := 80 }
  output := ⟨[{ proxyAddress := { ipAddress := .v4 0x01020304, port := 1080 } },
    { proxyAddress := { ipAddress := .v4 0x05060708, port := 1080 } }],by decide⟩

theorem far_exposed : Exposed farConfig := by
  refine ⟨_,1,rfl,Nat.one_pos,by decide,fun j hj => ?_,fun h => ?_⟩
  · obtain rfl : j = 0 := by omega
    exact ⟨Nat.zero_le _,Nat.zero_le _,fun h => absurd h (by decide)⟩
  · have hlen : (List.replicate 256 (0x61 : UInt8)).length ≤ 255 := h.hostname rfl
    rw [List.length_replicate] at hlen
    exact absurd hlen (by decide)

theorem far_return : ¬ ∀ m, Run (Step (fun _ => []) 0) (begun farConfig false [] []) m →
    ∀ n ∈ m.resumed, 0 < n := by
  intro h
  obtain ⟨m,hr,hm⟩ := exposed_run (fun _ => []) 0 farConfig far_exposed false [] []
  exact absurd (h m hr 0 hm) (Nat.lt_irrefl 0)

end ProxySwiss.OwnerlessReturn
