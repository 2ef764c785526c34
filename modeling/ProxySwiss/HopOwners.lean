import ProxySwiss.SessionOwners

/-!
# The hops of an owned session

While the output walks along its chain the handler that it has stored owns the
session. A hop that takes its request keeps it there, one that fails has the
handler called, and so has the last hop when its connection is made.
-/

set_option autoImplicit false

namespace ProxySwiss.HopOwners
open Memory CallbackObject Ownership Socks5 SessionLife SessionOwners
open ChainWalk (Standing hops target)
open ChainDialogue (hopCreds)
open Session (Session)

section AddressText

variable (addressText : Address → Bytes)

theorem hop_walking (cfg : Config) (b : Bool) (dst : Destination) (i j : ℕ) (w : World)
    (s : ClientSessionSocks5.Session) (h : Walking cfg b dst i w)
    (hc : s.creds = hopCreds cfg.output j) : Walking cfg b dst i (w.setHop j s) := by
  obtain ⟨hwired,hs,hcreds,hdst,hidle⟩ := h
  refine ⟨wired_sess cfg b _ _ hwired rfl,⟨?_,hs.config,hs.handler,hs.dst,hs.position⟩,fun k => ?_,
    hdst,hidle⟩
  · exact List.length_set.trans hs.chain
  · change ((w.sess.output.chain.set j s).getD k {}).creds = _
    rw [← hcreds k]
    simp only [List.getD_eq_getElem?_getD, List.getElem?_set]
    split_ifs with hjk hlt
    · subst hjk
      exact hc.trans (by rw [← hcreds j, List.getD_eq_getElem?_getD])
    · rw [List.getElem?_eq_none (by omega)]
    · rfl

theorem walking_idle (cfg : Config) (b : Bool) (dst : Destination) (i : ℕ) (w : World)
    (h : Walking cfg b dst i w) : Walking cfg b dst i { w with pending := [] } :=
  ⟨wired_pending cfg b w [] h.wired,h.standing,h.creds,h.dst,rfl⟩

/-- One operation of the hop at the position is what is waited for. -/
theorem walking_waits (cfg : Config) (b : Bool) (dst : Destination) (i : ℕ) (w : World) (op : Op)
    (h : Walking cfg b dst i w) (ho : Waits cfg.output dst i op) :
    Connecting cfg b dst i (w.start op) := by
  have hp : (w.start op).pending = [op] := by
    change w.pending ++ [op] = _
    rw [h.idle]
    rfl
  refine ⟨walking_idle cfg b dst i w h,?_,?_⟩
  · intro op' hop
    rw [hp] at hop
    rw [List.mem_singleton.mp hop]
    exact ho
  · rw [hp]
    exact Nat.le_refl _

theorem write_accepted (s : ClientSessionSocks5.Session) (dst : Destination)
    (h : Accepted s.creds dst) : ∃ t, t.creds = s.creds ∧ t.userWriteReqHandler = true ∧
    ClientSessionSocks5.writeConnectRequest s dst =
      (t,[.start (.write (greeting s.creds) .authWriteReqHandler)]) := by
  have hlen : ¬ (s.creds.username.length > 255 ∨ s.creds.password.length > 255) :=
    not_or.mpr ⟨not_lt.mpr h.username,not_lt.mpr h.password⟩
  have hname : ¬ (dst.usingHostname ∧ dst.hostname.length > 255) :=
    fun hn => absurd (h.hostname hn.1) (not_le.mpr hn.2)
  refine ⟨_,?_,?_,(if_neg hlen).trans ((if_neg hname).trans
    (ClientSocks5Run.authWriteReq_eq _))⟩
  · rfl
  · rfl

theorem write_refused (s : ClientSessionSocks5.Session) (dst : Destination)
    (h : ¬ Accepted s.creds dst) : ∃ e : ErrorCode, e.failed ∧
      ClientSessionSocks5.writeConnectRequest s dst = (s,[.emit (.call .writeReq e)]) := by
  unfold ClientSessionSocks5.writeConnectRequest
  split_ifs with hc hn
  · exact ⟨_,makeErrorCode_failed _,rfl⟩
  · exact ⟨_,makeErrorCode_failed _,rfl⟩
  · rw [not_or, not_lt, not_lt] at hc
    exact absurd ⟨hc.1,hc.2,fun hu => not_lt.mp fun hlt => hn ⟨hu,hlt⟩⟩ h

theorem asked_next (cfg : OutputConfig) (dst : Destination) (i : ℕ) (h : Asked cfg dst i)
    (hi : Accepted (hopCreds cfg i) (target cfg dst i)) : Asked cfg dst (i+1) := by
  intro j hj
  rcases Nat.lt_succ_iff_lt_or_eq.mp hj with hj | rfl
  · exact h j hj
  · exact hi

theorem asserted_eq (a b : Bool) (r : ClientSessionSocks5.Effect) :
    (ClientSessionSocks5.assertThat a (ClientSessionSocks5.assertThat b r)).1 = r.1 ∧
      started (ClientSessionSocks5.assertThat a (ClientSessionSocks5.assertThat b r)).2 =
        started r.2 := by
  cases a <;> cases b <;> exact ⟨rfl,rfl⟩

theorem client_reads (s : ClientSessionSocks5.Session) : ∃ t as, t.creds = s.creds ∧
    t.userReadRespHandler = true ∧ started as = [.read 4 .connReadRespHandler] ∧
      ClientSessionSocks5.readConnectResponse s = (t,as) := by
  obtain ⟨hobj,hstart⟩ := asserted_eq (!s.userReadRespHandler) (!s.puserConnResp)
    (ClientSessionSocks5.connReadResp { s with
      puserConnResp := true
      userReadRespHandler := true })
  exact ⟨(ClientSessionSocks5.readConnectResponse s).1,
    (ClientSessionSocks5.readConnectResponse s).2,
    (congrArg ClientSessionSocks5.Session.creds hobj :),
    (congrArg ClientSessionSocks5.Session.userReadRespHandler hobj :),hstart,rfl⟩

theorem target_asked (cfg : Config) (b : Bool) (dst : Destination) (i : ℕ) (w : World)
    (h : Walking cfg b dst i w) : (w.hop i).creds = hopCreds cfg.output i := h.creds i

/-- The request is started if it is not too long. -/
theorem request_waits (cfg : Config) (b : Bool) (dst : Destination) (i index : ℕ) (m : Life)
    (hw : Walking cfg b dst i m.state) (hi : i < hops cfg.output) (hasked : Asked cfg.output dst i)
    (h : Accepted (hopCreds cfg.output i) (target cfg.output dst i)) :
    Held.Brings (writeConnectRequest addressText i (target cfg.output dst i) index) m
      (Connecting cfg b dst i) := by
  obtain ⟨t,hc,-,hr⟩ := write_accepted (m.state.hop i) (target cfg.output dst i)
    ((target_asked cfg b dst i _ hw).symm ▸ h)
  refine ⟨_,by rw [writeConnectRequest, hr]; rfl,?_⟩
  exact walking_waits cfg b dst i _ _
    (hop_walking cfg b dst i i _ t hw (hc.trans (target_asked cfg b dst i _ hw)))
    (.hop i index _ hi (asked_next _ _ _ hasked h))

/-- A request that is too long has the handler called at once. -/
theorem request_ends (cfg : Config) (b : Bool) (dst : Destination) (i index : ℕ) (m : Life)
    (hw : Walking cfg b dst i m.state)
    (h : ¬ Accepted (hopCreds cfg.output i) (target cfg.output dst i)) :
    Held.Brings (writeConnectRequest addressText i (target cfg.output dst i) index) m
      (Ends cfg b false) := by
  obtain ⟨e,he,hr⟩ := write_refused (m.state.hop i) (target cfg.output dst i)
    ((target_asked cfg b dst i _ hw).symm ▸ h)
  have hw' := hop_walking cfg b dst i i _ (m.state.hop i) hw (target_asked cfg b dst i _ hw)
  have hends := called_ends addressText cfg b ⟨false,e,index,{}⟩
    (m.modify (·.setHop i (m.state.hop i))) hw'.wired hw'.idle hw'.standing.handler
  refine hends.after _ ?_
  rw [writeConnectRequest, hr]
  exact if_pos he

/-- With `i` hops behind it the output asks the next hop, or has arrived. -/
theorem connectNext_eq (cfg : Config) (b : Bool) (dst : Destination) (i index : ℕ)
    (err : ErrorCode) (m : Life) (hw : Walking cfg b dst i m.state) (he : ¬ err.failed)
    (hi : i ≤ hops cfg.output) :
    connectNext addressText err index m =
      if i = hops cfg.output then callAndClearHandler addressText { success := true } m
      else writeConnectRequest addressText i (target cfg.output dst i) index m := by
  have hfits : hops cfg.output < 2^64 := cfg.output.fits
  have hs := hw.standing
  rw [connectNext, if_neg he]
  simp only [hs.position, hs.chain]
  by_cases h : i = hops cfg.output
  · rw [if_pos h, if_pos h]
  · have hmod : (i+1) % 2^64 = i+1 := Nat.mod_eq_of_lt (by omega)
    rw [if_neg h, if_neg h, hmod, target, hs.config, hs.dst]

theorem next_failed (cfg : Config) (b : Bool) (dst : Destination) (i index : ℕ) (err : ErrorCode)
    (m : Life) (hw : Walking cfg b dst i m.state) (he : err.failed) :
    Held.Brings (connectNext addressText err index) m (Ends cfg b false) :=
  (called_ends addressText cfg b ⟨false,err,index,{}⟩ m hw.wired hw.idle
    hw.standing.handler).of_eq (if_pos he)

theorem next_granted (cfg : Config) (b : Bool) (dst : Destination) (i index : ℕ) (err : ErrorCode)
    (m : Life) (hw : Walking cfg b dst i m.state) (he : ¬ err.failed) (hi : i ≤ hops cfg.output)
    (hasked : Asked cfg.output dst i)
    (h : i < hops cfg.output → Accepted (hopCreds cfg.output i) (target cfg.output dst i)) :
    Held.Brings (connectNext addressText err index) m
      fun w => Connecting cfg b dst i w ∨ Ends cfg b true w := by
  have heq := connectNext_eq addressText cfg b dst i index err m hw he hi
  by_cases hlast : i = hops cfg.output
  · exact ((called_ends addressText cfg b { success := true } m hw.wired hw.idle
      hw.standing.handler).mono fun _ => .inr).of_eq (heq.trans (if_pos hlast))
  · have hlt := Nat.lt_of_le_of_ne hi hlast
    exact ((request_waits addressText cfg b dst i index m hw hlt hasked (h hlt)).mono
      fun _ => .inl).of_eq (heq.trans (if_neg hlast))

theorem next_refused (cfg : Config) (b : Bool) (dst : Destination) (i index : ℕ) (err : ErrorCode)
    (m : Life) (hw : Walking cfg b dst i m.state) (he : ¬ err.failed) (hi : i < hops cfg.output)
    (h : ¬ Accepted (hopCreds cfg.output i) (target cfg.output dst i)) :
    Held.Brings (connectNext addressText err index) m (Ends cfg b false) :=
  (request_ends addressText cfg b dst i index m hw h).of_eq
    ((connectNext_eq addressText cfg b dst i index err m hw he (Nat.le_of_lt hi)).trans
      (if_neg (Nat.ne_of_lt hi)))

/-- Where the output goes from here. -/
def Goes (cfg : Config) (b : Bool) (w : World) : Prop :=
  (∃ dst i, Connecting cfg b dst i w) ∨ ∃ ok, Ends cfg b ok w

theorem next_goes (cfg : Config) (b : Bool) (dst : Destination) (i index : ℕ) (err : ErrorCode)
    (m : Life) (hw : Walking cfg b dst i m.state) (hi : i ≤ hops cfg.output)
    (hasked : Asked cfg.output dst i) :
    Held.Brings (connectNext addressText err index) m (Goes cfg b) := by
  by_cases he : err.failed
  · exact (next_failed addressText cfg b dst i index err m hw he).mono fun _ h => .inr ⟨false,h⟩
  · by_cases h : i < hops cfg.output → Accepted (hopCreds cfg.output i) (target cfg.output dst i)
    · have hnext := next_granted addressText cfg b dst i index err m hw he hi hasked h
      refine hnext.mono fun w hw' => ?_
      exact hw'.imp (fun h => ⟨dst,i,h⟩) fun h => ⟨true,h⟩
    · obtain ⟨hlt,hno⟩ := Classical.not_imp.mp h
      exact (next_refused addressText cfg b dst i index err m hw he hlt hno).mono
        fun _ h => .inr ⟨false,h⟩

theorem response_starts (i index : ℕ) (m : Life) : ∃ t : ClientSessionSocks5.Session,
    t.creds = (m.state.hop i).creds ∧ t.userReadRespHandler = true ∧
    readConnectResponse i index m = ⟨(m.state.setHop i t).start
      (.hop i index (.read 4 .connReadRespHandler)),m.locals,m.resumed⟩ := by
  obtain ⟨t,as,hc,hh,hstart,hr⟩ := client_reads (m.state.hop i)
  refine ⟨t,hc,hh,?_⟩
  rw [readConnectResponse, hr]
  simp only [hstart]
  rfl

/-- The hop at the position reads its response. -/
theorem response_waits (cfg : Config) (b : Bool) (dst : Destination) (i index : ℕ) (m : Life)
    (hw : Walking cfg b dst i m.state) (hi : i < hops cfg.output)
    (hasked : Asked cfg.output dst (i+1)) :
    Held.Brings (readConnectResponse i index) m (Connecting cfg b dst i) := by
  obtain ⟨t,hc,-,heq⟩ := response_starts i index m
  refine ⟨_,heq,?_⟩
  exact walking_waits cfg b dst i _ _
    (hop_walking cfg b dst i i _ t hw (hc.trans (target_asked cfg b dst i _ hw)))
    (.hop i index _ hi hasked)

/-- The output behind a hop that has made its connection. -/
def behind (w : World) : World :=
  w.setOutput { w.sess.output with curProxy := (w.sess.output.curProxy+1) % 2^64 }

theorem behind_walking (cfg : Config) (b : Bool) (dst : Destination) (i : ℕ) (w : World)
    (h : Walking cfg b dst i w) (hi : i < hops cfg.output) :
    Walking cfg b dst (i+1) (behind w) := by
  have hfits : hops cfg.output < 2^64 := cfg.output.fits
  obtain ⟨hwired,hs,hcreds,hdst,hidle⟩ := h
  refine ⟨wired_sess cfg b _ _ hwired rfl,⟨hs.chain,hs.config,hs.handler,hs.dst,?_⟩,hcreds,hdst,
    hidle⟩
  change (w.sess.output.curProxy+1) % 2^64 = i+1
  rw [hs.position]
  exact Nat.mod_eq_of_lt (by omega)

theorem requested_goes (cfg : Config) (b : Bool) (dst : Destination) (i index : ℕ)
    (err : ErrorCode) (m : Life) (hw : Walking cfg b dst i m.state) (hi : i < hops cfg.output)
    (hasked : Asked cfg.output dst (i+1)) :
    Held.Brings (handleWriteConnectRequest addressText err index) m (Goes cfg b) := by
  by_cases he : err.failed
  · exact ((called_ends addressText cfg b ⟨false,err,index,{}⟩ m hw.wired hw.idle
      hw.standing.handler).mono fun _ h => .inr ⟨false,h⟩).of_eq (if_pos he)
  · refine ((response_waits cfg b dst i index m hw hi hasked).mono
      fun _ h => .inl ⟨dst,i,h⟩).of_eq ?_
    rw [handleWriteConnectRequest, if_neg he, hw.standing.position]

/-- After a success the output goes on to the next hop. -/
theorem responded_eq (index : ℕ) (m : Life)
    (h : m.state.sess.output.connResp.major = .succeeded) :
    handleReadConnectResponse addressText .noError index m =
      connectNext addressText .noError ((index+1) % 2^64) (m.modify behind) := by
  rw [handleReadConnectResponse, if_neg ErrorCode.noError_failed, if_neg (not_not.mpr h)]
  rfl

theorem responded_goes (cfg : Config) (b : Bool) (dst : Destination) (i index : ℕ)
    (err : ErrorCode) (m : Life) (hw : Walking cfg b dst i m.state) (hi : i < hops cfg.output)
    (hasked : Asked cfg.output dst (i+1)) :
    Held.Brings (handleReadConnectResponse addressText err index) m (Goes cfg b) := by
  have hfails : ∀ cr : Output.ConnectResult,
      Held.Brings (callAndClearHandler addressText cr) m (Goes cfg b) := fun cr =>
    (called_ends addressText cfg b cr m hw.wired hw.idle hw.standing.handler).mono
      fun _ h => .inr ⟨_,h⟩
  by_cases he : err.failed
  · exact (hfails ⟨false,err,index,{}⟩).of_eq (if_pos he)
  · by_cases hs : m.state.sess.output.connResp.major = .succeeded
    · refine (next_goes addressText cfg b dst (i+1) ((index+1) % 2^64) .noError
        (m.modify behind) (behind_walking cfg b dst i m.state hw hi) hi hasked).after behind ?_
      rw [handleReadConnectResponse, if_neg he, if_neg (not_not.mpr hs)]
      rfl
    · exact (hfails ⟨false,.noError,index,m.state.sess.output.connResp⟩).of_eq
        ((if_neg he).trans (if_pos hs))

theorem callOutput_goes (cfg : Config) (b : Bool) (dst : Destination) (i index : ℕ)
    (h : ClientSessionSocks5.UserHandler) (err : ErrorCode) (m : Life)
    (hw : Walking cfg b dst i m.state) (hi : i < hops cfg.output)
    (hasked : Asked cfg.output dst (i+1)) :
    Held.Brings (callOutput addressText index h err) m (Goes cfg b) := by
  cases h with
  | writeReq => exact requested_goes addressText cfg b dst i index err m hw hi hasked
  | readResp => exact responded_goes addressText cfg b dst i index err m hw hi hasked

/-- A session that is being connected and waits for nothing. -/
theorem walking_connecting (cfg : Config) (b : Bool) (dst : Destination) (i : ℕ) (w : World)
    (h : Walking cfg b dst i w) : Connecting cfg b dst i w := by
  refine ⟨walking_idle cfg b dst i w h,?_,?_⟩
  · intro op hop
    rw [h.idle] at hop
    exact absurd hop List.not_mem_nil
  · rw [h.idle]
    exact Nat.zero_le _

/-- What a hop does in a callback that is over when its user was called. -/
theorem turn_goes (cfg : Config) (b : Bool) (dst : Destination) (i index : ℕ)
    (s : ClientSessionSocks5.Session) (r : ClientSessionSocks5.Effect) (m : Life)
    (hw : Walking cfg b dst i m.state) (hi : i < hops cfg.output)
    (hasked : Asked cfg.output dst (i+1)) (hs : s.creds = hopCreds cfg.output i)
    (hr : AfterCall.Client.Turn s r) :
    Held.Brings (hopDoes i index r (callOutput addressText index)) m (Goes cfg b) := by
  have hset : ∀ t : ClientSessionSocks5.Session, t.creds = s.creds →
      Walking cfg b dst i (m.state.setHop i t) := fun t ht =>
    hop_walking cfg b dst i i _ t hw (ht.trans hs)
  cases hr with
  | starts t op hr hc =>
    subst hr
    exact ⟨_,rfl,.inl ⟨dst,i,walking_waits cfg b dst i _ _ (hset t hc)
      (.hop i index op hi hasked)⟩⟩
  | calls t h err hr hc =>
    subst hr
    exact (callOutput_goes addressText cfg b dst i index h err (m.modify (·.setHop i t))
      (hset t hc) hi hasked).after _ rfl
  | fails t hr hc =>
    subst hr
    exact ⟨_,rfl,.inl ⟨dst,i,walking_connecting cfg b dst i _ (hset t hc)⟩⟩

end AddressText
end ProxySwiss.HopOwners
