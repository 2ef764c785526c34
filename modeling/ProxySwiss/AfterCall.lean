import ProxySwiss.ClientSessionSocks5
import ProxySwiss.ServerSessionSocks5
import ProxySwiss.ServerSessionHttps

/-!
# What follows the call of a user

A callback that ends in the call of a handler is over when the handler returns,
except where a call has succeeded: there the pointer to the variable of the
user is cleared behind the call. Every callback is cut at the end of the call
that it makes, and the clearing is what is left of it.
-/

set_option autoImplicit false

namespace ProxySwiss.AfterCall
open Memory CallbackObject StreamObject

namespace Client
open ClientSessionSocks5

/-- The branch of `conn_read_resp_addr_complete` that goes on. -/
def goesOn (k : Callback) (s : Session) (err : ErrorCode) : Bool :=
  match k with
  | .connReadRespAddrIpv4Handler | .connReadRespAddrDomainnameStrHandler
  | .connReadRespAddrIpv6Handler => !decide err.failed && s.connReadPacketHeader[1] == 0
  | _ => false

/-- The callback up to the end of the call. -/
def untilCall (k : Callback) (s : Session) (err : ErrorCode) : Effect :=
  if goesOn k s err then
    callAndClearHandler { s with connResp := ⟨.succeeded⟩ } .readResp .noError
  else run k s err

def clear (s : Session) : Session := { s with puserConnResp := false }

theorem run_cut (k : Callback) (s : Session) (err : ErrorCode) :
    run k s err =
      if goesOn k s err then (clear (untilCall k s err).1,(untilCall k s err).2)
      else untilCall k s err := by
  by_cases h : goesOn k s err
  · have hcomplete : ∀ (he : ¬ err.failed) (h0 : s.connReadPacketHeader[1] = 0),
        connReadRespAddrComplete s err =
          (clear (untilCall k s err).1,(untilCall k s err).2) := by
      intro he h0
      rw [connReadRespAddrComplete, if_neg he, if_neg (not_not.mpr h0), untilCall, if_pos h]
      rfl
    rw [if_pos h]
    cases k <;> simp only [goesOn, Bool.false_eq_true, Bool.and_eq_true, Bool.not_eq_true',
      decide_eq_false_iff_not, beq_iff_eq] at h
    all_goals exact hcomplete h.1 h.2
  · rw [if_neg h, untilCall, if_neg h]

/-- What a callback may do: start an operation, call a user or fail an assertion. -/
inductive Turn (s : Session) (r : Effect) : Prop
  | starts (t : Session) (op : Op UInt8 Callback) (hr : r = (t,[.start op]))
      (hc : t.creds = s.creds)
  | calls (t : Session) (h : UserHandler) (err : ErrorCode) (hr : r = (t,[.emit (.call h err)]))
      (hc : t.creds = s.creds)
  | fails (t : Session) (hr : r = (t,[.emit .assertFailed])) (hc : t.creds = s.creds)

theorem call_turn (s t : Session) (h : UserHandler) (err : ErrorCode) (hc : t.creds = s.creds) :
    Turn s (callAndClearHandler t h err) := by
  cases h with
  | writeReq =>
    by_cases hw : t.userWriteReqHandler
    · exact .calls { t with userWriteReqHandler := false } .writeReq err (if_pos hw) hc
    · exact .fails t (if_neg hw) hc
  | readResp =>
    by_cases hw : t.userReadRespHandler
    · exact .calls { t with userReadRespHandler := false } .readResp err (if_pos hw) hc
    · exact .fails t (if_neg hw) hc

theorem run_turn (k : Callback) (s : Session) (err : ErrorCode) (h : goesOn k s err = false) :
    Turn s (run k s err) := by
  have hcomplete : ¬ (¬ err.failed ∧ s.connReadPacketHeader[1] = 0) →
      Turn s (connReadRespAddrComplete s err) := by
    intro hno
    unfold connReadRespAddrComplete
    split_ifs with he h0
    · exact call_turn s s _ _ rfl
    · exact call_turn s _ _ _ rfl
    · exact absurd ⟨he,not_not.mp h0⟩ hno
  cases k <;> simp only [goesOn, Bool.and_eq_false_iff, Bool.not_eq_false', decide_eq_true_eq,
    beq_eq_false_iff_ne] at h <;>
    simp only [run, authWriteReqHandler, authReadRespHandler, authWriteCredsHandler,
      authReadCredsReplyHandler, connWriteReqHandler, connReadRespHandler,
      connReadRespAddrIpv4Handler, connReadRespAddrDomainnameHandler,
      connReadRespAddrDomainnameStrHandler, connReadRespAddrIpv6Handler]
  case connReadRespAddrIpv4Handler | connReadRespAddrDomainnameStrHandler |
      connReadRespAddrIpv6Handler => exact hcomplete (by tauto)
  all_goals
    split_ifs <;> first
      | exact call_turn s _ _ _ rfl
      | exact .starts _ _ rfl rfl

end Client

/-- What a callback may do while its user waits for the destination: it hangs, or
starts an operation, or calls the user, behind assertions that fail. -/
inductive Turn {σ κ ε : Type*} (armed : σ → Prop) (last : κ) (called : ErrorCode → ε)
    (failed : ε) (goes : Bool) (r : σ × List (Action (Op UInt8 κ) ε)) : Prop
  | hangs (es : List ε) (hes : ∀ e ∈ es, e = failed) (hr : r.2 = es.map .emit) (ha : armed r.1)
  | starts (es : List ε) (op : Op UInt8 κ) (hes : ∀ e ∈ es, e = failed)
      (hr : r.2 = es.map .emit ++ [.start op]) (ha : armed r.1) (hk : op.callback ≠ last)
  | calls (es : List ε) (err : ErrorCode) (hes : ∀ e ∈ es, e = failed)
      (hr : r.2 = es.map .emit ++ [.emit (called err)]) (hg : goes → err = .noError)

theorem Turn.failed {σ κ ε : Type*} {armed : σ → Prop} {last : κ} {called : ErrorCode → ε}
    {failed : ε} {r : σ × List (Action (Op UInt8 κ) ε)}
    (h : Turn armed last called failed false r) :
    Turn armed last called failed false (r.1,.emit failed::r.2) := by
  have hcons : ∀ es : List ε, (∀ e ∈ es, e = failed) → ∀ e ∈ failed::es, e = failed := by
    intro es hes e he
    exact (List.mem_cons.mp he).elim id (hes e)
  cases h with
  | hangs es hes hr ha => exact .hangs _ (hcons es hes) (congrArg _ hr) ha
  | starts es op hes hr ha hk => exact .starts _ op (hcons es hes) (congrArg _ hr) ha hk
  | calls es err hes hr hg => exact .calls _ err (hcons es hes) (congrArg _ hr) hg

namespace Socks5
open ServerSessionSocks5

/-- The three handlers of an address go on where they have delivered it. -/
def goesOn (k : Callback) (err : ErrorCode) : Bool :=
  match k with
  | .connReadReqAddrIpv4Handler | .connReadReqAddrDomainnameStrHandler
  | .connReadReqAddrIpv6Handler => !decide err.failed
  | _ => false

/-- Until the call has returned the pointer is what it was. -/
def untilCall (k : Callback) (s : Session) (err : ErrorCode) : Effect :=
  if goesOn k err then ({ (run k s err).1 with puserDst := s.puserDst },(run k s err).2)
  else run k s err

def clear (s : Session) : Session := { s with puserDst := false }

theorem deliver_clears (s : Session) (asserted : Bool) : clear (deliver s asserted).1 =
    (deliver s asserted).1 := by
  cases asserted <;> rfl

/-- Where a callback goes on it has delivered a destination. -/
theorem run_delivers (k : Callback) (s : Session) (err : ErrorCode) (h : goesOn k err) :
    ∃ dst asserted, run k s err = deliver { s with userDst := dst } asserted := by
  cases k <;> simp only [goesOn, Bool.false_eq_true, Bool.not_eq_true',
    decide_eq_false_iff_not] at h <;> exact ⟨_,_,if_neg h⟩

theorem run_cut (k : Callback) (s : Session) (err : ErrorCode) :
    run k s err =
      if goesOn k err then (clear (untilCall k s err).1,(untilCall k s err).2)
      else untilCall k s err := by
  by_cases h : goesOn k err
  · obtain ⟨dst,asserted,hd⟩ := run_delivers k s err h
    rw [if_pos h, untilCall, if_pos h, hd]
    exact Prod.ext (deliver_clears _ asserted).symm rfl
  · rw [if_neg h, untilCall, if_neg h]

abbrev ReadTurn (goes : Bool) (r : Effect) : Prop :=
  Turn (fun s : Session => s.userReadReqHandler = true) .writeConnectResponseHandler
    (Event.call .readReq) .assertFailed goes r

theorem call_turn (s : Session) (err : ErrorCode) (hs : s.userReadReqHandler = true) :
    ReadTurn false (callAndClearHandler s .readReq err) :=
  .calls [] err (by simp) (congrArg Prod.snd (if_pos hs)) (by simp)

theorem start_turn (s : Session) (op : Op UInt8 Callback) (hs : s.userReadReqHandler = true)
    (hk : op.callback ≠ .writeConnectResponseHandler) : ReadTurn false (s,[.start op]) :=
  .starts [] op (by simp) rfl hs hk

theorem deliver_calls (s : Session) (asserted : Bool) (hs : s.userReadReqHandler = true) :
    (deliver s asserted).2 =
      (if asserted then [] else [Event.assertFailed]).map .emit ++
        [.emit (.call .readReq .noError)] := by
  have hc : callAndClearHandler s .readReq .noError = _ := if_pos hs
  cases asserted <;> simp [deliver, assertThat, hc]

theorem read_turn (k : Callback) (s : Session) (err : ErrorCode)
    (hk : k ≠ .writeConnectResponseHandler) (hs : s.userReadReqHandler = true) :
    ReadTurn (goesOn k err) (untilCall k s err) := by
  by_cases h : goesOn k err
  · obtain ⟨dst,asserted,hd⟩ := run_delivers k s err h
    rw [untilCall, if_pos h, hd]
    refine .calls _ .noError ?_ (deliver_calls _ asserted hs) fun _ => rfl
    cases asserted <;> simp
  · rw [untilCall, if_neg h, eq_false_of_ne_true h]
    cases k <;> simp only [goesOn, Bool.not_eq_true', decide_eq_false_iff_not, not_not] at h <;>
      simp only [run, authReadReqHandler, authReadReqMethodsHandler, authWriteRespHandler,
        connReadReqHandler, connReadReqAddrIpv4Handler, connReadReqAddrDomainnameHandler,
        connReadReqAddrDomainnameStrHandler, connReadReqAddrIpv6Handler]
    case writeConnectResponseHandler => exact absurd rfl hk
    all_goals
      split_ifs <;> first
        | exact call_turn _ _ hs
        | exact start_turn _ _ hs (by simp [Op.callback])

theorem assert_turn (holds : Bool) (r : Effect) (h : ReadTurn false r) :
    ReadTurn false (assertThat holds r) := by
  cases holds with
  | true => exact h
  | false => exact h.failed

theorem request_turn (s : Session) : ReadTurn false (readConnectRequest s) :=
  assert_turn _ _ (assert_turn _ _ (start_turn _ _ rfl (by simp [Op.callback])))

end Socks5

namespace Https
open ServerSessionHttps

/-- The branch of `handle_read_another_line` for the empty line goes on. -/
def goesOn (k : Callback) (s : Session) (err : ErrorCode) : Bool :=
  match k with
  | .handleRead .handleReadAnotherLine => !decide err.failed && trimLine s.line == some []
  | _ => false

def untilCall (fuel : ℕ) (k : Callback) (s : Session) (err : ErrorCode) : Effect :=
  if goesOn k s err then
    ({ (run fuel k s err).1 with puserDst := s.puserDst },(run fuel k s err).2)
  else run fuel k s err

def clear (s : Session) : Session := { s with puserDst := false }

/-- An empty line is complete when the last octet of it was read. -/
theorem run_granted (fuel : ℕ) (k : Callback) (s : Session) (err : ErrorCode)
    (h : goesOn k s err) : run fuel k s err =
      (clear (callAndClearHandler { s with line := [], userDst := s.parsedDst } .noError).1,
        (callAndClearHandler { s with line := [], userDst := s.parsedDst } .noError).2) := by
  match k with
  | .writeConnectResponseHandler | .handleRead .handleReadFirstLine => simp [goesOn] at h
  | .handleRead .handleReadAnotherLine =>
    simp only [goesOn, Bool.and_eq_true, Bool.not_eq_true', decide_eq_false_iff_not,
      beq_iff_eq] at h
    have hlast : s.line.getLast? = some 0x0a := by
      by_contra hno
      simp [trimLine, hno] at h
    have hline : handleReadAnotherLine s .noError = _ := if_neg ErrorCode.noError_failed
    rw [h.2] at hline
    change handleRead fuel .handleReadAnotherLine s err = _
    rw [handleRead, if_neg h.1, readNext]
    have hboth : ∀ b : Effect, (if s.line.length = kMaxLineLen then
        callLineHandler fuel .handleReadAnotherLine s .noError
      else if s.line.getLast? = some 0x0a then
        callLineHandler fuel .handleReadAnotherLine s .noError else b) =
        handleReadAnotherLine s .noError := by
      intro b
      rw [if_pos hlast, ite_self]
      rfl
    rw [hboth, hline]
    rfl

theorem run_cut (fuel : ℕ) (k : Callback) (s : Session) (err : ErrorCode) :
    run fuel k s err =
      if goesOn k s err then (clear (untilCall fuel k s err).1,(untilCall fuel k s err).2)
      else untilCall fuel k s err := by
  by_cases h : goesOn k s err
  · rw [if_pos h, untilCall, if_pos h, run_granted fuel k s err h]
    rfl
  · rw [if_neg h, untilCall, if_neg h]

abbrev ReadTurn (goes : Bool) (r : Effect) : Prop :=
  Turn (fun s : Session => s.userReadReqHandler = true) .writeConnectResponseHandler
    (Event.call .readReq) .assertFailed goes r

theorem call_turn (s : Session) (err : ErrorCode) (hs : s.userReadReqHandler = true) :
    ReadTurn false (callAndClearHandler s err) :=
  .calls [] err (by simp) (congrArg Prod.snd (if_pos hs)) (by simp)

theorem assert_turn (holds : Bool) (r : Effect) (h : ReadTurn false r) :
    ReadTurn false (assertThat holds r) := by
  cases holds with
  | true => exact h
  | false => exact h.failed

theorem line_turn (k : LineHandler) (s : Session) (hs : s.userReadReqHandler = true) :
    ReadTurn false (readLine k s) := by
  have hr : readLine k s = ({ s with line := [0] },[.start (.read 1 (.handleRead k))]) := by
    simp [readLine, readNext, kMaxLineLen]
  rw [hr]
  exact .starts [] _ (by simp) rfl hs (by simp [Op.callback])

theorem first_turn (fuel : ℕ) (s : Session) (err : ErrorCode) (hs : s.userReadReqHandler = true) :
    ReadTurn false (handleReadFirstLine fuel s err) := by
  unfold handleReadFirstLine
  split_ifs with he
  · exact call_turn _ _ hs
  · cases trimLine s.line with
    | none => exact call_turn _ _ hs
    | some line =>
      cases hp : parseFirstLine fuel line s.parsedDst s.httpVer with
      | none => simpa only [hp] using Turn.hangs [] (by simp) rfl hs
      | some p =>
        simp only [hp]
        apply assert_turn
        split_ifs
        · exact call_turn _ _ hs
        · exact line_turn _ _ hs

theorem another_turn (s : Session) (err : ErrorCode) (hs : s.userReadReqHandler = true)
    (h : err.failed ∨ trimLine s.line ≠ some []) :
    ReadTurn false (handleReadAnotherLine s err) := by
  unfold handleReadAnotherLine
  split_ifs with he
  · exact call_turn _ _ hs
  · cases ht : trimLine s.line with
    | none => exact call_turn _ _ hs
    | some line =>
      have hline : line ≠ [] := fun h0 => (h.resolve_left he) (h0 ▸ ht)
      simp only [if_pos hline]
      exact line_turn _ _ hs

theorem handler_turn (fuel : ℕ) (k : LineHandler) (s : Session) (err : ErrorCode)
    (hs : s.userReadReqHandler = true) (h : goesOn (.handleRead k) s err = false) :
    ReadTurn false (callLineHandler fuel k s err) := by
  cases k with
  | handleReadFirstLine => exact first_turn fuel s err hs
  | handleReadAnotherLine =>
    refine another_turn s err hs ?_
    simpa [goesOn, or_iff_not_imp_left] using h

theorem read_turn (fuel : ℕ) (k : LineHandler) (s : Session) (err : ErrorCode)
    (hs : s.userReadReqHandler = true) :
    ReadTurn (goesOn (.handleRead k) s err) (untilCall fuel (.handleRead k) s err) := by
  by_cases h : goesOn (.handleRead k) s err
  · rw [untilCall, if_pos h, run_granted fuel _ s err h]
    exact .calls [] .noError (by simp) (congrArg Prod.snd (if_pos hs)) fun _ => rfl
  · have hno := eq_false_of_ne_true h
    rw [untilCall, if_neg h, hno]
    change ReadTurn false (handleRead fuel k s err)
    unfold handleRead
    split_ifs with he
    · exact handler_turn fuel k s err hs hno
    · have hok : goesOn (.handleRead k) s .noError = false := by
        rw [← hno]
        cases k <;> simp [goesOn, he, ErrorCode.noError_failed]
      unfold readNext
      split_ifs
      · exact handler_turn fuel k s _ hs hok
      · exact handler_turn fuel k s _ hs hok
      · exact .starts [] _ (by simp) rfl hs (by simp [Op.callback])

theorem request_turn (s : Session) : ReadTurn false (readConnectRequest s) :=
  assert_turn _ _ (assert_turn _ _ (line_turn _ _ rfl))

end Https
end ProxySwiss.AfterCall
