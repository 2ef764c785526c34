import ProxySwiss.SessionLife

/-!
# The session within its life

A session by itself reports what it asks of its input and lists what its output
does. Here the same calls are nested in one another. They leave the session as
its own effects do, and the operations of the output that they start are those
that the session starts.
-/

set_option autoImplicit false

namespace ProxySwiss.SessionNesting
open Memory CallbackObject Ownership SessionLife
open Session (Session)

@[simp] theorem hold_state (body : Life → Life) (m : Life) :
    (Held.hold body m).state = (body { m with locals := m.locals+1 }).state := rfl

@[simp] theorem modify_state (g : World → World) (m : Life) :
    (Held.modify g m).state = g m.state := rfl

@[simp] theorem assert_session (holds : Bool) (r : Session.Effect) :
    (Session.assertThat holds r).1 = r.1 := by
  cases holds <;> rfl

theorem written_session (err : ErrorCode) (m : Life) :
    (handleWriteConnectResponse err m).state.sess =
      (Session.handleWriteConnectResponse m.state.sess err).1 := by
  unfold handleWriteConnectResponse Session.handleWriteConnectResponse
  split_ifs
  · rfl
  · rfl
  · exact (SessionTunnel.makeTunnel_session m.state.sess).1.symm

theorem respond_session (r : ConnectResponse) (m : Life) :
    (writeConnectResponse r m).state.sess = (Session.writeConnectResponse m.state.sess r).1 := by
  unfold writeConnectResponse Session.writeConnectResponse
  cases m.state.sess.input.cfgInput with
  | tunnel d => exact (written_session .noError m).trans (assert_session _ _).symm
  | proxyServer t =>
    rcases m.state.srvSess with - | s | s <;>
      exact (assert_session m.state.sess.input.srvSess.isSome
        (m.state.sess,[.start (.writeConnectResponse r)])).symm

section AddressText

variable (addressText : Address → Bytes)

theorem connected_session (cr : Output.ConnectResult) (m : Life) :
    (handleConnectOutput addressText cr m).state.sess =
      (Session.handleConnectOutput addressText m.state.sess cr).1 := by
  unfold handleConnectOutput Session.handleConnectOutput
  by_cases hs : cr.success = true
  · simp only [hs, if_true, hold_state]
    exact respond_session _ _
  · by_cases he : cr.err.failed
    · simp only [hs, he, if_true, Bool.false_eq_true, if_false, hold_state]
      exact respond_session _ _
    · simp only [hs, he, Bool.false_eq_true, if_false, hold_state]
      exact respond_session _ _

/-- The output calls its handler, and the session is bound to it. -/
theorem called_session (cr : Output.ConnectResult) (m : Life) :
    (callAndClearHandler addressText cr m).state.sess =
      (Session.runOutput addressText
        { m.state.sess with output := (m.state.sess.output.callAndClearHandler cr).1 }
        (m.state.sess.output.callAndClearHandler cr).2).1 := by
  unfold callAndClearHandler Output.callAndClearHandler
  split_ifs
  · exact connected_session addressText cr _
  · rfl

/-- The operations of the output among those of the session. -/
def ofSession : Session.Op → Option Op
  | .output op => some (.output op)
  | _ => none

/-- A connect begins with one operation, and nobody is called. -/
theorem connect_starts (s : Output) (dst : Destination) : ∃ op, ∀ t : Session,
    (started (s.connectThroughChain dst).2 = [op]) ∧
    (Session.runOutput addressText t (s.connectThroughChain dst).2).1 =
      (Session.runOutput addressText t [.start op]).1 ∧
    started (Session.runOutput addressText t (s.connectThroughChain dst).2).2 =
      [.output op] := by
  have hassert : ∀ (holds : Bool) (r : Output.Effect) (op : Output.Op), r.2 = [.start op] →
      ∀ t : Session, started (Output.assertThat holds r).2 = [op] ∧
        (Session.runOutput addressText t (Output.assertThat holds r).2).1 =
          (Session.runOutput addressText t [.start op]).1 ∧
        started (Session.runOutput addressText t (Output.assertThat holds r).2).2 =
          [.output op] := by
    rintro holds ⟨o,as⟩ op rfl t
    cases holds <;> exact ⟨rfl,rfl,rfl⟩
  simp only [Output.connectThroughChain]
  split_ifs <;> exact ⟨_,hassert _ _ _ rfl⟩

/-- The session has its output connect, and the operation is outstanding. -/
theorem request_session (err : ErrorCode) (m : Life) :
    (handleReadConnectRequest err m).state.sess =
        (Session.handleReadConnectRequest addressText m.state.sess err).1 ∧
      (handleReadConnectRequest err m).state.pending = m.state.pending ++
        (started (Session.handleReadConnectRequest addressText m.state.sess err).2).filterMap
          ofSession := by
  by_cases he : err.failed
  · simp only [handleReadConnectRequest, Session.handleReadConnectRequest, if_pos he]
    exact ⟨rfl,(List.append_nil _).symm⟩
  · obtain ⟨op,hop⟩ := connect_starts addressText m.state.sess.output m.state.sess.dst
    obtain ⟨hs,hrun,hstarted⟩ := hop { m.state.sess with
      output := (m.state.sess.output.connectThroughChain m.state.sess.dst).1 }
    simp only [handleReadConnectRequest, Session.handleReadConnectRequest, if_neg he, hold_state,
      connectThroughChain, modify_state, hs, List.foldl_cons, List.foldl_nil]
    refine ⟨?_,?_⟩
    · rw [Session.emit, hrun]
      cases op <;> rfl
    · rw [Session.started_emitThat, hstarted]
      cases op <;> rfl

end AddressText
end ProxySwiss.SessionNesting
