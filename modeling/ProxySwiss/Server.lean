import ProxySwiss.FirstOccurrences
import ProxySwiss.SessionTunnel

/-!
# The server and its sessions

The server accepts one connection after the other and gives every session that
it starts its one log and its one history. A session changes them only where a
connect of its output has succeeded, and its callbacks run in any order with
those of the others.
-/

set_option autoImplicit false
set_option linter.dupNamespace false

namespace ProxySwiss.Server
open Memory CallbackObject FirstOccurrences
open Session (Session)

/-- A session that has been started, and what is outstanding for it. -/
structure Live where
  sess : Session
  pending : List Session.Op

/-- The session behind `sessSptr` waits for a connection. `connects` is kept to
state what a run did: the outcome of every connect, with its destination. -/
structure Server where
  cfg : Config
  printProxyErrors : Bool
  sessSptr : Option Session := none
  accepted : List Live := []
  log : List Bytes := []
  history : List Bytes := []
  connects : List (Destination × Output.ConnectResult) := []

/-- The pointers of a session lead to the log and the history of the server. -/
def lend (v : Server) (s : Session) : Session := { s with log := v.log, history := v.history }

def connectResult : Session.Event → Option Output.ConnectResult
  | .connectResult cr => some cr
  | _ => none

def connectResults (es : List Session.Event) : List Output.ConnectResult :=
  es.filterMap connectResult

/-- A callback of a session has returned `r`. -/
def settle (v : Server) (before after : List Live) (pending : List Session.Op)
    (r : Session.Effect) : Server :=
  { v with
    accepted := before ++ ⟨r.1,pending ++ started r.2⟩::after
    log := r.1.log
    history := r.1.history
    connects := v.connects ++ (connectResults (emitted r.2)).map (r.1.dst,·) }

def doAccept (v : Server) : Server :=
  { v with
    sessSptr := some { Session.create v.cfg with printProxyErrors := v.printProxyErrors } }

def start (cfg : Config) (printProxyErrors : Bool) : Server :=
  doAccept { cfg := cfg, printProxyErrors := printProxyErrors }

section AddressText

variable (addressText : Address → Bytes)

def handleAccept (v : Server) (err : ErrorCode) : Server :=
  doAccept <| match v.sessSptr with
    | some s =>
      if err.failed then v
      else settle v v.accepted [] [] (Session.start addressText (lend v s))
    | none => v

/-- The next connection is accepted, or an operation of some session completes,
with any result. A callback of a tunnel may run at any time. -/
inductive Step : Server → Server → Prop
  | accept (v : Server) (err : ErrorCode) : Step v (handleAccept addressText v err)
  | complete (v : Server) (before after : List Live) (s : Session) (ops ops' : List Session.Op)
      (op : Session.Op) (res : Session.Completion)
      (hv : v.accepted = before ++ ⟨s,ops ++ op::ops'⟩::after) :
      Step v (settle v before after (ops ++ ops') (Session.done addressText op res (lend v s)))
  | tunnel (v : Server) (before after : List Live) (s : Session) (ops : List Session.Op)
      (k : SessionTunnel.Callback) (buf : SessionTunnel.Side) (data : Bytes) (err : ErrorCode)
      (n : ℕ) (hv : v.accepted = before ++ ⟨s,ops⟩::after) :
      Step v (settle v before after ops
        ((SessionTunnel.run k (SessionTunnel.fillBuf (lend v s) buf data) err n).1,[]))

end AddressText

/-! What a session writes: the same entry for each of its connects that succeed. -/

def journal (s : Session) : Journal Bytes := ⟨s.log,s.history⟩

def successes (es : List Session.Event) : List Output.ConnectResult :=
  (connectResults es).filter (·.success)

theorem connectResults_append (es es' : List Session.Event) :
    connectResults (es ++ es') = connectResults es ++ connectResults es' :=
  List.filterMap_append

theorem successes_append (es es' : List Session.Event) :
    successes (es ++ es') = successes es ++ successes es' := by
  rw [successes, connectResults_append, List.filter_append]
  rfl

/-- Nothing is written, and no connect is reported. -/
structure Quiet (s : Session) (r : Session.Effect) : Prop where
  dst : r.1.dst = s.dst
  journal : journal r.1 = journal s
  events : connectResults (emitted r.2) = []

theorem quiet_idle (s : Session) : Quiet s (s,[]) := ⟨rfl,rfl,rfl⟩

theorem quiet_closeAll (s : Session) : Quiet s (Session.closeAll s,[]) := ⟨rfl,rfl,rfl⟩

theorem quiet_emit (s : Session) (e : Session.Event) (r : Session.Effect)
    (he : connectResult e = none) (h : Quiet s r) : Quiet s (Session.emit e r) := by
  refine ⟨h.dst,h.journal,?_⟩
  have hevents := h.events
  simp only [Session.emit, emitted_emit, connectResults] at hevents ⊢
  rw [List.filterMap_cons_none he, hevents]

theorem Quiet.append {s : Session} {r r' : Session.Effect} (h : Quiet s r) (h' : Quiet r.1 r') :
    Quiet s (r'.1,r.2 ++ r'.2) := by
  refine ⟨h'.dst.trans h.dst,h'.journal.trans h.journal,?_⟩
  rw [emitted_append, connectResults_append, h.events, h'.events]
  rfl

theorem quiet_assertThat (s : Session) (holds : Bool) (r : Session.Effect) (h : Quiet s r) :
    Quiet s (Session.assertThat holds r) := by
  cases holds with
  | false => exact quiet_emit s .assertFailed r rfl h
  | true => exact h

theorem quiet_responseWritten (s : Session) (err : ErrorCode) :
    Quiet s (Session.handleWriteConnectResponse s err) := by
  apply quiet_emit s _ _ rfl
  split_ifs
  · exact quiet_closeAll s
  · exact quiet_closeAll s
  · exact ⟨rfl,rfl,rfl⟩

theorem quiet_respond (s : Session) (connResp : ConnectResponse) :
    Quiet s (Session.writeConnectResponse s connResp) := by
  apply quiet_emit s _ _ rfl
  split
  · exact quiet_assertThat s _ _ (quiet_responseWritten s .noError)
  · exact quiet_assertThat s _ _ ⟨rfl,rfl,rfl⟩

theorem quiet_printed (s : Session) (connRes : Output.ConnectResult) :
    Quiet s ((Session.printProxyError s connRes).1,
      (Session.printProxyError s connRes).2.map .emit) := by
  unfold Session.printProxyError
  split_ifs
  · split <;> exact ⟨rfl,rfl,rfl⟩
  · exact ⟨rfl,rfl,rfl⟩
  · exact ⟨rfl,rfl,rfl⟩

theorem quiet_fill (s : Session) (buf : SessionTunnel.Side) (data : Bytes) (r : Session.Effect)
    (h : Quiet (SessionTunnel.fillBuf s buf data) r) : Quiet s r := by
  cases buf <;> exact ⟨h.dst,h.journal,h.events⟩

/-- The callbacks of a tunnel only close the sockets. -/
theorem quiet_tunnel (s : Session) (k : SessionTunnel.Callback) (buf : SessionTunnel.Side)
    (data : Bytes) (err : ErrorCode) (n : ℕ) :
    Quiet s ((SessionTunnel.run k (SessionTunnel.fillBuf s buf data) err n).1,[]) := by
  apply quiet_fill s buf data
  generalize SessionTunnel.fillBuf s buf data = t
  have hread : ∀ begin sock, (∀ u m, Quiet u ((begin u m).1,[])) →
      Quiet t ((SessionTunnel.handleRead begin sock t err n).1,[]) := by
    intro begin sock hbegin
    unfold SessionTunnel.handleRead
    split_ifs
    · exact quiet_idle t
    · exact quiet_closeAll t
    · exact hbegin t n
  have hwrite : ∀ begin, (∀ u, Quiet u ((begin u).1,[])) →
      Quiet t ((SessionTunnel.handleWrite begin t err n).1,[]) := by
    intro begin hbegin
    unfold SessionTunnel.handleWrite
    split_ifs
    · exact quiet_closeAll t
    · exact hbegin t
  cases k with
  | handleInputRead => exact hread _ _ fun u _ => quiet_idle u
  | handleOutputRead => exact hread _ _ fun u _ => quiet_idle u
  | handleInputWrite => exact hwrite _ fun u => quiet_idle u
  | handleOutputWrite => exact hwrite _ fun u => quiet_idle u

section AddressText

variable (addressText : Address → Bytes)

/-- The destination stays, and each success is noted under it. -/
structure Noted (s : Session) (r : Session.Effect) : Prop where
  dst : r.1.dst = s.dst
  journal : journal r.1 = ((successes (emitted r.2)).map fun _ =>
    Session.idStr addressText s.dst).foldl Journal.note (journal s)

theorem Quiet.noted {s : Session} {r : Session.Effect} (h : Quiet s r) :
    Noted addressText s r := by
  refine ⟨h.dst,?_⟩
  rw [successes, h.events, h.journal]
  rfl

/-- What is done behind one another is noted in that order. -/
theorem Noted.append {s : Session} {r r' : Session.Effect} (h : Noted addressText s r)
    (h' : Noted addressText r.1 r') : Noted addressText s (r'.1,r.2 ++ r'.2) := by
  refine ⟨h'.dst.trans h.dst,?_⟩
  rw [h'.journal, h.journal, h.dst, emitted_append, successes_append, List.map_append,
    List.foldl_append]

theorem journal_remember (s : Session) :
    journal (Session.remember addressText s) =
      (journal s).note (Session.idStr addressText s.dst) := by
  unfold Session.remember journal Journal.note
  dsimp only
  split_ifs <;> rfl

theorem dst_remember (s : Session) : (Session.remember addressText s).dst = s.dst := by
  unfold Session.remember
  dsimp only
  split_ifs <;> rfl

theorem successes_report (connRes : Output.ConnectResult) (r : Session.Effect)
    (h : connectResults (emitted r.2) = []) :
    successes (emitted (Session.emit (.connectResult connRes) r).2) =
      if connRes.success then [connRes] else [] := by
  have hreport : connectResults (emitted (Session.emit (.connectResult connRes) r).2) =
      connRes::connectResults (emitted r.2) := rfl
  rw [successes, hreport, h, List.filter_singleton]
  cases connRes.success <;> rfl

theorem noted_success (s : Session) (connRes : Output.ConnectResult)
    (hs : connRes.success = true) :
    Noted addressText s (Session.handleConnectOutput addressText s connRes) := by
  generalize ht : ({ s with outputConnRes := connRes } : Session) = t
  have hdst : t.dst = s.dst := by rw [← ht]
  have hjournal : journal t = journal s := by rw [← ht]; rfl
  have hr : Session.handleConnectOutput addressText s connRes =
      Session.emit (.connectResult connRes)
        (Session.writeConnectResponse (Session.remember addressText t) ⟨.succeeded⟩) := by
    rw [← ht]
    unfold Session.handleConnectOutput
    simp only [if_pos hs]
  have hq := quiet_respond (Session.remember addressText t) ⟨.succeeded⟩
  refine ⟨?_,?_⟩
  · rw [hr, ← hdst, ← dst_remember addressText t]
    exact hq.dst
  · rw [hr, successes_report connRes _ hq.events, if_pos hs, ← hjournal, ← hdst]
    exact hq.journal.trans (journal_remember addressText t)

theorem noted_failure (s : Session) (connRes : Output.ConnectResult)
    (hs : connRes.success = false) :
    Noted addressText s (Session.handleConnectOutput addressText s connRes) := by
  obtain ⟨p,hp,hr⟩ : ∃ p : Session.Effect, Quiet s p ∧
      Session.handleConnectOutput addressText s connRes = Session.emit (.connectResult connRes)
        ((Session.writeConnectResponse p.1 (Session.failureResponse connRes)).1,
          p.2 ++ (Session.writeConnectResponse p.1 (Session.failureResponse connRes)).2) := by
    unfold Session.handleConnectOutput
    simp only [hs, Bool.false_eq_true, if_false]
    by_cases hf : connRes.err.failed
    · have hq := quiet_printed { s with outputConnRes := connRes } connRes
      exact ⟨_,⟨hq.dst,hq.journal,hq.events⟩,by simp only [if_pos hf]⟩
    · exact ⟨({ s with outputConnRes := connRes },[]),⟨rfl,rfl,rfl⟩,by simp [if_neg hf]⟩
  have hq := hp.append (quiet_respond p.1 (Session.failureResponse connRes))
  rw [hr]
  refine ⟨hq.dst,?_⟩
  rw [successes_report connRes _ hq.events, hs]
  exact hq.journal

/-- The one place where an entry is written. -/
theorem noted_connected (s : Session) (connRes : Output.ConnectResult) :
    Noted addressText s (Session.handleConnectOutput addressText s connRes) := by
  cases hs : connRes.success with
  | true => exact noted_success addressText s connRes hs
  | false => exact noted_failure addressText s connRes hs

theorem noted_runOutput (s : Session) (as : List (Action Output.Op Output.Event)) :
    Noted addressText s (Session.runOutput addressText s as) := by
  induction as generalizing s with
  | nil => exact (quiet_idle s).noted addressText
  | cons a as ih =>
    cases a with
    | start op =>
      cases op with
      | asyncConnect address port index =>
        have h := ih { s with outputSock := true }
        exact ⟨h.dst,h.journal⟩
      | asyncResolve hostname port index => exact ⟨(ih s).dst,(ih s).journal⟩
      | writeConnectRequest hop dst index => exact ⟨(ih s).dst,(ih s).journal⟩
      | readConnectResponse hop index => exact ⟨(ih s).dst,(ih s).journal⟩
    | emit e =>
      cases e with
      | connected cr => exact (noted_connected addressText s cr).append addressText (ih _)
      | assertFailed => exact ⟨(ih s).dst,(ih s).journal⟩
      | badFunctionCall => exact ⟨(ih s).dst,(ih s).journal⟩

theorem noted_request (s : Session) (err : ErrorCode) :
    Noted addressText s (Session.handleReadConnectRequest addressText s err) := by
  unfold Session.handleReadConnectRequest
  split_ifs
  · exact (quiet_emit s _ _ rfl (quiet_closeAll s)).noted addressText
  · have h := noted_runOutput addressText
      { s with output := (s.output.connectThroughChain s.dst).1 }
      (s.output.connectThroughChain s.dst).2
    exact ⟨h.dst,h.journal⟩

/-- What a callback has written: an entry of the destination that the session
has then, for each success that it reports. -/
def Written (s : Session) (r : Session.Effect) : Prop :=
  journal r.1 = ((successes (emitted r.2)).map fun _ =>
    Session.idStr addressText r.1.dst).foldl Journal.note (journal s)

theorem Noted.written {s : Session} {r : Session.Effect} (h : Noted addressText s r) :
    Written addressText s r := by
  rw [Written, h.dst]
  exact h.journal

theorem done_written (op : Session.Op) (res : Session.Completion) (s : Session) :
    Written addressText s (Session.done addressText op res s) := by
  cases op with
  | readConnectRequest =>
    exact (noted_request addressText { s with dst := res.dst } res.err).written addressText
  | writeConnectResponse r =>
    exact ((quiet_responseWritten s res.err).noted addressText).written addressText
  | output op =>
    exact (noted_runOutput addressText
      { s with output := (Output.done op res.outcome s.output).1 }
      (Output.done op res.outcome s.output).2).written addressText

theorem start_written (s : Session) :
    Written addressText s (Session.start addressText s) := by
  unfold Session.start
  split
  · have h := noted_request addressText { s with dst := ‹Destination› } .noError
    cases s.input.srvSess.isNone with
    | false => exact h.written addressText
    | true => exact h.written addressText
  · have h := quiet_assertThat s s.input.srvSess.isSome (s,[.start .readConnectRequest])
      ⟨rfl,rfl,rfl⟩
    exact (h.noted addressText).written addressText

end AddressText

end ProxySwiss.Server
