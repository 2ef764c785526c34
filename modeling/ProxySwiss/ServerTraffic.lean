import ProxySwiss.SessionTransparency

/-!
# The traffic of the server

The server has one session that waits to be accepted and any number that were.
What the sessions have in common is the log and the history, and nothing that a
session does with its sockets depends on them.
-/

set_option autoImplicit false

namespace ProxySwiss.ServerTraffic
open Memory TransitionSystem StreamObject StreamLedger Ownership SessionLife SessionOwners
  RequestOwners HopReturns SessionTraffic RequestTraffic ReplyTraffic HopTraffic
  SessionTransparency
open SessionTunnel (Side readBuf)
open Session (Session)

/-- A session behind `sessSptr` and those that were accepted, in their order. -/
structure Server where
  sessSptr : Passage
  accepted : List Passage := []
  log : List Bytes := []
  history : List Bytes := []

/-- The pointers of a session lead to the log and the history of the server. -/
def lendTo (log history : List Bytes) (w : World) : World :=
  w.setSess { w.sess with log := log, history := history }

def lend (log history : List Bytes) (p : Passage) : Passage :=
  { p with life := p.life.modify (lendTo log history) }

section Steps

variable (addressText : Address → Bytes) (fuel : ℕ) (cfg : Config) (printProxyErrors : Bool)

/-- A new session waits behind the one that was accepted, or was not. -/
def handleAccept (v : Server) (err : ErrorCode) : Server :=
  let life := SessionLife.handleAccept err (lend v.log v.history v.sessSptr).life
  { sessSptr := SessionTraffic.begun cfg printProxyErrors life.state.sess.log
      life.state.sess.history
    accepted := v.accepted ++ [{ v.sessSptr with life := life }]
    log := life.state.sess.log
    history := life.state.sess.history }

def start : Server where
  sessSptr := SessionTraffic.begun cfg printProxyErrors [] []

/-- The next connection is accepted, or an operation of some session completes. -/
inductive Step : Server → Server → Prop
  | accept (v : Server) (err : ErrorCode) : Step v (handleAccept cfg printProxyErrors v err)
  | complete (v : Server) (before after : List Passage) (p q : Passage)
      (hv : v.accepted = before ++ p::after)
      (h : SessionTraffic.Step addressText fuel (lend v.log v.history p) q) :
      Step v { v with
        accepted := before ++ q::after
        log := q.life.state.sess.log
        history := q.life.state.sess.history }

end Steps

/-! The log and the history may be exchanged. -/

section Lends

variable (fuel : ℕ) (cfg : Config) (log history : List Bytes) (w : World) (l : Traffic)

theorem wired_lend (b : Bool) (h : Wired cfg b w) : Wired cfg b (lendTo log history w) :=
  wired_sess cfg b w _ h rfl

theorem fresh_lend (b : Bool) (h : Fresh cfg b w) : Fresh cfg b (lendTo log history w) :=
  ⟨wired_lend cfg log history w b h.wired,h.output,h.idle⟩

theorem walking_lend (b : Bool) (dst : Destination) (i : ℕ) (h : Walking cfg b dst i w) :
    Walking cfg b dst i (lendTo log history w) :=
  ⟨wired_lend cfg log history w b h.wired,h.standing,h.creds,h.dst,h.idle⟩

theorem gone_lend (b : Bool) (h : Gone cfg b w) : Gone cfg b (lendTo log history w) :=
  ⟨wired_lend cfg log history w b h.wired,h.idle,h.handlers,h.handler⟩

theorem hung_lend (first : Bytes) (h : Hung fuel cfg w first) :
    Hung fuel cfg (lendTo log history w) first :=
  ⟨wired_lend cfg log history w false h.wired,h.kind,h.parsed,h.idle,h.armed⟩

theorem turned_lend (n : ℕ) (h : Turned fuel cfg false w l n) :
    Turned fuel cfg false (lendTo log history w) l n := by
  cases h with
  | socks5 s c op h hn =>
    exact .socks5 s c op ⟨fresh_lend cfg log history _ false h.fresh,h.kind,h.server,h.obj,
      h.listens,h.writer,h.told,h.pending,h.waits,h.carries,h.silent⟩ hn
  | https s c op h =>
    exact .https s c op ⟨fresh_lend cfg log history _ false h.fresh,h.kind,h.server,h.obj,h.stage,
      h.pending,h.waits,h.carries,h.silent⟩
  | opened dst asked answered response h =>
    exact .opened dst asked answered response ⟨⟨walking_lend cfg log history _ false dst 0
      h.opening.walking,h.opening.pending⟩,h.hops,
      understood_frame fuel cfg w _ l dst asked answered response h.understood rfl,h.silent⟩
  | refused h hi ho => exact .refused (gone_lend cfg log history w false h) hi ho
  | hung first h ht hi ho => exact .hung first (hung_lend fuel cfg log history w first h) ht hi ho

theorem settled_lend (h : Settled fuel cfg w l) :
    Settled fuel cfg (lendTo log history w) l := by
  cases h with
  | tunnelled dst asked answered heard told response read written h =>
    exact .tunnelled dst asked answered heard told response read written
      ⟨wired_lend cfg log history w false h.wired,h.handlers,h.handler,h.requested,h.cleared,
        h.flows.tunnels,h.flows.taken,h.flows.sent,fun src =>
          flow_frame w _ src _ _ (h.flows.flow src) rfl (by cases src <;> rfl) id⟩
  | ended dst asked answered told response r h =>
    exact .ended dst asked answered told response r
      ⟨gone_lend cfg log history w false h.gone,h.concluded,h.sent,h.told⟩

theorem replied_lend (h : Replied fuel cfg w l) :
    Replied fuel cfg (lendTo log history w) l := by
  cases h with
  | replying dst asked answered response r h =>
    refine .replying dst asked answered response r ⟨wired_lend cfg log history w false h.wired,
      h.handler,h.success,h.concluded,?_,h.sent⟩
    cases h.writing with
    | socks5 s hs hread hwrite hp => exact .socks5 s hs hread hwrite hp
    | https s hs hread hp => exact .https s hs hread hp
  | settled h => exact .settled (settled_lend fuel cfg log history w l h)

theorem waiting_lend (h : Waiting cfg w l) : Waiting cfg (lendTo log history w) l :=
  ⟨fresh_lend cfg log history w true h.fresh,h.dst,h.server,h.taken,h.sent⟩

theorem going_lend (h : Going fuel cfg w l) : Going fuel cfg (lendTo log history w) l := by
  cases h with
  | turned n h => exact .turned n (turned_lend fuel cfg log history w l n h)
  | onward dst asked answered response i n h =>
    cases h with
    | hopping index base old c op h hn =>
      exact .onward dst asked answered response i n (.hopping index base old c op
        ⟨walking_lend cfg log history _ false dst i h.walking,h.lower,h.requests,h.ahead,h.obj,
          h.talks,h.pending,h.waits,h.spoken,h.carries,
          understood_frame fuel cfg w _ l dst asked answered response h.understood rfl⟩ hn)
    | replied h =>
      exact .onward dst asked answered response i n
        (.replied (replied_lend fuel cfg log history w l h))

end Lends

/-! Whole runs. -/

/-- One session waits, and every other one goes on by itself. -/
structure Orderly (fuel : ℕ) (cfg : Config) (v : Server) : Prop where
  idle : v.sessSptr.life.locals = 0
  waiting : Waiting cfg v.sessSptr.life.state v.sessSptr.traffic
  accepted : ∀ p ∈ v.accepted, p.life.locals = 0 ∧ Going fuel cfg p.life.state p.traffic

section Runs

variable (addressText : Address → Bytes) (fuel : ℕ) (cfg : Config) (printProxyErrors : Bool)

theorem orderly_start : Orderly fuel cfg (start cfg printProxyErrors) :=
  ⟨rfl,begun_waiting cfg printProxyErrors [] [],by simp [start]⟩

/-- A session that goes on does so with the log and the history of the others. -/
theorem going_step (log history : List Bytes) (p q : Passage) (hl : p.life.locals = 0)
    (hg : Going fuel cfg p.life.state p.traffic)
    (h : SessionTraffic.Step addressText fuel (lend log history p) q) :
    q.life.locals = 0 ∧ Going fuel cfg q.life.state q.traffic := by
  have hlent := going_lend fuel cfg log history _ _ hg
  cases h with
  | accept err hs => exact absurd (hs.symm.trans (going_accepted fuel cfg _ _ hlent)) (by simp)
  | complete before after op res hp ha hs =>
    obtain ⟨w,ns,hm,hw⟩ := stage_completes addressText fuel cfg (lend log history p).life p.traffic
      before after op res hp ha (.going hlent) hs
    rw [hm]
    exact ⟨hl,hw⟩

theorem orderly_step (v v' : Server) (h : Orderly fuel cfg v)
    (ht : Step addressText fuel cfg printProxyErrors v v') : Orderly fuel cfg v' := by
  cases ht with
  | accept err =>
    obtain ⟨w,hm,hw⟩ := accept_turns fuel cfg err v.sessSptr.traffic
      (lend v.log v.history v.sessSptr).life
      (waiting_lend cfg v.log v.history _ _ h.waiting)
    refine ⟨rfl,begun_waiting cfg printProxyErrors _ _,fun p hp => ?_⟩
    rcases List.mem_append.mp hp with hp | hp
    · exact h.accepted p hp
    · rw [List.mem_singleton.mp hp, hm]
      exact ⟨h.idle,.turned 7 hw⟩
  | complete before after p q hv hq =>
    refine ⟨h.idle,h.waiting,fun x hx => ?_⟩
    obtain ⟨hl,hg⟩ := h.accepted p (by simp [hv])
    rcases List.mem_append.mp hx with hx | hx
    · exact h.accepted x (by simp [hv, hx])
    · rcases List.mem_cons.mp hx with rfl | hx
      · exact going_step addressText fuel cfg v.log v.history p x hl hg hq
      · exact h.accepted x (by simp [hv, hx])

end Runs

end ProxySwiss.ServerTraffic
