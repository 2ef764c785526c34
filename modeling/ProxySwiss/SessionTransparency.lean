import ProxySwiss.HopTraffic

/-!
# A session is transparent

Whatever completes when, what has passed the two sockets of a session is the
request of the client, what the hops have to be told for it, the response, and
behind them in both directions what the other end has sent. A session that the
server has let go of and that waits for nothing has no owner any more.
-/

set_option autoImplicit false

namespace ProxySwiss.SessionTransparency
open Memory TransitionSystem CallbackObject StreamObject StreamLedger Ownership SessionLife
  SessionOwners RequestOwners HopReturns SessionPhases SessionTraffic RequestTraffic ReplyTraffic
  HopTraffic
open SessionTunnel (Side readOp writeOp)
open ChainWalk (hops)
open ChainDialogue (Spoken)
open Session (Session)

/-! The start. -/

/-- The session waits for its connection to be accepted. -/
structure Waiting (cfg : Config) (w : World) (l : Traffic) : Prop where
  fresh : Fresh cfg true w
  dst : w.sess.dst = {}
  server : w.srvSess = (Input.create cfg.input).srvSess.map createServerSession
  taken : ∀ a, l.taken a = []
  sent : ∀ a, l.sent a = []

theorem waiting_silent (cfg : Config) (w : World) (l : Traffic) (h : Waiting cfg w l) :
    Silent l := ⟨h.taken .output,h.sent .output⟩

theorem waiting_handlers (cfg : Config) (w : World) (l : Traffic) (h : Waiting cfg w l) :
    handlers w = 0 := by
  rw [handlers, h.server]
  cases cfg.input with
  | tunnel d => rfl
  | proxyServer t => cases t <;> rfl

/-- The server session reads the first of its request. -/
theorem start_reads (m : Life) (srv srv' : ServerSession) (op : SessionLife.Op)
    (cfg : Config) (t : ServerProxyType) (Q : World → Prop) (ht : cfg.input = .proxyServer t)
    (hin : m.state.sess.input.cfgInput = cfg.input) (hs : m.state.server = some srv)
    (hr : ∀ n : Life,
      readConnectRequest srv n = Held.modify (fun w => (w.setServer srv').start op) n)
    (h : Q ((m.state.setServer srv').start op)) : Held.Brings start m Q := by
  refine (Held.brings_hold (readConnectRequest srv) m Q ?_).of_eq ?_
  · exact (Held.brings_modify _ _ Q h).of_eq (hr _)
  · simp only [start, hin.trans ht, hs]

theorem start_turns (fuel : ℕ) (cfg : Config) (l : Traffic) (m : Life)
    (h : Waiting cfg m.state l) :
    Held.Brings start m fun w => Turned fuel cfg true w l 7 := by
  have hsilent := waiting_silent cfg _ l h
  have hwired := h.fresh.wired
  cases hcfg : cfg.input with
  | tunnel d =>
    have heq : start m = Held.hold (fun m => handleReadConnectRequest .noError
        (m.modify fun w => w.setSess { w.sess with dst := d })) m := by
      simp only [start, hwired.input, hcfg]
    refine (Held.brings_hold _ m _ ?_).of_eq heq
    refine ((request_opened cfg true (Held.modify (fun w => w.setSess { w.sess with dst := d })
      { m with locals := m.locals+1 }) ?_ ?_).mono fun w hw => ?_).after _ rfl
    · exact ⟨wired_sess cfg true _ _ hwired rfl,h.fresh.output,h.fresh.idle⟩
    · intro d' hd'
      exact InputConfig.tunnel.inj (hcfg.symm.trans hd')
    · obtain ⟨hopen,hsrv,hchain⟩ := hw
      exact .opened d [] [] (fun _ => []) ⟨hopen,hchain,⟨.tunnel hcfg,
        .tunnel (hsrv.trans (hwired.tunnel d hcfg)) rfl,h.taken .input,h.sent .input⟩,hsilent⟩
  | proxyServer t =>
    have hserver : m.state.server = some (createServerSession t) := by
      rw [World.server, h.server, hcfg, h.dst]
      cases t <;> rfl
    have hfresh : ∀ srv op, Fresh cfg true { (m.state.setServer srv).start op with
        pending := [] } := fun srv op => by
      have hf := served_fresh cfg true t m.state srv hcfg h.fresh
      exact ⟨wired_pending cfg true (m.state.setServer srv) [] hf.wired,hf.output,rfl⟩
    have hpend : ∀ op, m.state.pending ++ [op] = [op] := fun op => by rw [h.fresh.idle]; rfl
    cases t with
    | socks5 =>
      let s : ServerSessionSocks5.Session := { puserDst := true, userReadReqHandler := true }
      have hbegun := ServerSocks5Run.listens_begun .any {} ⟨rfl,rfl⟩
      refine start_reads m _ (.socks5 s) (.socks5 (.read 2 .authReadReqHandler)) cfg _ _ hcfg
        hwired.input hserver (fun n => rfl) (.socks5 s
          (Conf.begun (ServerSessionSocks5.readConnectRequest {})) (.read 2 .authReadReqHandler)
          ⟨hfresh _ _,hcfg,rfl,rfl,hbegun,rfl,List.nil_prefix,rfl,hpend _,?_,hsilent⟩ (by decide))
      exact ⟨h.taken .input,h.sent .input⟩
    | https =>
      let s : ServerSessionHttps.Session := HttpsReading.begun {} []
      have hbegun := HttpsReading.stage_begun fuel .any {} ⟨rfl,rfl⟩
      have heq := HttpsReading.begun_eq {} ⟨rfl,rfl⟩
      refine start_reads m _ (.https s) (.https (.read 1 (.handleRead .handleReadFirstLine))) cfg _
        _ hcfg hwired.input hserver (fun n => ?_) (.https s
          (Conf.begun (ServerSessionHttps.readConnectRequest {}))
          (.read 1 (.handleRead .handleReadFirstLine))
          ⟨hfresh _ _,hcfg,rfl,?_,hbegun,?_,hpend _,?_,hsilent⟩)
      · simp only [readConnectRequest, createServerSession, heq]
        rfl
      · rw [heq]
        rfl
      · rw [heq]
        rfl
      · rw [heq]
        exact ⟨h.taken .input,h.sent .input⟩

/-- The server lets go of the session behind the start. -/
theorem turned_release (fuel : ℕ) (cfg : Config) (w : World) (l : Traffic) (n : ℕ)
    (h : Turned fuel cfg true w l n) : Turned fuel cfg false (release w) l n := by
  have hfresh : ∀ v : World, Fresh cfg true v → Fresh cfg false (release v) := fun v hv =>
    ⟨wired_release cfg true v hv.wired,hv.output,hv.idle⟩
  cases h with
  | socks5 s c op h hn =>
    exact .socks5 s c op ⟨hfresh _ h.fresh,h.kind,h.server,h.obj,h.listens,h.writer,h.told,
      h.pending,h.waits,h.carries,h.silent⟩ hn
  | https s c op h =>
    exact .https s c op ⟨hfresh _ h.fresh,h.kind,h.server,h.obj,h.stage,h.pending,h.waits,
      h.carries,h.silent⟩
  | opened dst asked answered response h =>
    exact .opened dst asked answered response ⟨opening_release cfg true dst w h.opening,h.hops,
      understood_frame fuel cfg w _ l dst asked answered response h.understood rfl,h.silent⟩
  | refused h hi ho =>
    exact .refused ⟨wired_release cfg true w h.wired,h.idle,h.handlers,h.handler⟩ hi ho
  | hung first h ht hi ho =>
    exact .hung first ⟨wired_release cfg false w h.wired,h.kind,h.parsed,h.idle,h.armed⟩ ht hi ho

theorem accept_turns (fuel : ℕ) (cfg : Config) (err : ErrorCode) (l : Traffic) (m : Life)
    (h : Waiting cfg m.state l) :
    Held.Brings (handleAccept err) m fun w => Turned fuel cfg false w l 7 := by
  by_cases he : err.failed
  · refine ⟨release m.state,by rw [handleAccept, if_pos he]; rfl,.refused ⟨?_,h.fresh.idle,?_,?_⟩
      (by rw [h.sent]; exact List.nil_prefix) (waiting_silent cfg _ l h)⟩
    · exact wired_release cfg true _ h.fresh.wired
    · exact waiting_handlers cfg m.state l h
    · exact congrArg Output.userConnectHandler h.fresh.output
  · obtain ⟨w,heq,hw⟩ := start_turns fuel cfg l m h
    refine ⟨release w,?_,turned_release fuel cfg w l 7 hw⟩
    rw [handleAccept, if_neg he, heq]
    rfl

/-! The stages of a session, with what has passed its sockets. -/

/-- The connection was accepted. -/
inductive Going (fuel : ℕ) (cfg : Config) (w : World) (l : Traffic) : Prop
  | turned (n : ℕ) (h : Turned fuel cfg false w l n)
  | onward (dst : Destination) (asked answered : Bytes) (response : ConnectResponse → Bytes)
      (i n : ℕ) (h : Onward fuel cfg w l dst asked answered response i n)

inductive Stage (fuel : ℕ) (cfg : Config) (w : World) (l : Traffic) : Prop
  | waiting (h : Waiting cfg w l)
  | going (h : Going fuel cfg w l)

theorem begun_waiting (cfg : Config) (printProxyErrors : Bool) (log history : List Bytes) :
    Waiting cfg (World.create cfg printProxyErrors log history) {} :=
  ⟨begun_fresh cfg printProxyErrors log history,rfl,rfl,fun _ => rfl,fun _ => rfl⟩

/-- Where one operation is outstanding, it is the one that completes. -/
theorem single_op (ops before after : List SessionLife.Op) (op x : SessionLife.Op)
    (hp : ops = before ++ op::after) (hx : ops = [x]) : before = [] ∧ after = [] ∧ op = x := by
  obtain ⟨rfl,rfl⟩ := only_pending ops before after op hp (by rw [hx]; exact Nat.le_refl 1)
  exact ⟨rfl,rfl,List.singleton_inj.mp (hp.symm.trans hx)⟩

section Complete

variable (addressText : Address → Bytes) (fuel : ℕ) (cfg : Config) (m : Life) (l : Traffic)
  (before after : List SessionLife.Op) (op : SessionLife.Op) (res : Completion)
  (hp : m.state.pending = before ++ op::after) (ha : SessionLife.Allowed res op)

include hp

theorem none_completes (h : m.state.pending = []) : False := by
  rw [h] at hp
  exact absurd hp (by simp)

include ha

theorem turned_completes (n : ℕ) (h : Turned fuel cfg false m.state l n) :
    Held.Leaves (done addressText fuel op res)
      (m.modify fun w => { w with pending := before ++ after })
      fun v => Going fuel cfg v (record m.state.sess op res l) := by
  cases h with
  | socks5 s c x h hn =>
    obtain ⟨rfl,rfl,rfl⟩ := single_op _ _ _ _ _ hp h.waits
    exact (socks5_turns fuel cfg false m.state l s c x res _ h rfl ha).mono fun _ => .turned _
  | https s c x h =>
    obtain ⟨rfl,rfl,rfl⟩ := single_op _ _ _ _ _ hp h.waits
    exact (https_turns fuel cfg m.state l s c x res _ h rfl n ha).mono fun _ => .turned n
  | opened dst asked answered response h =>
    obtain ⟨x,hx,-⟩ := h.opening.pending
    obtain ⟨rfl,rfl,rfl⟩ := single_op _ _ _ _ _ hp hx
    refine ((output_advances addressText fuel cfg l dst asked answered response x res m.state _ h
      rfl hx).mono fun v hv => ?_).leaves
    rcases hv with ⟨hv,-⟩ | ⟨i,hv⟩
    · exact .turned n (.opened dst asked answered response hv)
    · exact .onward dst asked answered response i _ hv
  | refused h hi ho => exact (none_completes m before after op hp h.idle).elim
  | hung first h ht hi ho => exact (none_completes m before after op hp h.idle).elim

theorem settled_completes (h : Settled fuel cfg m.state l) (hs : Sound res op) :
    Held.Brings (done addressText fuel op res)
      (m.modify fun w => { w with pending := before ++ after })
      fun v => Settled fuel cfg v (record m.state.sess op res l) := by
  cases h with
  | tunnelled dst asked answered heard told response read written h =>
    obtain ⟨top,rfl⟩ := h.flows.tunnels op (by simp [hp])
    exact tunnel_replies fuel cfg m.state l dst asked answered heard told response read written
      before after top res _ h hp rfl ha hs
  | ended dst asked answered told response r h =>
    exact (none_completes m before after op hp h.gone.idle).elim

/-- Behind the response the session is settled. -/
theorem replying_completes (dst : Destination) (asked answered : Bytes)
    (response : ConnectResponse → Bytes) (r : ConnectResponse)
    (h : Replying fuel cfg m.state l dst asked answered response r) :
    Held.Brings (done addressText fuel op res)
      (m.modify fun w => { w with pending := before ++ after })
      fun v => Settled fuel cfg v (record m.state.sess op res l) := by
  obtain ⟨msg,hmsg⟩ : ∃ msg, msg = response r := ⟨_,rfl⟩
  cases hmsg ▸ h.writing with
  | socks5 s hsrv hread hwrite hx =>
    obtain ⟨rfl,rfl,rfl⟩ := single_op _ _ _ _ _ hp hx
    exact socks5_replies fuel cfg m.state l dst asked answered response r res msg s _ h rfl hmsg
      hsrv hread hwrite ha
  | https s hsrv hread hx =>
    obtain ⟨rfl,rfl,rfl⟩ := single_op _ _ _ _ _ hp hx
    exact https_replies fuel cfg m.state l dst asked answered response r res msg s _ h rfl hmsg
      hsrv hread ha

theorem replied_completes (h : Replied fuel cfg m.state l) (hs : Sound res op) :
    Held.Brings (done addressText fuel op res)
      (m.modify fun w => { w with pending := before ++ after })
      fun v => Settled fuel cfg v (record m.state.sess op res l) := by
  cases h with
  | replying dst asked answered response r h =>
    exact replying_completes addressText fuel cfg m l before after op res hp ha dst asked answered
      response r h
  | settled h => exact settled_completes addressText fuel cfg m l before after op res hp ha h hs

theorem onward_completes (dst : Destination) (asked answered : Bytes)
    (response : ConnectResponse → Bytes) (i n : ℕ)
    (h : Onward fuel cfg m.state l dst asked answered response i n) (hs : Sound res op) :
    Held.Leaves (done addressText fuel op res)
      (m.modify fun w => { w with pending := before ++ after })
      fun v => Going fuel cfg v (record m.state.sess op res l) := by
  cases h with
  | hopping index base old c x h hn =>
    obtain ⟨rfl,rfl,rfl⟩ := single_op _ _ _ _ _ hp h.waits
    exact (hop_goes addressText fuel cfg l dst asked answered response i index base old c x res
      m.state _ h rfl ha).mono fun v hv => hv.elim fun j hv => .onward dst asked answered response
        j _ hv
  | replied h =>
    exact (replied_completes addressText fuel cfg m l before after op res hp ha h hs).leaves.mono
      fun v hv => .onward dst asked answered response i n (.replied (.settled hv))

/-- Whatever completes, at whichever stage. -/
theorem stage_completes (h : Stage fuel cfg m.state l) (hs : Sound res op) :
    Held.Leaves (done addressText fuel op res)
      (m.modify fun w => { w with pending := before ++ after })
      fun v => Going fuel cfg v (record m.state.sess op res l) := by
  cases h with
  | waiting h => exact (none_completes m before after op hp h.fresh.idle).elim
  | going h =>
    cases h with
    | turned n h => exact turned_completes addressText fuel cfg m l before after op res hp ha n h
    | onward dst asked answered response i n h =>
      exact onward_completes addressText fuel cfg m l before after op res hp ha dst asked answered
        response i n h hs

end Complete

theorem going_accepted (fuel : ℕ) (cfg : Config) (w : World) (l : Traffic)
    (h : Going fuel cfg w l) : w.sessSptr = false := by
  cases h with
  | turned n h =>
    cases h with
    | socks5 s c op h hn => exact h.fresh.wired.sptr
    | https s c op h => exact h.fresh.wired.sptr
    | opened dst asked answered response h => exact h.opening.walking.wired.sptr
    | refused h hi ho => exact h.wired.sptr
    | hung first h ht hi ho => exact h.wired.sptr
  | onward dst asked answered response i n h =>
    cases h with
    | hopping index base old c op h hn => exact h.walking.wired.sptr
    | replied h =>
      cases h with
      | replying dst asked answered response r h => exact h.wired.sptr
      | settled h =>
        cases h with
        | tunnelled dst asked answered heard told response read written h => exact h.wired.sptr
        | ended dst asked answered told response r h => exact h.gone.wired.sptr

/-- Nothing is in a frame between two callbacks. -/
structure Staged (fuel : ℕ) (cfg : Config) (p : Passage) : Prop where
  locals : p.life.locals = 0
  stage : Stage fuel cfg p.life.state p.traffic

section Runs

variable (addressText : Address → Bytes) (fuel : ℕ) (cfg : Config)

theorem stage_accepting (w : World) (l : Traffic) (h : Stage fuel cfg w l)
    (hs : w.sessSptr = true) : Waiting cfg w l := by
  cases h with
  | waiting h => exact h
  | going h => exact absurd (hs.symm.trans (going_accepted fuel cfg w l h)) (by simp)

theorem staged_step (p q : Passage) (h : Staged fuel cfg p)
    (ht : SessionTraffic.Step addressText fuel p q) : Staged fuel cfg q := by
  cases ht with
  | accept err hs =>
    obtain ⟨w,hm,hw⟩ := accept_turns fuel cfg err p.traffic p.life
      (stage_accepting fuel cfg _ _ h.stage hs)
    refine ⟨?_,?_⟩
    · rw [hm]
      exact h.locals
    · rw [hm]
      exact .going (.turned 7 hw)
  | complete before after op res hp ha hs =>
    obtain ⟨w,ns,hm,hw⟩ := stage_completes addressText fuel cfg p.life p.traffic before after op
      res hp ha h.stage hs
    refine ⟨?_,?_⟩
    · rw [hm]
      exact h.locals
    · rw [hm]
      exact .going hw

theorem run_staged (printProxyErrors : Bool) (log history : List Bytes) (p : Passage)
    (h : Run (SessionTraffic.Step addressText fuel)
      (SessionTraffic.begun cfg printProxyErrors log history) p) : Staged fuel cfg p :=
  run_invariant (Staged fuel cfg) (fun p q => staged_step addressText fuel cfg p q) h
    ⟨rfl,.waiting (begun_waiting cfg printProxyErrors log history)⟩

end Runs

/-! What a stage says of the traffic. -/

theorem phase_script (creds : Credentials) (dst : Destination) (old : ConnectResponse)
    (c : ClientSocks5Run.ClientState) (h : ClientSocks5Run.Phase .any creds dst old c) :
    StreamObject.sent c <+: Socks5.preamble creds ++ Socks5.connectRequest dst := by
  have hpre : Socks5.preamble creds <+: Socks5.preamble creds ++ Socks5.connectRequest dst :=
    List.prefix_append _ _
  cases h with
  | asking h =>
    cases h with
    | greet hw h => exact h.sent ▸ List.nil_prefix
    | method hw h => exact h.sent ▸ Socks5.greeting_preamble creds dst
    | credentials hc hw h => exact h.sent ▸ Socks5.greeting_preamble creds dst
    | status hc hw h => exact h.sent ▸ hpre
    | request hw h => exact h.sent ▸ hpre
    | written hr hresp h => exact h.sent ▸ List.prefix_refl _
    | refused err t u herr ho hresp why h =>
      exact h.sent ▸ ClientSocks5Run.ordered_script creds dst t u ho
  | reading h =>
    cases h with
    | header hr h => exact h.sent ▸ List.prefix_refl _
    | length rep rsv hrep hr hh h => exact h.sent ▸ List.prefix_refl _
    | address rep rsv atyp pre n k hrep hk hf hr hh h => exact h.sent ▸ List.prefix_refl _
    | answered rep m hm hresp h => exact h.sent ▸ List.prefix_refl _
    | failed err t herr hresp why h => exact h.sent ▸ List.prefix_refl _

section Passed

variable (fuel : ℕ) (cfg : Config) (w : World) (l : Traffic)

/-- The client is not told anything while the chain is walked. -/
theorem understood_passed (dst : Destination) (asked answered : Bytes)
    (response : ConnectResponse → Bytes)
    (h : Understood fuel cfg w l dst asked answered response)
    (ht : Scripted cfg.output dst (l.sent .output)) : Passed fuel cfg w l :=
  .connecting dst asked answered [] response ⟨.unknownError⟩ h.requested h.taken
    (h.sent.trans (List.append_nil _).symm) List.nil_prefix ht fun hr => absurd hr (by simp)

theorem turned_passed (n : ℕ) (h : Turned fuel cfg false w l n) : Passed fuel cfg w l := by
  cases h with
  | socks5 s c op h hn =>
    refine .asking ?_ h.silent.1 h.silent.2
    rw [h.carries.sent]
    exact h.told
  | https s c op h =>
    refine .asking ?_ h.silent.1 h.silent.2
    rw [h.carries.sent, stage_sent fuel c h.stage]
    exact List.nil_prefix
  | opened dst asked answered response h =>
    refine understood_passed fuel cfg w l dst asked answered response h.understood
      ⟨0,Nat.zero_le _,asked_none _ _,?_⟩
    rw [h.silent.2]
    exact List.nil_prefix
  | refused h hi ho => exact .asking hi ho.1 ho.2
  | hung first h ht hi ho => exact .asking (hi ▸ List.nil_prefix) ho.1 ho.2

theorem settled_passed (h : Settled fuel cfg w l) : Passed fuel cfg w l := by
  cases h with
  | tunnelled dst asked answered heard told response read written h =>
    exact .relaying dst asked answered heard told (read .input) (written .input) (read .output)
      (written .output) response h.requested h.cleared (h.flows.taken .input) (h.flows.sent .input)
      (h.flows.taken .output) (h.flows.sent .output) (h.flows.flow .input) (h.flows.flow .output)
  | ended dst asked answered told response r h =>
    exact .connecting dst asked answered told response r h.concluded.requested h.concluded.taken
      h.sent h.told h.concluded.told h.concluded.through

theorem replied_passed (h : Replied fuel cfg w l) : Passed fuel cfg w l := by
  cases h with
  | replying dst asked answered response r h =>
    exact .connecting dst asked answered [] response r h.concluded.requested h.concluded.taken
      (h.sent.trans (List.append_nil _).symm) List.nil_prefix h.concluded.told h.concluded.through
  | settled h => exact settled_passed fuel cfg w l h

theorem going_passed (h : Going fuel cfg w l) : Passed fuel cfg w l := by
  cases h with
  | turned n h => exact turned_passed fuel cfg w l n h
  | onward dst asked answered response i n h =>
    cases h with
    | replied h => exact replied_passed fuel cfg w l h
    | hopping index base old c op h hn =>
      refine understood_passed fuel cfg w l dst asked answered response h.understood
        ⟨i+1,h.lower,h.requests,?_⟩
      rw [h.carries.sent]
      exact (List.prefix_append_right_inj _).mpr (phase_script _ _ old c h.talks)

theorem stage_passed (h : Stage fuel cfg w l) : Passed fuel cfg w l := by
  cases h with
  | waiting h =>
    exact .asking (by rw [h.sent]; exact List.nil_prefix) (h.taken .output) (h.sent .output)
  | going h => exact going_passed fuel cfg w l h

end Passed

/-- In every state of every run the sockets have carried what a transparent
session carries. -/
theorem session_passes (addressText : Address → Bytes) (fuel : ℕ) (cfg : Config)
    (printProxyErrors : Bool) (log history : List Bytes) (p : Passage)
    (h : Run (SessionTraffic.Step addressText fuel)
      (SessionTraffic.begun cfg printProxyErrors log history) p) :
    Passed fuel cfg p.life.state p.traffic :=
  stage_passed fuel cfg _ _ (run_staged addressText fuel cfg printProxyErrors log history p h).stage

def directConfig : Config := ⟨.tunnel { port := 80 },.direct⟩

/-- Two octets of the client have been relayed. -/
theorem session_passes_two : ∃ p,
    Run (SessionTraffic.Step (fun _ => []) 0) (SessionTraffic.begun directConfig false [] []) p ∧
      Passed 0 directConfig p.life.state p.traffic ∧ p.traffic.taken .input = [1,2] ∧
        p.traffic.sent .output = [1,2] := by
  have hrun : Run (SessionTraffic.Step (fun _ => []) 0)
      (SessionTraffic.begun directConfig false [] []) _ :=
    (((Relation.ReflTransGen.single (.accept _ .noError rfl)).tail
      (.complete _ [] [] _ {} rfl trivial trivial)).tail
      (.complete _ [] [.tunnel (readOp .output)] (.tunnel (readOp .input)) { data := [1,2] } rfl
        (show 2 ≤ 4096 by decide) trivial)).tail
      (.complete _ [.tunnel (readOp .output)] [] (.tunnel (writeOp .input 2)) { data := [1,2] }
        rfl (Nat.le_refl 2) (fun _ => rfl))
  exact ⟨_,hrun,session_passes _ 0 directConfig false [] [] _ hrun,rfl,rfl⟩

/-! The end. -/

end ProxySwiss.SessionTransparency
