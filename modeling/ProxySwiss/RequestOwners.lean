import ProxySwiss.HopReturns

/-!
# The owners while a request is read

The server session has the handler that it will call with the request, until it
calls the copy. The output stores the handler of the session before that copy is
gone, so a server session that goes on after the call finds an owner.
-/

set_option autoImplicit false

namespace ProxySwiss.RequestOwners
open Memory CallbackObject Ownership SessionLife SessionOwners HopOwners HopReturns
open ChainWalk (Standing hops target)
open ChainDialogue (hopCreds)
open Session (Session)

/-- An operation that the server session waits for before it calls its user. -/
inductive Reads : ServerSession → Op → Prop
  | socks5 (s : ServerSessionSocks5.Session)
      (op : StreamObject.Op UInt8 ServerSessionSocks5.Callback)
      (hk : op.callback ≠ .writeConnectResponseHandler) : Reads (.socks5 s) (.socks5 op)
  | https (s : ServerSessionHttps.Session)
      (op : StreamObject.Op UInt8 ServerSessionHttps.Callback)
      (hk : op.callback ≠ .writeConnectResponseHandler) : Reads (.https s) (.https op)

/-- The server session has the handler that is to be called with the request. -/
def Armed : ServerSession → Prop
  | .socks5 s => s.userReadReqHandler = true
  | .https s => s.userReadReqHandler = true

/-- Nothing is outstanding and the output is as it was created. -/
structure Fresh (cfg : Config) (b : Bool) (w : World) : Prop where
  wired : Wired cfg b w
  output : w.sess.output = Output.create cfg.output
  idle : w.pending = []

structure Listening (cfg : Config) (b : Bool) (w : World) : Prop where
  fresh : Fresh cfg b { w with pending := [] }
  armed : ∃ srv, w.srvSess = some srv ∧ Armed srv ∧ ∀ op ∈ w.pending, Reads srv op
  single : w.pending.length ≤ 1

theorem connect_chain (s : Output) (dst : Destination) :
    (s.connectThroughChain dst).1.chain = s.chain := by
  simp only [Output.connectThroughChain, Output.assertThat]
  split_ifs <;> rfl

/-- The output takes the handler and begins with its first stop. -/
theorem connect_opens (cfg : Config) (b : Bool) (dst : Destination) (m : Life)
    (hf : Fresh cfg b m.state) (hd : ∀ d, cfg.input = .tunnel d → dst = d) :
    Held.Brings (connectThroughChain dst) m (Opening cfg b dst) := by
  obtain ⟨s,hs,heq⟩ := ChainWalk.begun_eq cfg.output dst
  have hchain := connect_chain (Output.create cfg.output) dst
  have hwalk : ∀ t : Output, Standing cfg.output dst 0 t →
      t.chain = (Output.create cfg.output).chain →
      Walking cfg b dst 0 (m.state.setOutput t) := fun t ht htc =>
    ⟨wired_sess cfg b _ _ hf.wired rfl,ht,fun j => by
      change (t.chain.getD j {}).creds = _
      rw [htc]
      rfl,hd,hf.idle⟩
  rw [heq] at hchain
  split_ifs at heq hchain with h
  · refine ⟨(m.state.setOutput { s with resolver := true }).launch
      (ChainWalk.lookup cfg.output dst),?_,?_⟩
    · rw [connectThroughChain, hf.output, heq]
      rfl
    · exact launch_opens cfg b dst _ _
        (hwalk _ ⟨hs.chain,hs.config,hs.handler,hs.dst,hs.position⟩ hchain) (.resolve _ _ _)
  · refine ⟨(m.state.setOutput s).launch
      (ChainWalk.opening cfg.output dst (ChainWalk.firstStop cfg.output dst).ipAddress),?_,?_⟩
    · rw [connectThroughChain, hf.output, heq]
      rfl
    · exact launch_opens cfg b dst _ _ (hwalk s hs hchain) (.connect _ _ _)

/-- A request that could not be read closes the session. -/
def Closed (cfg : Config) (b : Bool) (w : World) : Prop := Wired cfg b w ∧ w.pending = []

/-- The request has been read. The handler is stored before its copy is gone. -/
theorem request_opens (cfg : Config) (b : Bool) (m : Life) (hf : Fresh cfg b m.state)
    (hd : ∀ d, cfg.input = .tunnel d → m.state.sess.dst = d) :
    Held.Brings (handleReadConnectRequest .noError) m (Opening cfg b m.state.sess.dst) := by
  refine (Held.brings_hold _ m _ ?_).of_eq (if_neg ErrorCode.noError_failed)
  exact connect_opens cfg b m.state.sess.dst { m with locals := m.locals+1 } hf hd

theorem request_goes (cfg : Config) (b : Bool) (err : ErrorCode) (m : Life)
    (hf : Fresh cfg b m.state) (hd : ∀ d, cfg.input = .tunnel d → m.state.sess.dst = d) :
    Held.Brings (handleReadConnectRequest err) m
      fun w => (∃ dst, Opening cfg b dst w) ∨ Closed cfg b w := by
  by_cases he : err.failed
  · refine ((closed_brings cfg b m hf.wired).mono fun w h => ?_).of_eq (if_pos he)
    exact .inr ⟨h.1,h.2.1.trans hf.idle⟩
  · refine (Held.brings_hold _ m _ ?_).of_eq (if_neg he)
    exact (connect_opens cfg b m.state.sess.dst { m with locals := m.locals+1 } hf hd).mono
      fun w h => .inl ⟨_,h⟩

/-! What a server session does with what it has read. -/

/-- Where the request leaves the session. -/
inductive Heard (cfg : Config) (b : Bool) (w : World) : Prop
  | listening (h : Listening cfg b w)
  | opening (dst : Destination) (h : Opening cfg b dst w)
  | closed (h : Closed cfg b w)

def failures (n : ℕ) : List (Action Op Call) := (List.replicate n Call.assertFailed).map .emit

/-- The turn of a server session. -/
inductive Served (srv : ServerSession) (goes : Bool) (as : List (Action Op Call)) : Prop
  | hangs (n : ℕ) (hr : as = failures n) (ha : Armed srv)
  | starts (n : ℕ) (op : Op) (hr : as = failures n ++ [.start op]) (ha : Armed srv)
      (hk : Reads srv op)
  | calls (n : ℕ) (err : ErrorCode) (hr : as = failures n ++ [.emit (.readReq err)])
      (hg : goes → err = .noError)

theorem turn_served {σ κ ε : Type*} (f : Action (StreamObject.Op UInt8 κ) ε → Action Op Call)
    (srv : σ → ServerSession) (mk : StreamObject.Op UInt8 κ → Op) (armed : σ → Prop) (last : κ)
    (called : ErrorCode → ε) (failed : ε) (goes : Bool)
    (r : σ × List (Action (StreamObject.Op UInt8 κ) ε))
    (h : AfterCall.Turn armed last called failed goes r) (harmed : ∀ s, armed s → Armed (srv s))
    (hreads : ∀ s op, op.callback ≠ last → Reads (srv s) (mk op))
    (hstart : ∀ op, f (.start op) = .start (mk op))
    (hcall : ∀ err, f (.emit (called err)) = .emit (.readReq err))
    (hfail : f (.emit failed) = .emit .assertFailed) : Served (srv r.1) goes (r.2.map f) := by
  have hmap : ∀ es : List ε, (∀ e ∈ es, e = failed) →
      (es.map Action.emit).map f = failures es.length := by
    intro es hes
    rw [List.map_map, failures, List.map_replicate]
    exact List.map_eq_replicate_iff.mpr fun e he => by
      rw [Function.comp_apply, hes e he, hfail]
  cases h with
  | hangs es hes hr ha => exact .hangs es.length (by rw [hr, hmap es hes]) (harmed _ ha)
  | starts es op hes hr ha hk =>
    refine .starts es.length (mk op) ?_ (harmed _ ha) (hreads _ op hk)
    rw [hr, List.map_append, hmap es hes, List.map_singleton, hstart]
  | calls es err hes hr hg =>
    refine .calls es.length err ?_ hg
    rw [hr, List.map_append, hmap es hes, List.map_singleton, hcall]

theorem socks5_served (goes : Bool) (r : ServerSessionSocks5.Effect)
    (h : AfterCall.Socks5.ReadTurn goes r) : Served (.socks5 r.1) goes (r.2.map ofSocks5) :=
  turn_served ofSocks5 .socks5 .socks5 _ _ _ _ _ _ h (fun _ h => h)
    (fun s op hk => .socks5 s op hk) (fun _ => rfl) (fun _ => rfl) rfl

theorem https_served (goes : Bool) (r : ServerSessionHttps.Effect)
    (h : AfterCall.Https.ReadTurn goes r) : Served (.https r.1) goes (r.2.map ofHttps) :=
  turn_served ofHttps .https .https _ _ _ _ _ _ h (fun _ h => h)
    (fun s op hk => .https s op hk) (fun _ => rfl) (fun _ => rfl) rfl

theorem served_fresh (cfg : Config) (b : Bool) (t : ServerProxyType) (w : World)
    (srv : ServerSession) (ht : cfg.input = .proxyServer t) (h : Fresh cfg b w) :
    Fresh cfg b (w.setServer srv) :=
  ⟨wired_served cfg b t _ _ srv _ ht h.wired rfl,h.output,h.idle⟩

theorem armed_owned (w : World) (srv : ServerSession) (h : w.srvSess = some srv)
    (ha : Armed srv) : 0 < stored w := by
  have hpos : 0 < srv.handlers := by
    cases srv with
    | socks5 s =>
      simp only [ServerSession.handlers, show s.userReadReqHandler = true from ha, Bool.toNat_true]
      omega
    | https s =>
      simp only [ServerSession.handlers, show s.userReadReqHandler = true from ha, Bool.toNat_true]
      omega
  simp only [stored, h, Option.map_some, Option.getD_some]
  omega

theorem served_idle (cfg : Config) (b : Bool) (w : World) (srv : ServerSession) (op : Op)
    (hf : Fresh cfg b w) (hs : w.srvSess = some srv) (ha : Armed srv) (hk : Reads srv op) :
    Listening cfg b (w.start op) := by
  have hp : (w.start op).pending = [op] := by
    change w.pending ++ [op] = _
    rw [hf.idle]
    rfl
  refine ⟨⟨wired_pending cfg b w [] hf.wired,hf.output,rfl⟩,
    ⟨srv,hs,ha,?_⟩,Nat.le_of_eq (congrArg List.length hp)⟩
  intro op' hop
  rw [hp] at hop
  rw [List.mem_singleton.mp hop]
  exact hk

abbrev startOp (op : Op) : Life → Life := Held.modify (·.start op)

theorem failures_silent (n : ℕ) (as : List (Action Op Call)) :
    (emitted (failures n ++ as)).any Call.owned = (emitted as).any Call.owned := by
  rw [failures, emitted_append, emitted_emits, List.any_append]
  simp [Call.owned]

theorem failures_skip (n : ℕ) (as : List (Action Op Call)) (m : Life) :
    Held.perform startOp callSession (failures n ++ as) m = Held.perform startOp callSession as m :=
  Held.perform_skip _ _ _ (fun e he => by rw [List.eq_of_mem_replicate he]; rfl) as m

theorem serve_eq (srv : ServerSession) (n : ℕ) (as : List (Action Op Call)) (m : Life) :
    serverDoes srv (failures n ++ as) m =
      if (emitted as).any Call.owned then
        Held.hold (fun m => Held.perform startOp callSession as (m.modify (·.setServer srv))) m
      else Held.perform startOp callSession as (m.modify (·.setServer srv)) := by
  simp only [serverDoes, Held.enact, failures_silent, failures_skip]

/-- The handler of the request is called. Where the server session goes on after
it, it was called with the request, and the output has the handler now. -/
theorem called_goes (cfg : Config) (b goes : Bool) (t : ServerProxyType) (srv : ServerSession)
    (n : ℕ) (err : ErrorCode) (m : Life) (ht : cfg.input = .proxyServer t)
    (hf : Fresh cfg b (m.state.setServer srv)) (hg : goes → err = .noError) :
    Held.Brings (serverDoes srv (failures n ++ [.emit (.readReq err)])) m
      fun w => (goes = true → 0 < stored w) ∧ Heard cfg b w := by
  have hnone : ∀ w : World, ∀ d, cfg.input = .tunnel d → w.sess.dst = d := fun w d hd =>
    absurd hd (not_tunnel cfg t d ht)
  have heq : serverDoes srv (failures n ++ [.emit (.readReq err)]) m =
      Held.hold (fun m => handleReadConnectRequest err (m.modify (·.setServer srv))) m := by
    rw [serve_eq]
    rfl
  refine (Held.brings_hold _ m _ ?_).of_eq heq
  cases goes with
  | false =>
    refine ((request_goes cfg b err (Held.modify (·.setServer srv)
      { m with locals := m.locals+1 }) hf (hnone _)).mono fun w hw => ?_).after _ rfl
    rcases hw with ⟨dst,hw⟩ | hw
    · exact ⟨by simp,.opening dst hw⟩
    · exact ⟨by simp,.closed hw⟩
  | true =>
    rw [hg rfl]
    refine ((request_opens cfg b (Held.modify (·.setServer srv)
      { m with locals := m.locals+1 }) hf (hnone _)).mono fun w hw => ?_).after _ rfl
    exact ⟨fun _ => handler_owned w hw.walking.standing.handler,.opening _ hw⟩

theorem served_goes (cfg : Config) (b goes : Bool) (t : ServerProxyType) (srv : ServerSession)
    (as : List (Action Op Call)) (m : Life) (ht : cfg.input = .proxyServer t)
    (hf : Fresh cfg b m.state) (h : Served srv goes as) :
    Held.Brings (serverDoes srv as) m fun w => (goes = true → 0 < stored w) ∧ Heard cfg b w := by
  have hfresh := served_fresh cfg b t m.state srv ht hf
  cases h with
  | hangs n hr ha =>
    refine ⟨m.state.setServer srv,?_,fun _ => armed_owned _ srv rfl ha,.listening ⟨?_,?_,?_⟩⟩
    · rw [hr, ← List.append_nil (failures n), serve_eq]
      rfl
    · exact ⟨wired_pending cfg b _ [] hfresh.wired,hfresh.output,rfl⟩
    · refine ⟨srv,rfl,ha,fun op hop => ?_⟩
      rw [hfresh.idle] at hop
      exact absurd hop List.not_mem_nil
    · rw [hfresh.idle]
      exact Nat.zero_le _
  | starts n op hr ha hk =>
    refine ⟨(m.state.setServer srv).start op,?_,fun _ => armed_owned _ srv rfl ha,
      .listening (served_idle cfg b _ srv op hfresh rfl ha hk)⟩
    rw [hr, serve_eq]
    rfl
  | calls n err hr hg =>
    rw [hr]
    exact called_goes cfg b goes t srv n err m ht hfresh hg

/-- The pointer of the server session is cleared. -/
theorem clearDst_heard (cfg : Config) (b : Bool) (w : World) (h : Heard cfg b w) :
    Heard cfg b w.clearDst := by
  have hwired : ∀ v : World, Wired cfg b v → Wired cfg b v.clearDst := by
    intro v hv
    refine ⟨hv.sptr,hv.input,fun d hd => ?_,fun t ht => ?_⟩
    · simp [World.clearDst, hv.tunnel d hd]
    · obtain ⟨srv,hsrv⟩ := hv.server t ht
      simp [World.clearDst, hsrv]
  cases h with
  | listening h =>
    obtain ⟨⟨hw,ho,-⟩,⟨srv,hs,ha,hk⟩,hsingle⟩ := h
    refine .listening ⟨⟨hwired _ hw,ho,rfl⟩,?_,hsingle⟩
    cases srv with
    | socks5 s =>
      refine ⟨.socks5 (AfterCall.Socks5.clear s),by simp [World.clearDst, hs],ha,fun op hop => ?_⟩
      cases hk op hop with
      | socks5 _ op hk => exact .socks5 _ op hk
    | https s =>
      refine ⟨.https (AfterCall.Https.clear s),by simp [World.clearDst, hs],ha,fun op hop => ?_⟩
      cases hk op hop with
      | https _ op hk => exact .https _ op hk
  | opening dst h =>
    exact .opening dst ⟨⟨hwired _ h.walking.wired,h.walking.standing,h.walking.creds,
      h.walking.dst,rfl⟩,h.pending⟩
  | closed h => exact .closed ⟨hwired w h.1,h.2⟩

/-- A turn with what follows it. -/
theorem turn_keeps (cfg : Config) (b goes : Bool) (t : ServerProxyType) (srv : ServerSession)
    (as : List (Action Op Call)) (m : Life) (body : Life → Life) (ht : cfg.input = .proxyServer t)
    (hf : Fresh cfg b m.state) (h : Served srv goes as)
    (hbody : body m = if goes then (serverDoes srv as m).resume stored World.clearDst
      else serverDoes srv as m) : Held.Keeps body m (Heard cfg b) := by
  have hserved := served_goes cfg b goes t srv as m ht hf h
  cases goes with
  | true =>
    exact (Held.keeps_resume stored World.clearDst (hserved.mono fun w hw =>
      ⟨hw.1 rfl,clearDst_heard cfg b w hw.2⟩)).of_eq hbody
  | false => exact ((hserved.mono fun w hw => hw.2).of_eq hbody).keeps

theorem socks5_armed (s : ServerSessionSocks5.Session) (d : Bytes)
    (k : ServerSessionSocks5.Callback) :
    (ServerSessionSocks5.store s d k).userReadReqHandler = s.userReadReqHandler ∧
      (ServerSessionSocks5.store s d k).userWriteRespHandler = s.userWriteRespHandler := by
  cases k <;> exact ⟨rfl,rfl⟩

theorem https_armed (s : ServerSessionHttps.Session) (d : Bytes)
    (k : ServerSessionHttps.Callback) :
    (ServerSessionHttps.store s d k).userReadReqHandler = s.userReadReqHandler := by
  cases k with
  | handleRead k => unfold ServerSessionHttps.store; split_ifs <;> rfl
  | writeConnectResponseHandler => rfl

theorem socks5_keeps (cfg : Config) (b : Bool) (t : ServerProxyType)
    (op : StreamObject.Op UInt8 ServerSessionSocks5.Callback) (res : Completion)
    (s : ServerSessionSocks5.Session) (m : Life) (ht : cfg.input = .proxyServer t)
    (hf : Fresh cfg b m.state) (hs : m.state.srvSess = some (.socks5 s))
    (ha : s.userReadReqHandler = true) (hk : op.callback ≠ .writeConnectResponseHandler) :
    Held.Keeps (socks5Done op res) m (Heard cfg b) := by
  have hserver : m.state.server = some (.socks5 { s with userDst := m.state.sess.dst }) := by
    simp [World.server, hs]
  have hturn := AfterCall.Socks5.read_turn op.callback
    (ServerSessionSocks5.store { s with userDst := m.state.sess.dst } res.data op.callback) res.err
    hk ((socks5_armed _ _ _).1.trans ha)
  refine turn_keeps cfg b _ t _ _ m _ ht hf (socks5_served _ _ hturn) ?_
  simp only [socks5Done, hserver]

theorem https_keeps (cfg : Config) (b : Bool) (t : ServerProxyType) (fuel : ℕ)
    (op : StreamObject.Op UInt8 ServerSessionHttps.Callback) (res : Completion)
    (s : ServerSessionHttps.Session) (m : Life) (ht : cfg.input = .proxyServer t)
    (hf : Fresh cfg b m.state) (hs : m.state.srvSess = some (.https s))
    (ha : s.userReadReqHandler = true) (hk : op.callback ≠ .writeConnectResponseHandler) :
    Held.Keeps (httpsDone fuel op res) m (Heard cfg b) := by
  have hserver : m.state.server = some (.https { s with userDst := m.state.sess.dst }) := by
    simp [World.server, hs]
  obtain ⟨k,hop⟩ : ∃ k, op.callback = .handleRead k := by
    cases h : op.callback with
    | handleRead k => exact ⟨k,rfl⟩
    | writeConnectResponseHandler => exact absurd h hk
  have hturn := AfterCall.Https.read_turn fuel k
    (ServerSessionHttps.store { s with userDst := m.state.sess.dst } res.data op.callback) res.err
    ((https_armed _ _ _).trans ha)
  refine turn_keeps cfg b _ t _ _ m _ ht hf (https_served _ _ hturn) ?_
  simp only [httpsDone, hserver, hop]

end ProxySwiss.RequestOwners
