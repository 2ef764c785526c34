import ProxySwiss.ClientSocks5Soundness
import ProxySwiss.ServerSocks5Soundness
import ProxySwiss.SessionGating

/-!
# A response on its way back through the servers

The last server of a path makes the connect attempt and writes its response.
Every server before it reads the response as the client of the next one, hands
the result to its session, and writes a response of its own. Two tables are
crossed on every link: the server's from a code to an octet and the client's
from an octet to a code.
-/

set_option autoImplicit false

namespace ProxySwiss.Relay
open Memory TransitionSystem CallbackObject StreamObject Socks5
open ClientSocks5Run (ClientWire)
open ServerSocks5Run (ServerWire response)
open ServerSessionSocks5 (majorCodeToRep)
open ClientSessionSocks5 (socks5RepToMajorCode)
open SessionGating (SessionState SessionStep)
open ChainWalk (Standing)
open Session (Session)

/-- One link: a server has written its response to `resp`, and its client has
read it. Each of the two streams is what the other end has sent; the server's
end may have sent more. -/
inductive Crossed (resp : ConnectResponse) : ConnectResponse → Prop
  | mk (f g : Faults) (s : ServerSessionSocks5.Session) (c : ClientSessionSocks5.Session)
      (dst : Destination) (more : Bytes) (w : ServerWire) (v : ClientWire)
      (hs : ServerSocks5Run.Idle s) (hc : ClientSocks5Run.Idle c)
      (hw : Run (ServerSocks5Run.Dialogue f v.sent resp) (ServerSocks5Run.start s) w)
      (hv : Run (ClientSocks5Run.Dialogue g (w.sent ++ more)) (ClientSocks5Run.start c dst) v)
      (hwritten : .call .writeResp .noError ∈ w.events)
      (hread : .call .readResp .noError ∈ v.events) : Crossed resp v.obj.connResp

def begun (addressText : Address → Bytes) (cfg : Config) : SessionState :=
  Conf.begun (Session.start addressText (Session.create cfg))

/-- A path of `k` servers, from the code of the last connect attempt to what the
outermost client has stored. -/
inductive Relayed (addressText : Address → Bytes) : ℕ → MajorCode → ConnectResponse → Prop
  | last (cfg : Config) (c : SessionState) (mc : MajorCode) (got : ConnectResponse)
      (hin : cfg.input = .proxyServer .socks5) (hout : ChainWalk.hops cfg.output = 0)
      (hr : Run (SessionStep addressText) (begun addressText cfg) c)
      (hp : c.pending = [.writeConnectResponse ⟨mc⟩]) (hx : Crossed ⟨mc⟩ got) :
      Relayed addressText 1 mc got
  | next (k : ℕ) (cfg : Config) (c : SessionState) (i : ℕ) (mc : MajorCode)
      (mid resp got : ConnectResponse) (h : Relayed addressText k mc mid)
      (hin : cfg.input = .proxyServer .socks5)
      (hr : Run (SessionStep addressText) (begun addressText cfg) c)
      (hp : c.pending = [.output (.readConnectResponse i i)])
      (hd : (c.next (Session.session addressText) [] [] (.output (.readConnectResponse i i))
        { outcome := { connResp := mid } }).pending = [.writeConnectResponse resp])
      (hx : Crossed resp got) : Relayed addressText (k+1) mc got

/-- What the two tables make of a code. -/
def cross (mc : MajorCode) : MajorCode := socks5RepToMajorCode (majorCodeToRep mc)

theorem cross_cross (mc : MajorCode) : cross (cross mc) = cross mc := by
  cases mc <;> decide

theorem cross_fixed (mc : MajorCode) :
    cross mc = mc ↔ mc = .succeeded ∨ mc = .connectionRefused ∨ mc = .unknownError := by
  cases mc <;> decide

theorem crossed_eq (resp got : ConnectResponse) (h : Crossed resp got) :
    got = ⟨cross resp.major⟩ := by
  cases h with
  | mk f g s c dst more w v hs hc hw hv hwritten hread =>
    obtain ⟨d,hd,hph⟩ := ServerSocks5Run.dialogue_phase f s hs v.sent resp w hw
    have hsent := ServerSocks5Soundness.responded_sent f _ _ w d hd hph hwritten
    obtain ⟨rep,m,hm,ht,hresp⟩ :=
      (ClientSocks5Soundness.dialogue_outcome g c hc dst _ v hv).answered .noError hread
        ErrorCode.noError_failed
    have hpre : v.taken <+: w.sent ++ more := served_taken _ _ _ _ _ _ v hv List.nil_prefix
    rw [ht, hsent] at hpre
    -- the server has chosen the method without authentication
    have hauth : authAnswer c.creds = [5,0] := by
      by_contra hne
      have hcreds : authAnswer c.creds = [5,2,5,0] := by
        unfold authAnswer at hne ⊢
        split
        · simp_all
        · rfl
      rw [hcreds] at hpre
      simp at hpre
    rw [hauth] at hpre
    cases hm with
    | mk rsv atyp a hrep ha =>
      have hhead := prefix_agree ([5,0] ++ [5,rep]) ([5,0] ++ [5,majorCodeToRep resp.major]) _
        (List.IsPrefix.trans ⟨[rsv,atyp] ++ a,by simp⟩ hpre) ⟨[0,1,0,0,0,0,0,0] ++ more,rfl⟩ rfl
      have hrep : rep = majorCodeToRep resp.major := by simpa using hhead
      rw [hresp, hrep]
      rfl

theorem connected_started (addressText : Address → Bytes) (s : Session)
    (type : ServerProxyType) (cr : Output.ConnectResult)
    (hin : s.input.cfgInput = .proxyServer type) :
    started (Session.handleConnectOutput addressText s cr).2 =
      [.writeConnectResponse
        (if cr.success then ⟨.succeeded⟩ else Session.failureResponse cr)] := by
  have hprint : ∀ t : Session, (Session.printProxyError t cr).1.input = t.input := by
    intro t
    unfold Session.printProxyError
    split_ifs
    · split <;> rfl
    · rfl
    · rfl
  have hremember : ∀ t : Session, (Session.remember addressText t).input = t.input := by
    intro t
    simp only [Session.remember]
    split_ifs <;> rfl
  have hrespond : ∀ (t : Session) r, t.input = s.input →
      started (Session.writeConnectResponse t r).2 = [.writeConnectResponse r] := by
    intro t r ht
    simp [Session.writeConnectResponse, ht, hin]
  simp only [Session.handleConnectOutput, Session.started_emitThat]
  cases cr.success with
  | true => simp [hrespond, hremember]
  | false =>
    by_cases herr : cr.err.failed
    · simp [herr, hrespond, hprint]
    · simp [herr, hrespond]

theorem output_pending (addressText : Address → Bytes) (c : SessionState) (op : Output.Op)
    (res : Session.Completion) (out : Output) (as : List (Action Output.Op Output.Event))
    (h : Output.done op res.outcome c.obj.output = (out,as)) :
    (c.next (Session.session addressText) [] [] (.output op) res).pending =
      started (Session.runOutput addressText { c.obj with output := out } as).2 := by
  have hdone : (Session.session addressText).done (.output op) res c.obj =
      Session.runOutput addressText { c.obj with output := out } as := by
    change Session.done addressText (.output op) res c.obj = _
    simp only [Session.done, h]
  rw [Conf.next, hdone]
  rfl

/-- A response that ends the walk of the output is the response of the session. -/
theorem forwarded_eq (addressText : Address → Bytes) (cfg : Config) (c : SessionState) (i : ℕ)
    (mid resp : ConnectResponse) (hin : cfg.input = .proxyServer .socks5)
    (hr : Run (SessionStep addressText) (begun addressText cfg) c)
    (hp : c.pending = [.output (.readConnectResponse i i)])
    (hd : (c.next (Session.session addressText) [] [] (.output (.readConnectResponse i i))
      { outcome := { connResp := mid } }).pending = [.writeConnectResponse resp]) :
    resp = mid := by
  cases SessionGating.run_phase addressText cfg c hr with
  | connecting e dst op oc hok hk hph ho hop hp' he =>
    obtain rfl : .readConnectResponse i i = op := by simpa [hp] using hp'
    cases hph with
    | walking op' ha hs hop' hev =>
      obtain rfl : .readConnectResponse i i = op' := by simpa [hop] using hop'
      have hlt : i < ChainWalk.hops cfg.output := by
        generalize oc.completed = past at ha
        cases ha with
        | await i hist w hi h hw => exact hi
      have hinput : c.obj.input.cfgInput = .proxyServer .socks5 := by
        rw [hk.input, hin]
        rfl
      have hcalled : ∀ out cr, Output.done (.readConnectResponse i i) { connResp := mid }
          c.obj.output = (out,[.emit (.connected cr)]) →
          resp = if cr.success then ⟨.succeeded⟩ else Session.failureResponse cr := by
        intro out cr hout
        rw [output_pending addressText c _ _ out _ hout] at hd
        have hstart := connected_started addressText { c.obj with output := out } _ cr hinput
        simp only [Session.runOutput, List.append_nil, hstart] at hd
        exact (Session.Op.writeConnectResponse.inj (List.singleton_inj.mp hd)).symm
      have hdone := ChainWalk.answered_done i i c.obj.output { connResp := mid }
        ErrorCode.noError_failed
      have hstand : Standing cfg.output dst i c.obj.output := ho ▸ hs
      by_cases hm : mid.major = .succeeded
      · rw [if_pos hm, ChainWalk.connectNext_eq cfg.output dst (i+1) _ _ _
          (ChainWalk.behind_standing _ _ _ _ _ hstand hlt) ErrorCode.noError_failed hlt] at hdone
        split_ifs at hdone with hend
        · rw [hcalled _ _ hdone, if_pos rfl, ← hm]
        · rw [output_pending addressText c _ _ _ _ hdone] at hd
          simp [Session.runOutput] at hd
      · rw [if_neg hm, ChainWalk.call_eq { c.obj.output with connResp := mid } _ hstand.handler]
          at hdone
        rw [hcalled _ _ hdone]
        rfl
    | failed hist op' r ha hr hc hnone hcr => exact absurd (hop.symm.trans hnone) (by simp)
    | finished hw hnone hcr => exact absurd (hop.symm.trans hnone) (by simp)
  | asking hk ho hp' he => simp [hp] at hp'
  | refused e herr hc hp' he => simp [hp] at hp'
  | responding e cr r hok ha hcr hp' he => simp [hp] at hp'
  | rejected e cr r err hok ha hc hp' he => simp [hp] at hp'
  | tunnelling e cr r err hok ha hcr hw hp' he => simp [hp] at hp'

theorem relayed_eq (addressText : Address → Bytes) (k : ℕ) (mc : MajorCode)
    (got : ConnectResponse) (h : Relayed addressText k mc got) : got = ⟨cross mc⟩ := by
  induction h with
  | last cfg c mc got hin hout hr hp hx => exact crossed_eq _ got hx
  | next k cfg c i mc mid resp got h hin hr hp hd hx ih =>
    rw [crossed_eq resp got hx, forwarded_eq addressText cfg c i mid resp hin hr hp hd, ih,
      cross_cross]

/-! Every code can be produced, and every code is relayed on every path. -/

def linkDst : Destination := { hostname := [104], port := 80 }

def linkSent : Bytes := [5,1,0,5,1,0,3,1,104,0,80]

def linkAsked : ClientSocks5Run.ClientState :=
  play ClientSessionSocks5.client [.ok [5,1,0],.ok [5,0],.ok [5,1,0,3,1,104,0,80]]
    (Conf.begun (ClientSessionSocks5.writeConnectRequest {} linkDst))

def linkReading : ClientSocks5Run.ClientState :=
  linkAsked.invoke (ClientSessionSocks5.readConnectResponse linkAsked.obj)

def linkRead (mc : MajorCode) : List (Result UInt8 ErrorCode) :=
  [.ok [5,majorCodeToRep mc,0,1],.ok [0,0,0,0,0,0]]

theorem client_reads (mc : MajorCode) : ∃ v,
    Run (ClientSocks5Run.Dialogue Faults.any ([5,0] ++ response ⟨mc⟩ ++ []))
      (ClientSocks5Run.start {} linkDst) v ∧
    v.sent = linkSent ∧ .call .readResp .noError ∈ v.events := by
  obtain ⟨u,hu,hs⟩ := play_flow ClientSessionSocks5.client ErrorCode.failed
    ([5,0] ++ response ⟨mc⟩ ++ []) [.ok [5,1,0],.ok [5,0],.ok [5,1,0,3,1,104,0,80]]
    (ClientSocks5Run.start {} linkDst)
    (Conf.begun (ClientSessionSocks5.writeConnectRequest {} linkDst))
    (settled_begun _) ⟨rfl,rfl,rfl,trivial⟩ ⟨response ⟨mc⟩,by simp; rfl⟩
  obtain ⟨u',hu',hs'⟩ := served_call ClientSessionSocks5.client ErrorCode.failed
    ([5,0] ++ response ⟨mc⟩ ++ []) ClientSocks5Run.Due ClientSessionSocks5.readConnectResponse
    u linkAsked hs rfl rfl
  obtain ⟨v,hv,hs''⟩ := play_flow ClientSessionSocks5.client ErrorCode.failed
    ([5,0] ++ response ⟨mc⟩ ++ []) (linkRead mc) u' linkReading hs'
    (by cases mc <;> exact ⟨rfl,rfl,trivial⟩) (by cases mc <;> decide)
  refine ⟨v,((flow_served _ _ _ _ _ _ _ hu).tail hu').trans (flow_served _ _ _ _ _ _ _ hv),?_,?_⟩
  · rw [hs''.sent]
    cases mc <;> rfl
  · rw [hs''.events]
    cases mc <;> decide

def linkTaken : ServerSocks5Run.ServerState :=
  play ServerSessionSocks5.server
    [.ok [5,1],.ok [0],.ok [5,0],.ok [5,1,0,3],.ok [1],.ok [104,0,80]]
    (Conf.begun (ServerSessionSocks5.readConnectRequest {}))

theorem server_answers (mc : MajorCode) : ∃ w,
    Run (ServerSocks5Run.Dialogue Faults.any linkSent ⟨mc⟩) (ServerSocks5Run.start {}) w ∧
    w.sent = [5,0] ++ response ⟨mc⟩ ∧ .call .writeResp .noError ∈ w.events := by
  obtain ⟨u,hu,hs⟩ := play_flow ServerSessionSocks5.server ErrorCode.failed linkSent
    [.ok [5,1],.ok [0],.ok [5,0],.ok [5,1,0,3],.ok [1],.ok [104,0,80]]
    (ServerSocks5Run.start {}) (Conf.begun (ServerSessionSocks5.readConnectRequest {}))
    (settled_begun _) ⟨rfl,rfl,rfl,rfl,rfl,rfl,trivial⟩ (by decide)
  obtain ⟨u',hu',hs'⟩ := served_call ServerSessionSocks5.server ErrorCode.failed linkSent
    ServerSocks5Run.Due (fun s => ServerSessionSocks5.writeConnectResponse s ⟨mc⟩) u linkTaken hs
    rfl rfl
  obtain ⟨w,hw,hs''⟩ := play_flow ServerSessionSocks5.server ErrorCode.failed linkSent
    [.ok (response ⟨mc⟩)] u' _ hs' ⟨rfl,trivial⟩ (by cases mc <;> decide)
  refine ⟨w,((flow_served _ _ _ _ _ _ _ hu).tail hu').trans (flow_served _ _ _ _ _ _ _ hw),?_,?_⟩
  · rw [hs''.sent]
    cases mc <;> rfl
  · rw [hs''.events]
    cases mc <;> decide

theorem crossable (mc : MajorCode) : ∃ got, Crossed ⟨mc⟩ got := by
  obtain ⟨v,hv,hsent,hread⟩ := client_reads mc
  obtain ⟨w,hw,hanswer,hwritten⟩ := server_answers mc
  exact ⟨_,.mk Faults.any Faults.any {} {} linkDst [] w v ⟨rfl,rfl⟩ ⟨rfl,rfl,rfl⟩ (hsent ▸ hw)
    (hanswer ▸ hv) hwritten hread⟩

/-- What the connect of the last server reports. -/
def connectError : MajorCode → ErrorCode
  | .succeeded => .noError
  | .hostUnreachable => .hostUnreachable
  | .connectionRefused => .connectionRefused
  | .badAddressType => .addressFamilyNotSupported
  | .unknownError => .eof

def lastConfig : Config := ⟨.proxyServer .socks5,.direct⟩

def nextConfig : Config := ⟨.proxyServer .socks5,⟨[{ proxyAddress := {} }],by decide⟩⟩

theorem attempted (addressText : Address → Bytes) (mc : MajorCode) : ∃ c,
    Run (SessionStep addressText) (begun addressText lastConfig) c ∧
    c.pending = [.writeConnectResponse ⟨mc⟩] := by
  refine ⟨_,play_run (Session.session addressText) (fun _ _ => True)
    [{},{ outcome := { err := connectError mc } }] (begun addressText lastConfig)
    ⟨trivial,trivial,trivial⟩,?_⟩
  cases mc <;> rfl

theorem awaited (addressText : Address → Bytes) (mid : ConnectResponse) : ∃ c,
    Run (SessionStep addressText) (begun addressText nextConfig) c ∧
    c.pending = [.output (.readConnectResponse 0 0)] ∧
    (c.next (Session.session addressText) [] [] (.output (.readConnectResponse 0 0))
      { outcome := { connResp := mid } }).pending = [.writeConnectResponse mid] := by
  refine ⟨_,play_run (Session.session addressText) (fun _ _ => True) [{},{},{}]
    (begun addressText nextConfig) ⟨trivial,trivial,trivial,trivial⟩,rfl,?_⟩
  obtain ⟨mc⟩ := mid
  cases mc <;> rfl

theorem relayable (addressText : Address → Bytes) (k : ℕ) (hk : 1 ≤ k) (mc : MajorCode) :
    ∃ got, Relayed addressText k mc got := by
  induction k, hk using Nat.le_induction with
  | base =>
    obtain ⟨c,hr,hp⟩ := attempted addressText mc
    obtain ⟨got,hx⟩ := crossable mc
    exact ⟨got,.last lastConfig c mc got rfl rfl hr hp hx⟩
  | succ k hk ih =>
    obtain ⟨mid,h⟩ := ih
    obtain ⟨c,hr,hp,hd⟩ := awaited addressText mid
    obtain ⟨got,hx⟩ := crossable mid.major
    exact ⟨got,.next k nextConfig c 0 mc mid mid got h rfl hr hp hd hx⟩

/-- On a path of any length a code survives exactly if the tables agree on it:
an unreachable host is relayed as a refused connection, and a bad address type
as an unknown error. -/
theorem relayed_iff (addressText : Address → Bytes) (k : ℕ) (hk : 1 ≤ k) (mc : MajorCode) :
    (∃ got, Relayed addressText k mc got) ∧
    ((∀ got, Relayed addressText k mc got → got.major = mc) ↔
      mc = .succeeded ∨ mc = .connectionRefused ∨ mc = .unknownError) := by
  obtain ⟨got,h⟩ := relayable addressText k hk mc
  refine ⟨⟨got,h⟩,?_⟩
  rw [← cross_fixed]
  constructor
  · intro hall
    have hgot := hall got h
    rwa [relayed_eq addressText k mc got h] at hgot
  · intro hfix got hgot
    rw [relayed_eq addressText k mc got hgot, hfix]

theorem relayed_refused : ∃ got, Relayed (fun _ => []) 2 .connectionRefused got ∧
    got.major = .connectionRefused := by
  obtain ⟨⟨got,h⟩,hall⟩ := relayed_iff (fun _ => []) 2 (by decide) .connectionRefused
  exact ⟨got,h,hall.mpr (.inr (.inl rfl)) got h⟩

/-- One server suffices to turn an unreachable host into a refused connection. -/
theorem unreachable_refused : ¬ ∀ addressText k, 1 ≤ k → ∀ mc got,
    Relayed addressText k mc got → got.major = mc := by
  intro hall
  obtain ⟨got,h⟩ := relayable (fun _ => []) 1 (Nat.le_refl 1) .hostUnreachable
  have hgot := hall _ 1 (Nat.le_refl 1) _ got h
  rw [relayed_eq _ 1 _ got h] at hgot
  exact absurd hgot (by decide)

end ProxySwiss.Relay
