import ProxySwiss.ChainDialogue
import ProxySwiss.ServerSocks5Soundness
import ProxySwiss.ServerHttpsRun
import ProxySwiss.TunnelLoops

/-!
# What the readers leave on their sockets

A reader that reports success has taken its own messages and nothing behind
them, whatever the peer sends along with them. The next reader of the same
socket, a hop of a chain or the tunnel, therefore starts at the octet that
follows.
-/

set_option autoImplicit false

namespace ProxySwiss.ExactConsumption
open Memory TransitionSystem CallbackObject StreamObject Socks5

/-- A greeting with its methods, and a request with its address and its port. -/
inductive Socks5Request : Bytes → Prop
  | mk (nmethods cmd rsv atyp : UInt8) (methods field : Bytes)
      (hn : methods.length = nmethods.toNat) (hf : AddressField atyp field) :
      Socks5Request ([5,nmethods] ++ methods ++ ([5,cmd,rsv,atyp] ++ field))

theorem socks5_taken (f : Faults) (s : ServerSessionSocks5.Session)
    (hs : ServerSocks5Run.Idle s) (inp : Bytes) (resp : ConnectResponse)
    (w : ServerSocks5Run.ServerWire)
    (hr : Run (ServerSocks5Run.Dialogue f inp resp) (ServerSocks5Run.start s) w)
    (hin : .call .readReq .noError ∈ w.events) : w.taken <+: inp ∧ Socks5Request w.taken := by
  refine ⟨served_taken _ _ _ _ _ _ w hr List.nil_prefix,?_⟩
  obtain ⟨c,hc,hph⟩ := ServerSocks5Run.dialogue_phase f s hs inp resp w hr
  rcases ServerSocks5Soundness.phase_taken _ _ _ w c hc hph with ⟨g,rsv,atyp,field,h⟩ | ⟨-,hno⟩
  · have hfield := ServerSocks5Soundness.stored_field _ _ _ _ h.stored
    rw [h.taken, List.append_assoc]
    cases h.offer with
    | mk n ms hn h0 => exact .mk n 1 rsv atyp ms field hn hfield
  · exact absurd (hno .noError hin) ErrorCode.noError_failed

theorem https_taken (fuel : ℕ) (f : Faults) (s : ServerSessionHttps.Session)
    (hs : ServerHttpsRun.Idle s) (inp : Bytes) (resp : ConnectResponse)
    (w : ServerHttpsRun.ServerWire)
    (hr : Run (ServerHttpsRun.Dialogue fuel f inp resp) (ServerHttpsRun.start s) w)
    (hin : .call .readReq .noError ∈ w.events) :
    w.taken <+: inp ∧ ServerHttpsRun.Header w.taken := by
  obtain ⟨c,hc,hph⟩ := ServerHttpsRun.dialogue_phase fuel f s hs inp resp w hr
  exact ⟨served_taken _ _ _ _ _ _ w hr List.nil_prefix,
    ServerHttpsRun.header_taken f w c hc hph hin⟩

/-- The client waits behind the answer that let it write the request, and then
behind the response, whatever the code of the response is. -/
theorem client_taken (f : Faults) (s : ClientSessionSocks5.Session)
    (hs : ClientSocks5Run.Idle s) (dst : Destination) (inp : Bytes)
    (w : ClientSocks5Run.ClientWire)
    (hr : Run (ClientSocks5Run.Dialogue f inp) (ClientSocks5Run.start s dst) w) :
    w.taken <+: inp ∧
    (w.events = [.call .writeReq .noError] → w.active = [] → w.taken = authAnswer s.creds) ∧
    (.call .readResp .noError ∈ w.events →
      ∃ rep m, Reply rep m ∧ w.taken = authAnswer s.creds ++ m) := by
  refine ⟨served_taken _ _ _ _ _ _ w hr List.nil_prefix,?_,?_⟩
  · intro hev hact
    obtain ⟨c,hc,hph⟩ := ClientSocks5Soundness.dialogue_phase f s hs dst inp w hr
    exact ClientSocks5Soundness.written_taken f _ _ _ w c hc hph hev hact
  · intro hin
    obtain ⟨rep,m,hm,ht,-⟩ := (ClientSocks5Soundness.dialogue_outcome f s hs dst inp w hr).answered
      .noError hin ErrorCode.noError_failed
    exact ⟨rep,m,hm,ht⟩

/-- Hop after hop starts where the one before it has stopped, and a connected
chain stops behind the last response. -/
theorem chain_taken (f : Faults) (cfg : OutputConfig) (dst : Destination) (inp : Bytes)
    (x : ChainDialogue.Chain)
    (hr : Run (ChainDialogue.Step f inp) (ChainDialogue.start cfg dst) x) :
    x.taken <+: inp ∧
    (∀ i, (x.talks i).active ≠ [] →
      ∃ base, ChainDialogue.Spoken cfg i base ∧ x.taken = base ++ (x.talks i).taken) ∧
    (∀ cr, .connected cr ∈ x.out.events → cr.success = true →
      ChainDialogue.Spoken cfg (ChainWalk.hops cfg) x.taken) := by
  refine ⟨ChainDialogue.run_taken f cfg dst inp x hr,?_⟩
  have hturn : ∀ op i base c, ChainDialogue.Turn cfg dst x op i base c →
      (∀ j, (x.talks j).active ≠ [] →
        ∃ base, ChainDialogue.Spoken cfg j base ∧ x.taken = base ++ (x.talks j).taken) ∧
      (∀ cr, .connected cr ∈ x.out.events → cr.success = true →
        ChainDialogue.Spoken cfg (ChainWalk.hops cfg) x.taken) := by
    intro op i base c h
    refine ⟨fun j hj => ?_,fun cr hcr => by simp [h.events] at hcr⟩
    obtain rfl : j = i := by
      rcases Nat.lt_trichotomy j i with hlt | heq | hlt
      · exact absurd (h.apart.past j hlt) hj
      · exact heq
      · exact absurd (by rw [h.apart.ahead j hlt]; rfl) hj
    exact ⟨base,h.spoken,h.taken⟩
  cases ChainDialogue.run_phase f cfg dst inp x hr with
  | connecting op hop hs hp he ht hq =>
    refine ⟨fun i hi => ?_,fun cr hcr => by simp [he] at hcr⟩
    rw [hq] at hi
    exact absurd rfl hi
  | asking i base c h ha hacc => exact hturn _ i base c h
  | reading i base c h hr => exact hturn _ i base c h
  | failed cr hcr hp he hq =>
    refine ⟨fun i hi => absurd (hq i) hi,fun cr' hcr' hok => ?_⟩
    obtain rfl : cr' = cr := by simpa [he] using hcr'
    exact absurd (hcr.symm.trans hok) Bool.false_ne_true
  | finished hs hp he hq => exact ⟨fun i hi => absurd (hq i) hi,fun _ _ _ => hs⟩

open SessionTunnel (Side Tunnel)
open Session (Session)

/-- The tunnel forwards what follows on each socket, from its first octet on. -/
theorem tunnel_continues (s : Session) (inp taken : Side → Bytes) (t : Tunnel)
    (ht : ∀ a, taken a <+: inp a)
    (hr : Run SessionTunnel.Step (Tunnel.begun s fun a => (inp a).drop (taken a).length) t)
    (a : Side) : inp a <+: taken a ++ (t.fromSock a ++ t.unread a) ∧
      t.toSock a.other <+: t.fromSock a := by
  constructor
  · obtain ⟨rest,hrest⟩ := ht a
    have h := SessionTunnel.run_stream s _ t hr a
    rw [← hrest, List.drop_left] at h
    rw [← hrest]
    exact (List.prefix_append_right_inj _).mpr h
  · exact SessionTunnel.loop_prefix t a (SessionTunnel.run_loop s _ t hr a)

/-- A reader that has reported success on a stream, and what it has taken of it. A
tunnel asks its client for nothing. -/
inductive Reported : Bytes → Bytes → Prop
  | nothing (inp : Bytes) : Reported inp []
  | socks5 (f : Faults) (s : ServerSessionSocks5.Session) (inp : Bytes) (resp : ConnectResponse)
      (w : ServerSocks5Run.ServerWire) (hs : ServerSocks5Run.Idle s)
      (hr : Run (ServerSocks5Run.Dialogue f inp resp) (ServerSocks5Run.start s) w)
      (hin : .call .readReq .noError ∈ w.events) : Reported inp w.taken
  | https (fuel : ℕ) (f : Faults) (s : ServerSessionHttps.Session) (inp : Bytes)
      (resp : ConnectResponse) (w : ServerHttpsRun.ServerWire) (hs : ServerHttpsRun.Idle s)
      (hr : Run (ServerHttpsRun.Dialogue fuel f inp resp) (ServerHttpsRun.start s) w)
      (hin : .call .readReq .noError ∈ w.events) : Reported inp w.taken
  | client (f : Faults) (s : ClientSessionSocks5.Session) (dst : Destination) (inp : Bytes)
      (w : ClientSocks5Run.ClientWire) (hs : ClientSocks5Run.Idle s)
      (hr : Run (ClientSocks5Run.Dialogue f inp) (ClientSocks5Run.start s dst) w)
      (hin : .call .readResp .noError ∈ w.events) : Reported inp w.taken
  | chain (f : Faults) (cfg : OutputConfig) (dst : Destination) (inp : Bytes)
      (x : ChainDialogue.Chain) (cr : Output.ConnectResult)
      (hr : Run (ChainDialogue.Step f inp) (ChainDialogue.start cfg dst) x)
      (hin : .connected cr ∈ x.out.events) (hok : cr.success = true) : Reported inp x.taken

theorem reported_taken (inp taken : Bytes) (h : Reported inp taken) : taken <+: inp := by
  cases h with
  | nothing => exact List.nil_prefix
  | socks5 f s _ resp w hs hr hin => exact (socks5_taken f s hs inp resp w hr hin).1
  | https fuel f s _ resp w hs hr hin => exact (https_taken fuel f s hs inp resp w hr hin).1
  | client f s dst _ w hs hr hin => exact (client_taken f s hs dst inp w hr).1
  | chain f cfg dst _ x cr hr hin hok => exact (chain_taken f cfg dst inp x hr).1

/-- Every reader that reports success has taken exactly its messages, and what
follows is for the next reader or for the tunnel. -/
theorem exact_consumption :
    (∀ f s inp resp w, ServerSocks5Run.Idle s →
      Run (ServerSocks5Run.Dialogue f inp resp) (ServerSocks5Run.start s) w →
      .call .readReq .noError ∈ w.events → w.taken <+: inp ∧ Socks5Request w.taken) ∧
    (∀ fuel f s inp resp w, ServerHttpsRun.Idle s →
      Run (ServerHttpsRun.Dialogue fuel f inp resp) (ServerHttpsRun.start s) w →
      .call .readReq .noError ∈ w.events → w.taken <+: inp ∧ ServerHttpsRun.Header w.taken) ∧
    (∀ f s dst inp w, ClientSocks5Run.Idle s →
      Run (ClientSocks5Run.Dialogue f inp) (ClientSocks5Run.start s dst) w →
      w.taken <+: inp ∧
      (w.events = [.call .writeReq .noError] → w.active = [] → w.taken = authAnswer s.creds) ∧
      (.call .readResp .noError ∈ w.events →
        ∃ rep m, Reply rep m ∧ w.taken = authAnswer s.creds ++ m)) ∧
    (∀ f cfg dst inp x, Run (ChainDialogue.Step f inp) (ChainDialogue.start cfg dst) x →
      x.taken <+: inp ∧
      (∀ i, (x.talks i).active ≠ [] →
        ∃ base, ChainDialogue.Spoken cfg i base ∧ x.taken = base ++ (x.talks i).taken) ∧
      (∀ cr, .connected cr ∈ x.out.events → cr.success = true →
        ChainDialogue.Spoken cfg (ChainWalk.hops cfg) x.taken)) ∧
    (∀ s (inp taken : Side → Bytes) t, (∀ a, taken a <+: inp a) →
      Run SessionTunnel.Step (Tunnel.begun s fun a => (inp a).drop (taken a).length) t →
      ∀ a, inp a <+: taken a ++ (t.fromSock a ++ t.unread a) ∧
        t.toSock a.other <+: t.fromSock a) ∧
    (∀ s (inp taken : Side → Bytes) t, (∀ a, Reported (inp a) (taken a)) →
      Run SessionTunnel.Step (Tunnel.begun s fun a => (inp a).drop (taken a).length) t →
      ∀ a, inp a <+: taken a ++ (t.fromSock a ++ t.unread a) ∧
        t.toSock a.other <+: t.fromSock a) :=
  ⟨fun f s inp resp w hs hr hin => socks5_taken f s hs inp resp w hr hin,
    fun fuel f s inp resp w hs hr hin => https_taken fuel f s hs inp resp w hr hin,
    fun f s dst inp w hs hr => client_taken f s hs dst inp w hr,
    chain_taken,tunnel_continues,
    fun s inp taken t ht hr => tunnel_continues s inp taken t
      (fun a => reported_taken _ _ (ht a)) hr⟩

/-- A request and a login whose peers have sent two octets more. -/
def requestStream : Bytes := [5,1,0] ++ [5,1,0,1] ++ [1,2,3,4,0,80]

def arrived : Side → Bytes
  | .input => requestStream ++ [3,4]
  | .output => ClientSocks5Soundness.loginStream ++ [1,2]

/-- They are left on the sockets, and the tunnel begins with them. -/
theorem exact_consumption_login : ∃ taken : Side → Bytes, Socks5Request (taken .input) ∧
    taken .output = ClientSocks5Soundness.loginStream ∧
    ∀ s t, Run SessionTunnel.Step (Tunnel.begun s fun a => (arrived a).drop (taken a).length) t →
      [1,2] <+: t.fromSock .output ++ t.unread .output ∧
        t.toSock .input <+: t.fromSock .output := by
  obtain ⟨v,hv,ht⟩ := ServerSocks5Soundness.request_taken {} ⟨rfl,rfl⟩ ⟨.succeeded⟩
    (arrived .input) [5,1,0] 0 1 [1,2,3,4,0,80] (.mk 1 [0] rfl (by decide)) (.ipv4 _ rfl)
    (List.prefix_append _ _)
  have hvin : .call .readReq .noError ∈ v.events := ht.events _ (by simp [ServerSocks5Run.report])
  obtain ⟨w,hrec,-,he,-⟩ := ClientSocks5Soundness.login_run [1,2]
  have hw := recorded_served _ _ _ _ _ _ (w,true) hrec
  have hwin : .call .readResp .noError ∈ w.events := by simp [he]
  obtain ⟨hpre,-,hread⟩ := exact_consumption.2.2.1 Faults.any _ _ _ w ⟨rfl,rfl,rfl⟩ hw
  obtain ⟨rep,m,hm,htaken⟩ := hread hwin
  have hlogin : w.taken = ClientSocks5Soundness.loginStream := by
    refine prefix_agree _ _ _ hpre (List.prefix_append _ _) ?_
    cases hm with
    | mk rsv atyp a hrep ha =>
      have hhead := prefix_agree ([5,2,5,0] ++ [5,rep,rsv,atyp]) [5,2,5,0,5,0,0,1] _
        (List.IsPrefix.trans ⟨a,by rw [htaken, List.append_assoc]; rfl⟩ hpre) (by decide) rfl
      simp only [List.cons_append, List.nil_append, List.cons.injEq, and_true, true_and] at hhead
      obtain ⟨-,-,rfl⟩ := hhead
      cases ha with
      | ipv4 a h => simp [htaken, authAnswer, ClientSocks5Soundness.loginClient,
          ClientSocks5Soundness.loginStream, Credentials.empty, h]
  refine ⟨fun a => if a = .input then v.taken else w.taken,?_,hlogin,fun s t hr => ?_⟩
  · exact (exact_consumption.1 Faults.any {} (arrived .input) _ v ⟨rfl,rfl⟩ hv hvin).2
  · have hreported : ∀ a, Reported (arrived a) (if a = .input then v.taken else w.taken) := by
      intro a
      cases a with
      | input => exact .socks5 Faults.any {} _ _ v ⟨rfl,rfl⟩ hv hvin
      | output => exact .client Faults.any _ _ _ w ⟨rfl,rfl,rfl⟩ hw hwin
    obtain ⟨hall,hto⟩ := exact_consumption.2.2.2.2.2 s arrived _ t hreported hr .output
    refine ⟨?_,hto⟩
    rw [if_neg (by decide), hlogin] at hall
    exact (List.prefix_append_right_inj _).mp hall

end ProxySwiss.ExactConsumption
