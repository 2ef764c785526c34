import ProxySwiss.ClientSocks5Run
import ProxySwiss.ServerSocks5Run

/-!
# Progress of the two SOCKS5 sessions

Every run of either session is finite: an operation is worth the bytes it
moves and what its callback may start. A server that has not yet received a
complete request asks for no more than the rest of it.
-/

set_option autoImplicit false

namespace ProxySwiss.Socks5Progress
open Memory TransitionSystem CallbackObject StreamObject Socks5

section Server
open ServerSessionSocks5 ServerSocks5Run

def serverAfter : Callback → ℕ
  | .authReadReqHandler => 524
  | .authReadReqMethodsHandler => 268
  | .authWriteRespHandler => 265
  | .connReadReqHandler => 260
  | .connReadReqAddrDomainnameHandler => 258
  | .connReadReqAddrIpv4Handler | .connReadReqAddrDomainnameStrHandler
  | .connReadReqAddrIpv6Handler | .writeConnectResponseHandler => 0

def serverRank (_ : Session) (op : Op UInt8 Callback) : ℕ := op.size+1+serverAfter op.callback

theorem server_after (k : Callback) (s : Session) (err : ErrorCode) :
    ((started (run k s err).2).map fun op => op.size+1+serverAfter op.callback).sum ≤
      serverAfter k := by
  cases k <;>
    simp only [run, authReadReqHandler, authReadReqMethodsHandler, authWriteRespHandler,
      connReadReqHandler, connReadReqAddrIpv4Handler, connReadReqAddrDomainnameHandler,
      connReadReqAddrDomainnameStrHandler, connReadReqAddrIpv6Handler,
      writeConnectResponseHandler] <;>
    split_ifs <;>
    simp [call_idle, deliver_idle, connReadReq, connReadReqAddrIpv4, connReadReqAddrDomainname,
      connReadReqAddrIpv6, authWriteResp, authReadReqMethods, connReadReqAddrDomainnameStr, Op.size,
      Op.callback, serverAfter]
  · have := s.readAuthHdr[1].toNat_lt
    omega
  · have := s.readAddr[0].toNat_lt
    omega

theorem server_ranked (fault : ErrorCode → Prop) (c : ServerState) :
    Ranked server fault serverRank c := by
  intro op hp
  constructor
  · simp only [serverRank]
    omega
  · intro res ha
    have h := server_after op.callback (store c.obj res.data op.callback) (res.code .noError)
    change ((started (run op.callback _ _).2).map fun op => op.size+1+serverAfter op.callback).sum
      + op.size < op.size+1+serverAfter op.callback
    omega

/-- The read of what is left of an address ends with the request. -/
theorem address_needs (g taken pre m inp : Bytes) (rsv atyp : UInt8) (n : ℕ) (hg : Offer g)
    (hf : ∀ b : Bytes, b.length = n → AddressField atyp (pre ++ b))
    (htk : taken = g ++ [5,1,rsv,atyp] ++ pre) (hm : Complete m) (hpre : m <+: inp)
    (ht : taken <+: inp) : taken.length+n ≤ m.length := by
  subst htk
  obtain ⟨field,hfield,rfl⟩ := complete_at g rsv atyp m inp hg hm hpre
    ((List.prefix_append _ _).trans ht)
  have := field_length atyp _ pre field inp n hf hfield ht hpre
  simp only [List.length_append] at this ⊢
  omega

/-- An unfinished read of a request stays within the request. -/
theorem request_needs (f : Faults) (old : Destination) (c : ServerState)
    (h : Listens f old c) (n : ℕ) (k : Callback) (hp : c.pending = [.read n k]) (m inp : Bytes)
    (hm : Complete m) (hpre : m <+: inp) (ht : StreamObject.taken c <+: inp) :
    (StreamObject.taken c).length+n ≤ m.length := by
  cases h with
  | greeting hl h =>
    obtain ⟨rfl,-⟩ : 2 = n ∧ _ := by simpa using h.pending.symm.trans hp
    rw [h.taken]
    cases hm with
    | mk g rsv atyp field hg hf => cases hg with | mk n ms hn h0 => simp
  | methods n' hl hm' h =>
    obtain ⟨rfl,-⟩ : n'.toNat = n ∧ _ := by simpa using h.pending.symm.trans hp
    rw [h.taken] at ht ⊢
    cases hm with
    | mk g rsv atyp field hg hf =>
      cases hg with
      | mk n ms hn h0 =>
        have heq := prefix_agree [5,n'] [5,n] inp ht (List.IsPrefix.trans (by simp) hpre) rfl
        simp only [List.cons.injEq, and_true, true_and] at heq
        simp [heq, hn]
        omega
  | answer g hg hl h => exact absurd (h.pending.symm.trans hp) (by simp)
  | header g hg hl h =>
    obtain ⟨rfl,-⟩ : 4 = n ∧ _ := by simpa using h.pending.symm.trans hp
    rw [h.taken] at ht ⊢
    cases hm with
    | mk g' rsv atyp field hg' hf =>
      have := offer_unique g g' inp hg hg' ht (List.IsPrefix.trans (by simp) hpre)
      simp [this]
  | length g rsv hg hl h =>
    obtain ⟨rfl,-⟩ : 1 = n ∧ _ := by simpa using h.pending.symm.trans hp
    rw [h.taken] at ht ⊢
    obtain ⟨field,hf,rfl⟩ := complete_at g rsv 3 m inp hg hm hpre ht
    cases hf with
    | domainname len a ha =>
      simp only [List.length_append, List.length_cons, List.length_nil]
      omega
  | ipv4 g rsv hg hl h =>
    obtain ⟨rfl,-⟩ : 6 = n ∧ _ := by simpa using h.pending.symm.trans hp
    exact address_needs g _ [] m inp rsv 1 6 hg (fun b hb => .ipv4 b hb)
      (by rw [h.taken, List.append_nil]) hm hpre ht
  | domainname g rsv len hg hl hlen h =>
    obtain ⟨rfl,-⟩ : len.toNat+2 = n ∧ _ := by simpa using h.pending.symm.trans hp
    exact address_needs g _ [len] m inp rsv 3 _ hg (fun b hb => .domainname len b hb) h.taken hm
      hpre ht
  | ipv6 g rsv hg hl h =>
    obtain ⟨rfl,-⟩ : 18 = n ∧ _ := by simpa using h.pending.symm.trans hp
    exact address_needs g _ [] m inp rsv 4 18 hg (fun b hb => .ipv6 b hb)
      (by rw [h.taken, List.append_nil]) hm hpre ht
  | answered g rsv atyp field hg hs h => exact absurd (h.pending.symm.trans hp) (by simp)
  | failed err t u herr ho why h => exact absurd (h.pending.symm.trans hp) (by simp)

/-- On a stream that begins with a complete request, and without faults, the
server comes to the end of its call. -/
theorem server_inevitable (s : Session) (hs : Idle s) (m inp : Bytes)
    (hm : Complete m) (hpre : m <+: inp) :
    Inevitable (Flow server Faults.none.may inp) (fun w => w.active = [] ∧ w.taken <+: inp ∧
      ∃ c, Tracks w c ∧ Listens Faults.none s.userDst c) (start s) := by
  refine ended_inevitable server Faults.none.may inp serverRank (server_ranked _)
    (Listens Faults.none s.userDst) (listens_next Faults.none s.userDst) ?_ _ _
    (tracks_begun _ (readConnectRequest_single s)) (listens_begun Faults.none s hs) List.nil_prefix
  intro c n k hph hp htk
  exact (request_needs Faults.none s.userDst c hph n k hp m inp hm hpre htk).trans hpre.length_le

end Server

section Client
open ClientSessionSocks5 ClientSocks5Run

def sizeOf (r : Effect) : ℕ := ((started r.2).map Op.size).sum

/-- The sizes of the two messages depend on what no callback changes. -/
def requestCost (s : Session) : ℕ := sizeOf (connWriteReq s)+1
def credsCost (s : Session) : ℕ := sizeOf (authWriteCreds s)+1+(3+requestCost s)

def clientAfter (s : Session) : Callback → ℕ
  | .authWriteReqHandler => 3+(credsCost s+requestCost s)
  | .authReadRespHandler => credsCost s+requestCost s
  | .authWriteCredsHandler => 3+requestCost s
  | .authReadCredsReplyHandler => requestCost s
  | .connReadRespHandler => 260
  | .connReadRespAddrDomainnameHandler => 258
  | .connWriteReqHandler | .connReadRespAddrIpv4Handler
  | .connReadRespAddrDomainnameStrHandler | .connReadRespAddrIpv6Handler => 0

def clientRank (s : Session) (op : Op UInt8 Callback) : ℕ :=
  op.size+1+clientAfter s op.callback

def costOf (r : Effect) : ℕ := ((started r.2).map (clientRank r.1)).sum

theorem request_cost (s : Session) : costOf (connWriteReq s) = requestCost s := by
  simp [costOf, requestCost, sizeOf, connWriteReq, clientRank, clientAfter, Op.callback]

theorem creds_cost (s : Session) : costOf (authWriteCreds s) = credsCost s := by
  have h : ∀ buf, requestCost { s with writeBuf := buf } = requestCost s := fun _ => rfl
  simp [costOf, credsCost, sizeOf, authWriteCreds, clientRank, clientAfter, Op.callback, h]

theorem call_cost (s : Session) (h : UserHandler) (err : ErrorCode) :
    costOf (callAndClearHandler s h err) = 0 := by
  simp [costOf, call_single]

theorem complete_cost (s : Session) (err : ErrorCode) :
    costOf (connReadRespAddrComplete s err) = 0 := by
  have h : started (connReadRespAddrComplete s err).2 = [] := by
    simp only [connReadRespAddrComplete]
    split_ifs <;> exact call_single _ _ _
  simp [costOf, h]

theorem client_after (k : Callback) (s : Session) (err : ErrorCode) :
    costOf (run k s err) ≤ clientAfter s k := by
  have hcreds : ∀ buf, credsCost { s with writeBuf := buf } = credsCost s := fun _ => rfl
  have hreq : ∀ buf, requestCost { s with writeBuf := buf } = requestCost s := fun _ => rfl
  cases k with
  | authWriteReqHandler =>
    simp only [run, authWriteReqHandler]
    split_ifs
    · simp [call_cost]
    · simp [costOf, authReadResp, clientRank, Op.size, Op.callback, clientAfter, hcreds, hreq]
  | authReadRespHandler =>
    simp only [run, authReadRespHandler]
    split_ifs <;> simp [call_cost, request_cost, creds_cost, clientAfter]
  | authWriteCredsHandler =>
    simp only [run, authWriteCredsHandler]
    split_ifs
    · simp [call_cost]
    · simp [costOf, authReadCredsReply, clientRank, Op.size, Op.callback, clientAfter, hreq]
  | authReadCredsReplyHandler =>
    simp only [run, authReadCredsReplyHandler]
    split_ifs <;> simp [call_cost, request_cost, clientAfter]
  | connWriteReqHandler =>
    simp only [run, connWriteReqHandler]
    split_ifs <;> simp [call_cost]
  | connReadRespHandler =>
    simp only [run, connReadRespHandler]
    split_ifs <;> simp [call_single, costOf, connReadRespAddrIpv4, connReadRespAddrDomainname,
      connReadRespAddrIpv6, clientRank, Op.size, Op.callback, clientAfter]
  | connReadRespAddrDomainnameHandler =>
    simp only [run, connReadRespAddrDomainnameHandler]
    split_ifs
    · simp [call_cost]
    · have := s.connReadPacketAddr[0].toNat_lt
      simp [costOf, connReadRespAddrDomainnameStr, clientRank, Op.size, Op.callback, clientAfter]
      omega
  | connReadRespAddrIpv4Handler => exact Nat.le_of_eq (complete_cost s err)
  | connReadRespAddrDomainnameStrHandler => exact Nat.le_of_eq (complete_cost s err)
  | connReadRespAddrIpv6Handler => exact Nat.le_of_eq (complete_cost s err)

theorem client_ranked (fault : ErrorCode → Prop) (c : ClientState) :
    Ranked client fault clientRank c := by
  intro op hp
  constructor
  · simp only [clientRank]
    omega
  · intro res ha
    have h := client_after op.callback (store c.obj res.data op.callback) (res.code .noError)
    have hs : clientAfter (store c.obj res.data op.callback) op.callback =
        clientAfter c.obj op.callback := by
      cases op.callback <;> rfl
    change costOf (run op.callback _ _) + op.size < op.size+1+clientAfter c.obj op.callback
    omega

end Client

end ProxySwiss.Socks5Progress
