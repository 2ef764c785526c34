import ProxySwiss.CallRemains
import ProxySwiss.Socks5Progress

/-!
# What the call of a SOCKS5 client leaves behind

A call remembers the handler of its user and a variable of its user. Every
branch that ends it lets go of the handler, but only the branch of success lets
go of the variable. Where the other branches are taken is said of the stream.
-/

set_option autoImplicit false

namespace ProxySwiss.Socks5Idle
open Memory TransitionSystem CallbackObject StreamObject Socks5 Socks5Progress

namespace Client
open ClientSessionSocks5 ClientSocks5Run

/-- What the two assertions at the head of the call ask for. -/
structure Rests (s : Session) : Prop where
  handler : s.userReadRespHandler = false
  pointer : s.puserConnResp = false

theorem rests_asserts (s : Session) :
    .assertFailed ∉ emitted (readConnectResponse s).2 ↔ Rests s := by
  constructor
  · intro h
    cases hh : s.userReadRespHandler <;> cases hp : s.puserConnResp <;>
      simp_all [readConnectResponse, assertThat, connReadResp, Rests.mk]
  · intro h
    simp [readConnectResponse_eq s h.handler h.pointer]

/-- Four octets that no response begins with. -/
inductive BadHeader : Bytes → Prop
  | mk (v rep rsv atyp : UInt8) (h : ¬ (v = 5 ∧ rep ≤ 8 ∧ (atyp = 1 ∨ atyp = 3 ∨ atyp = 4))) :
      BadHeader [v,rep,rsv,atyp]

/-- What is no response, or a response that the connection was not made. -/
def Unfavourable (t : Bytes) : Prop := BadHeader t ∨ ∃ rep, rep ≠ 0 ∧ Reply rep t

/-- The user was called. -/
def Called (es : List Event) : Prop := ∃ err, .call .readResp err ∈ es

/-- What the call keeps until then. -/
structure Armed (s : Session) : Prop where
  handler : s.userReadRespHandler = true
  pointer : s.puserConnResp = true

abbrev Left (f : Faults) (c : ClientState) : Prop :=
  Remains f.may Unfavourable (Reply 0) Armed Rests Called c

theorem waits_next (f : Faults) (c : ClientState) (op op' : Op UInt8 Callback)
    (res : Result UInt8 ErrorCode) (s : Session) (t : Bytes) (h : At c [op] t [] [])
    (hd : client.done op res c.obj = (s,[.start op'])) (hs : Armed s) :
    Left f (c.next client [] [] op res) :=
  .starts _ _ _ _ _ _ _ c op op' res s t [] [] h hd hs (by simp [Called])

theorem kept_next (f : Faults) (c : ClientState) (op : Op UInt8 Callback)
    (res : Result UInt8 ErrorCode) (s : Session) (err : ErrorCode) (t : Bytes)
    (h : At c [op] t [] []) (hd : client.done op res c.obj = callAndClearHandler s .readResp err)
    (hs : Armed s) (why : (∃ e, f.may e) ∨ Unfavourable (t ++ op.received res.data)) :
    Left f (c.next client [] [] op res) := by
  refine .ends _ _ _ _ _ _ _ c op res _ t [] [] _ h (hd.trans (call_readResp s err hs.handler)) ?_
    ⟨err,by simp⟩ why
  exact fun hr => absurd (hs.pointer.symm.trans hr.pointer) (by simp)

theorem store_armed (s : Session) (d : Bytes) (k : Callback) (hs : Armed s) :
    Armed (store s d k) := by
  cases k <;> exact ⟨hs.handler,hs.pointer⟩

theorem header_left (f : Faults) (c : ClientState) (res : Result UInt8 ErrorCode)
    (hs : Armed c.obj) (h : At c [.read 4 .connReadRespHandler] [] [] [])
    (ha : Allowed f.may (.read 4 Callback.connReadRespHandler) res) :
    Left f (c.next client [] [] (.read 4 .connReadRespHandler) res) := by
  cases res with
  | error e d =>
    exact kept_next f c _ _ (store c.obj d .connReadRespHandler) e [] h
      (if_pos (f.failed e ha.1)) (store_armed _ _ _ hs) (.inl ⟨e,ha.1⟩)
  | ok d =>
    obtain ⟨v,rep,rsv,atyp,rfl⟩ := List.length_eq_four.mp ha
    have hd := header_done c.obj _ v rep rsv atyp rfl
    set s : Session := { c.obj with connReadPacketHeader := ⟨[v,rep,rsv,atyp],rfl⟩ }
    have hs' : Armed s := ⟨hs.handler,hs.pointer⟩
    have hbad := fun hno hd => kept_next f c _ (.ok [v,rep,rsv,atyp]) s
      (makeErrorCode .protocolViolation) [] h hd hs' (.inr (.inl (.mk v rep rsv atyp hno)))
    split_ifs at hd with hok h1 h3 h4
    · exact waits_next f c _ _ _ _ [] h hd hs'
    · exact waits_next f c _ _ _ _ [] h hd hs'
    · exact waits_next f c _ _ _ _ [] h hd hs'
    · exact hbad (by simp [h1, h3, h4]) hd
    · exact hbad (fun hno => hok ⟨hno.1,hno.2.1⟩) hd

theorem length_left (f : Faults) (c : ClientState) (t : Bytes) (res : Result UInt8 ErrorCode)
    (hs : Armed c.obj) (h : At c [.read 1 .connReadRespAddrDomainnameHandler] t [] [])
    (ha : Allowed f.may (.read 1 Callback.connReadRespAddrDomainnameHandler) res) :
    Left f (c.next client [] [] (.read 1 .connReadRespAddrDomainnameHandler) res) := by
  cases res with
  | error e d =>
    exact kept_next f c _ _ (store c.obj d .connReadRespAddrDomainnameHandler) e t h
      (if_pos (f.failed e ha.1)) (store_armed _ _ _ hs) (.inl ⟨e,ha.1⟩)
  | ok d =>
    have hd : client.done (.read 1 .connReadRespAddrDomainnameHandler) (.ok d) c.obj =
        connReadRespAddrDomainnameStr (store c.obj d .connReadRespAddrDomainnameHandler) := by
      change connReadRespAddrDomainnameHandler _ .noError = _
      rw [connReadRespAddrDomainnameHandler, if_neg ErrorCode.noError_failed]
      rfl
    exact waits_next f c _ _ _ _ t h hd (store_armed _ _ _ hs)

theorem complete_refused (s : Session) (h : s.connReadPacketHeader[1] ≠ 0) :
    connReadRespAddrComplete s .noError = callAndClearHandler
      { s with connResp := ⟨socks5RepToMajorCode s.connReadPacketHeader[1]⟩ } .readResp
        .noError := by
  rw [connReadRespAddrComplete, if_neg ErrorCode.noError_failed, if_pos h]

theorem complete_granted (s : Session) (h : s.connReadPacketHeader[1] = 0)
    (hs : s.userReadRespHandler = true) : connReadRespAddrComplete s .noError =
      ({ s with
        connResp := ⟨.succeeded⟩
        userReadRespHandler := false
        puserConnResp := false },[.emit (.call .readResp .noError)]) := by
  simp [connReadRespAddrComplete, h, callAndClearHandler, hs]

theorem address_left (f : Faults) (c : ClientState) (rep rsv atyp : UInt8) (pre : Bytes) (n : ℕ)
    (k : Callback) (hrep : rep ≤ 8) (hk : Completes k)
    (hf : ∀ a : Bytes, a.length = n → AddressField atyp (pre ++ a))
    (res : Result UInt8 ErrorCode) (hs : Armed c.obj)
    (hh : c.obj.connReadPacketHeader.bytes = [5,rep,rsv,atyp])
    (h : At c [.read n k] ([5,rep,rsv,atyp] ++ pre) [] []) (ha : Allowed f.may (.read n k) res) :
    Left f (c.next client [] [] (.read n k) res) := by
  obtain ⟨hrun,hheader,-,-⟩ := completes_run k hk c.obj res.data (res.code .noError)
  have hs' := store_armed c.obj res.data k hs
  have hd : client.done (.read n k) res c.obj =
      connReadRespAddrComplete (store c.obj res.data k) (res.code .noError) := hrun
  cases res with
  | error e d =>
    exact kept_next f c _ _ _ e _ h (hd.trans (if_pos (f.failed e ha.1))) hs' (.inl ⟨e,ha.1⟩)
  | ok d =>
    have hrepAt : (store c.obj d k).connReadPacketHeader[1] = rep := by
      change (store c.obj d k).connReadPacketHeader.bytes.getD 1 0 = rep
      simp [show (store c.obj d k).connReadPacketHeader.bytes = _ from hheader ▸ hh]
    have hm : Reply rep ([5,rep,rsv,atyp] ++ pre ++ d) := by
      rw [List.append_assoc]
      exact ⟨rsv,atyp,_,hrep,hf d ha⟩
    by_cases h0 : rep = 0
    · subst h0
      obtain ⟨hobj,hn⟩ := at_emit client c _ _ _ _ _ _ _ h
        (hd.trans (complete_granted _ hrepAt hs'.handler))
      exact .cleared hn.pending (hn.taken ▸ hm) (by rw [hobj]; exact ⟨rfl,rfl⟩)
        ⟨.noError,by simp [hn.events]⟩
    · exact kept_next f c _ _ _ _ _ h (hd.trans (complete_refused _ (hrepAt ▸ h0)))
        ⟨hs'.handler,hs'.pointer⟩ (.inr (.inr ⟨rep,h0,hm⟩))

theorem left_next (f : Faults) (old : ConnectResponse) (c : ClientState) (op : Op UInt8 Callback)
    (res : Result UInt8 ErrorCode) (hc : Reading f old [] [] [] c) (hl : Left f c)
    (hp : c.pending = [op]) (ha : Allowed f.may op res) :
    Left f (c.next client [] [] op res) := by
  have hs := hl.armed _ _ _ _ _ _ c op hp
  cases hc with
  | header hr h =>
    obtain rfl := List.singleton_inj.mp (hp.symm.trans h.pending)
    exact header_left f c res hs h ha
  | length rep rsv hrep hr hh h =>
    obtain rfl := List.singleton_inj.mp (hp.symm.trans h.pending)
    exact length_left f c _ res hs h ha
  | address rep rsv atyp pre n k hrep hk hf hr hh h =>
    obtain rfl := List.singleton_inj.mp (hp.symm.trans h.pending)
    exact address_left f c rep rsv atyp pre n k hrep hk hf res hs hh h ha
  | answered rep m hm hresp h => exact absurd (hp.symm.trans h.pending) (by simp)
  | failed err t herr hresp why h => exact absurd (hp.symm.trans h.pending) (by simp)

def start (s : Session) : ClientWire := Wire.begun (readConnectResponse s)

theorem start_single (s : Session) : (started (readConnectResponse s).2).length ≤ 1 := by
  simp only [readConnectResponse, assertThat]
  split_ifs <;> simp [connReadResp]

/-- Where a call stands, and what it has left behind. -/
abbrev Stands (f : Faults) (old : ConnectResponse) (c : ClientState) : Prop :=
  Reading f old [] [] [] c ∧ Left f c

theorem stands_begun (f : Faults) (s : Session) (hs : Rests s) :
    Stands f s.connResp (Conf.begun (readConnectResponse s)) := by
  rw [readConnectResponse_eq s hs.handler hs.pointer]
  exact ⟨.header ⟨rfl,rfl⟩ (at_begun _),.waits ⟨rfl,rfl⟩ (by simp [Called, Conf.begun])⟩

theorem stands_next (f : Faults) (old : ConnectResponse) (c : ClientState)
    (op : Op UInt8 Callback) (res : Result UInt8 ErrorCode) (h : Stands f old c)
    (hp : c.pending = [op]) (ha : Allowed f.may op res) :
    Stands f old (c.next client [] [] op res) :=
  ⟨reading_next f old [] [] [] c op res h.1 hp ha,left_next f old c op res h.1 h.2 hp ha⟩

/-- A header that was taken is that of what declines. -/
theorem declined_reply (inp : Bytes) (rep rsv atyp : UInt8) (hrep : rep ≤ 8)
    (hatyp : atyp = 1 ∨ atyp = 3 ∨ atyp = 4) (h : ∃ t, Unfavourable t ∧ t <+: inp)
    (ht : [5,rep,rsv,atyp] <+: inp) :
    rep ≠ 0 ∧ ∃ a, AddressField atyp a ∧ [5,rep,rsv,atyp] ++ a <+: inp := by
  obtain ⟨t,hbad | ⟨rep',h0,hm⟩,hpre⟩ := h
  · cases hbad with
    | mk v rep' rsv' atyp' hno =>
      have heq := prefix_agree _ _ inp hpre ht rfl
      simp only [List.cons.injEq, and_true] at heq
      obtain ⟨rfl,rfl,rfl,rfl⟩ := heq
      exact absurd ⟨rfl,hrep,hatyp⟩ hno
  · cases hm with
    | mk rsv' atyp' a hrep' ha =>
      have heq := prefix_agree [5,rep',rsv',atyp'] _ inp ((List.prefix_append _ _).trans hpre) ht
        rfl
      simp only [List.cons.injEq, and_true, true_and] at heq
      obtain ⟨rfl,rfl,rfl⟩ := heq
      exact ⟨h0,a,ha,hpre⟩

theorem field_atyp (atyp : UInt8) (a : Bytes) (h : AddressField atyp a) :
    atyp = 1 ∨ atyp = 3 ∨ atyp = 4 := by
  cases h <;> simp

/-- No read goes beyond what declines. -/
theorem declined_needs (f : Faults) (old : ConnectResponse) (inp : Bytes)
    (h : ∃ t, Unfavourable t ∧ t <+: inp) (c : ClientState) (n : ℕ) (k : Callback)
    (hc : Stands f old c) (hp : c.pending = [.read n k]) (ht : taken c <+: inp) :
    (taken c).length+n ≤ inp.length := by
  cases hc.1 with
  | header hr hat =>
    obtain ⟨rfl,-⟩ : 4 = n ∧ _ := by simpa using hat.pending.symm.trans hp
    obtain ⟨t,hbad,hpre⟩ := h
    have hlen : 4 ≤ t.length := by
      rcases hbad with hbad | ⟨rep,-,hm⟩
      · cases hbad; exact Nat.le_refl _
      · cases hm; simp
    have := hpre.length_le
    rw [hat.taken, List.length_nil]
    omega
  | length rep rsv hrep hr hh hat =>
    obtain ⟨rfl,-⟩ : 1 = n ∧ _ := by simpa using hat.pending.symm.trans hp
    have htk : taken c = [5,rep,rsv,3] := hat.taken
    obtain ⟨-,a,ha,hpre⟩ := declined_reply inp rep rsv 3 hrep (by simp) h (htk ▸ ht)
    have := hpre.length_le
    cases ha with
    | domainname len a ha =>
      simp only [htk, List.length_append, List.length_cons, List.length_nil] at this ⊢
      omega
  | address rep rsv atyp pre n' k' hrep hk hf hr hh hat =>
    obtain ⟨rfl,-⟩ : n' = n ∧ _ := by simpa using hat.pending.symm.trans hp
    have htk : taken c = [5,rep,rsv,atyp] ++ pre := hat.taken
    rw [htk] at ht ⊢
    have hatyp := field_atyp atyp _ (hf (List.replicate n' 0) (by simp))
    obtain ⟨-,a,ha,hpre⟩ := declined_reply inp rep rsv atyp hrep hatyp h
      ((List.prefix_append _ _).trans ht)
    have hlen := field_length atyp _ pre a inp n' hf ha ht hpre
    have := hpre.length_le
    simp only [List.length_append] at this ⊢
    omega
  | answered rep m hm hresp hat => exact absurd (hat.pending.symm.trans hp) (by simp)
  | failed err t herr hresp why hat => exact absurd (hat.pending.symm.trans hp) (by simp)

/-- A response that tells of a connection is not one that declines. -/
theorem granted_alone (inp t m : Bytes) (ht : Unfavourable t) (hm : Reply 0 m) (hpre : t <+: inp) :
    ¬ m <+: inp := by
  intro h
  cases hm with
  | mk rsv atyp a hrep ha =>
    exact (declined_reply inp 0 rsv atyp hrep (field_atyp atyp a ha) ⟨t,ht,hpre⟩
      ((List.prefix_append _ _).trans h)).1 rfl

theorem declined_called (f : Faults) (s : Session) (hs : Rests s) (inp t : Bytes)
    (ht : Unfavourable t) (hpre : t <+: inp) :
    ∃ w, Run (Flow client f.may inp) (start s) w ∧ Called w.events := by
  obtain ⟨w,hr,hact,-,c,hc,hI⟩ := (ended_inevitable client f.may inp clientRank
    (client_ranked _) (Stands f s.connResp) (stands_next f s.connResp)
    (declined_needs f s.connResp inp ⟨t,ht,hpre⟩) _ _ (tracks_begun _ (start_single s))
    (stands_begun f s hs) List.nil_prefix).reached
  refine ⟨w,hr,?_⟩
  cases hI.1 with
  | answered rep m hm hresp hat => exact ⟨.noError,by simp [hc.events, hat.events]⟩
  | failed err t herr hresp why hat => exact ⟨err,by simp [hc.events, hat.events]⟩
  | header hr hat | length _ _ _ _ _ hat | address _ _ _ _ _ _ _ _ _ _ _ hat =>
    exact absurd hat (not_at_op w c _ _ _ _ hc hact)

/-- The call leaves the object at rest exactly if nothing fails and no response
but one that tells of a connection comes from the proxy. -/
theorem client_rests (f : Faults) (s : Session) (hs : Rests s) (inp : Bytes) :
    (∀ w, Run (Flow client f.may inp) (start s) w → Called w.events → Rests w.obj) ↔
      (∀ e, ¬ f.may e) ∧ ¬ ∃ t, Unfavourable t ∧ t <+: inp := by
  have hbegun := readConnectResponse_eq s hs.handler hs.pointer
  refine rests_iff client f.may inp Unfavourable (Reply 0) Armed Rests Called
    (Stands f s.connResp) (stands_next f s.connResp) (fun c hc => hc.2) (readConnectResponse s)
    (.read 4 .connReadRespHandler) (by rw [hbegun]; rfl) (stands_begun f s hs) ?_
    (granted_alone inp) (fun _ t ht hpre => declined_called f s hs inp t ht hpre)
  intro e he
  have hd : client.done (.read 4 .connReadRespHandler) (.error e []) (readConnectResponse s).1 =
      callAndClearHandler (store (readConnectResponse s).1 [] .connReadRespHandler) .readResp e :=
    if_pos (f.failed e he)
  rw [call_readResp _ _ (by rw [hbegun]; rfl)] at hd
  rw [hd, hbegun]
  exact ⟨⟨e,by simp⟩,fun h => absurd h.pointer (by simp [store])⟩

end Client

end ProxySwiss.Socks5Idle
