import ProxySwiss.CallRemains
import ProxySwiss.Socks5Progress

/-!
# What the call of a SOCKS5 server leaves behind

The server remembers a handler and a variable as the client does, and lets go
of the variable only when it delivers a request. It ends on the first octets
that are not part of one.
-/

set_option autoImplicit false

namespace ProxySwiss.Socks5Idle
open Memory TransitionSystem CallbackObject StreamObject Socks5 Socks5Progress

namespace Server
open ServerSessionSocks5 ServerSocks5Run

theorem idle_asserts (s : Session) :
    .assertFailed ∉ emitted (readConnectRequest s).2 ↔ Idle s := by
  constructor
  · intro h
    cases hh : s.userReadReqHandler <;> cases hp : s.puserDst <;>
      simp_all [readConnectRequest, assertThat, authReadReq, Idle.mk]
  · intro h
    simp [readConnectRequest, assertThat, authReadReq, h.handler, h.pointer]

/-- What no request begins with, as far as the call reads it. -/
inductive Unwanted : Bytes → Prop
  | hello (v n : UInt8) (h : v ≠ 5 ∨ n = 0) : Unwanted [v,n]
  | methods (n : UInt8) (d : Bytes) (hd : d.length = n.toNat) (h : 0 ∉ d) : Unwanted ([5,n] ++ d)
  | header (g : Bytes) (v cmd rsv atyp : UInt8) (hg : Offer g)
      (h : ¬ (v = 5 ∧ cmd = 1 ∧ (atyp = 1 ∨ atyp = 3 ∨ atyp = 4))) :
      Unwanted (g ++ [v,cmd,rsv,atyp])

theorem unwanted_unwelcome (t : Bytes) (h : Unwanted t) : Unwelcome t := by
  cases h with
  | hello v n h => exact unwelcome_hello v n h
  | methods n d hd h => exact unwelcome_methods n d hd h
  | header g v cmd rsv atyp hg h => exact unwelcome_header g v cmd rsv atyp hg h

def Called (es : List Event) : Prop := ∃ err, .call .readReq err ∈ es

structure Armed (s : Session) : Prop where
  handler : s.userReadReqHandler = true
  pointer : s.puserDst = true

abbrev Left (f : Faults) (c : ServerState) : Prop :=
  Remains f.may Unwanted Complete Armed Idle Called c

theorem waits_next (f : Faults) (c : ServerState) (op op' : Op UInt8 Callback)
    (res : Result UInt8 ErrorCode) (s : Session) (t u : Bytes) (h : At c [op] t u [])
    (hd : server.done op res c.obj = (s,[.start op'])) (hs : Armed s) :
    Left f (c.next server [] [] op res) :=
  .starts _ _ _ _ _ _ _ c op op' res s t u [] h hd hs (by simp [Called])

theorem kept_next (f : Faults) (c : ServerState) (op : Op UInt8 Callback)
    (res : Result UInt8 ErrorCode) (s : Session) (err : ErrorCode) (t u : Bytes)
    (h : At c [op] t u []) (hd : server.done op res c.obj = callAndClearHandler s .readReq err)
    (hs : Armed s) (why : (∃ e, f.may e) ∨ Unwanted (t ++ op.received res.data)) :
    Left f (c.next server [] [] op res) := by
  refine .ends _ _ _ _ _ _ _ c op res _ t u [] _ h (hd.trans (call_readReq s err hs.handler)) ?_
    ⟨err,by simp⟩ why
  exact fun hr => absurd (hs.pointer.symm.trans hr.pointer) (by simp)

theorem store_armed (s : Session) (d : Bytes) (k : Callback) (hs : Armed s) :
    Armed (store s d k) := by
  cases k <;> exact ⟨hs.handler,hs.pointer⟩

/-- An operation that fails ends the call, whichever it is. -/
theorem error_done (op : Op UInt8 Callback) (e : ErrorCode) (d : Bytes) (s : Session)
    (he : e.failed) (hk : op.callback ≠ .writeConnectResponseHandler) (hs : Armed s) :
    ∃ x, Armed x ∧ server.done op (.error e d) s = callAndClearHandler x .readReq e := by
  have hst := store_armed s d op.callback hs
  change ∃ x, Armed x ∧ run op.callback (store s d op.callback) e = _
  cases hop : op.callback with
  | writeConnectResponseHandler => exact absurd hop hk
  | authReadReqMethodsHandler =>
    rw [hop] at hst
    exact ⟨{ store s d .authReadReqMethodsHandler with readAuthMethods := [] },
      ⟨hst.handler,hst.pointer⟩,if_pos he⟩
  | authReadReqHandler | authWriteRespHandler | connReadReqHandler | connReadReqAddrIpv4Handler
  | connReadReqAddrDomainnameHandler | connReadReqAddrDomainnameStrHandler
  | connReadReqAddrIpv6Handler =>
    rw [hop] at hst
    exact ⟨_,hst,if_pos he⟩

/-- The callbacks that end the address of a request. -/
def Delivers (k : Callback) : Prop :=
  k = .connReadReqAddrIpv4Handler ∨ k = .connReadReqAddrDomainnameStrHandler ∨
    k = .connReadReqAddrIpv6Handler

theorem address_done (n : ℕ) (k : Callback) (hk : Delivers k) (d : Bytes) (s : Session)
    (hs : Armed s) :
    ∃ x asserted, Armed x ∧ server.done (.read n k) (.ok d) s = deliver x asserted := by
  have hst := store_armed s d k hs
  rcases hk with rfl | rfl | rfl
  · refine ⟨_,_,?_,(if_neg ErrorCode.noError_failed :
      connReadReqAddrIpv4Handler (store s d .connReadReqAddrIpv4Handler) .noError = _)⟩
    exact ⟨hst.handler,hst.pointer⟩
  · refine ⟨_,_,?_,(if_neg ErrorCode.noError_failed :
      connReadReqAddrDomainnameStrHandler (store s d .connReadReqAddrDomainnameStrHandler)
        .noError = _)⟩
    exact ⟨hst.handler,hst.pointer⟩
  · refine ⟨_,_,?_,(if_neg ErrorCode.noError_failed :
      connReadReqAddrIpv6Handler (store s d .connReadReqAddrIpv6Handler) .noError = _)⟩
    exact ⟨hst.handler,hst.pointer⟩

theorem failed_left (f : Faults) (c : ServerState) (op : Op UInt8 Callback) (e : ErrorCode)
    (d t u : Bytes) (h : At c [op] t u []) (hs : Armed c.obj)
    (hk : op.callback ≠ .writeConnectResponseHandler) (he : f.may e) :
    Left f (c.next server [] [] op (.error e d)) := by
  obtain ⟨x,hx,hd⟩ := error_done op e d c.obj (f.failed e he) hk hs
  exact kept_next f c op _ x e t u h hd hx (.inl ⟨e,he⟩)

theorem address_left (f : Faults) (c : ServerState) (g : Bytes) (rsv atyp : UInt8) (pre : Bytes)
    (n : ℕ) (k : Callback) (hg : Offer g) (hk : Delivers k)
    (hf : ∀ a : Bytes, a.length = n → AddressField atyp (pre ++ a)) (res : Result UInt8 ErrorCode)
    (hs : Armed c.obj) (h : At c [.read n k] (g ++ [5,1,rsv,atyp] ++ pre) [5,0] [])
    (ha : Allowed f.may (.read n k) res) : Left f (c.next server [] [] (.read n k) res) := by
  cases res with
  | error e d =>
    refine failed_left f c _ e d _ _ h hs ?_ ha.1
    rcases hk with rfl | rfl | rfl <;> simp [Op.callback]
  | ok d =>
    obtain ⟨x,asserted,hx,hd⟩ := address_done n k hk d c.obj hs
    rw [deliver_eq x asserted hx.handler] at hd
    have hn := at_next server c (.read n k) _ _ _ (.ok d) h
    have hobj : (c.next server [] [] (.read n k) (.ok d)).obj =
        { x with userReadReqHandler := false, puserDst := false } := congrArg Prod.fst hd
    rw [hd] at hn
    refine .cleared ?_ ?_ (by rw [hobj]; exact ⟨rfl,rfl⟩) ⟨.noError,?_⟩
    · rw [hn.pending]
      cases asserted <;> rfl
    · rw [hn.taken, List.append_assoc]
      exact .mk g rsv atyp _ hg (hf d ha)
    · rw [hn.events]
      cases asserted <;> simp

theorem greeting_left (f : Faults) (c : ServerState) (res : Result UInt8 ErrorCode)
    (hs : Armed c.obj) (h : At c [.read 2 .authReadReqHandler] [] [] [])
    (ha : Allowed f.may (.read 2 Callback.authReadReqHandler) res) :
    Left f (c.next server [] [] (.read 2 .authReadReqHandler) res) := by
  cases res with
  | error e d => exact failed_left f c _ e d _ _ h hs (by simp [Op.callback]) ha.1
  | ok d =>
    obtain ⟨v,n,rfl⟩ := List.length_eq_two.mp ha
    have hd := hello_done c.obj _ v n rfl
    set s : Session := { c.obj with readAuthHdr := ⟨[v,n],rfl⟩ }
    have hs' : Armed s := ⟨hs.handler,hs.pointer⟩
    have hbad := fun hno hd => kept_next f c _ (.ok [v,n]) s (makeErrorCode .protocolViolation)
      [] [] h hd hs' (.inr (.hello v n hno))
    split_ifs at hd with hv h0
    · exact hbad (.inl hv) hd
    · exact hbad (.inr h0) hd
    · exact waits_next f c _ _ _ _ _ _ h hd ⟨hs'.handler,hs'.pointer⟩

theorem methods_left (f : Faults) (c : ServerState) (n : UInt8) (res : Result UInt8 ErrorCode)
    (hs : Armed c.obj) (hm : c.obj.readAuthMethods.length = n.toNat)
    (h : At c [.read n.toNat .authReadReqMethodsHandler] [5,n] [] [])
    (ha : Allowed f.may (.read n.toNat Callback.authReadReqMethodsHandler) res) :
    Left f (c.next server [] [] (.read n.toNat .authReadReqMethodsHandler) res) := by
  cases res with
  | error e d => exact failed_left f c _ e d _ _ h hs (by simp [Op.callback]) ha.1
  | ok d =>
    have hd := methods_done c.obj n d ha hm
    have hs' : Armed { c.obj with readAuthMethods := [] } := ⟨hs.handler,hs.pointer⟩
    split_ifs at hd with h0
    · exact waits_next f c _ _ _ _ _ _ h hd ⟨hs.handler,hs.pointer⟩
    · exact kept_next f c _ (.ok d) _ _ _ _ h hd hs' (.inr (.methods n d ha h0))

theorem header_left (f : Faults) (c : ServerState) (g : Bytes) (hg : Offer g)
    (res : Result UInt8 ErrorCode) (hs : Armed c.obj)
    (h : At c [.read 4 .connReadReqHandler] g [5,0] [])
    (ha : Allowed f.may (.read 4 Callback.connReadReqHandler) res) :
    Left f (c.next server [] [] (.read 4 .connReadReqHandler) res) := by
  cases res with
  | error e d => exact failed_left f c _ e d _ _ h hs (by simp [Op.callback]) ha.1
  | ok d =>
    obtain ⟨v,cmd,rsv,atyp,rfl⟩ := List.length_eq_four.mp ha
    have hd := header_done c.obj _ v cmd rsv atyp rfl
    set s : Session := { c.obj with readConnHdr := ⟨[v,cmd,rsv,atyp],rfl⟩ }
    have hs' : Armed s := ⟨hs.handler,hs.pointer⟩
    have hbad := fun err hno hd => kept_next f c _ (.ok [v,cmd,rsv,atyp]) s err g [5,0] h hd hs'
      (.inr (.header g v cmd rsv atyp hg hno))
    split_ifs at hd with hv hc h1 h3 h4
    · exact hbad _ (fun h => hv h.1) hd
    · exact hbad _ (fun h => hc h.2.1) hd
    · exact waits_next f c _ _ _ _ _ _ h hd hs'
    · exact waits_next f c _ _ _ _ _ _ h hd hs'
    · exact waits_next f c _ _ _ _ _ _ h hd hs'
    · exact hbad _ (by simp [h1, h3, h4]) hd

theorem length_left (f : Faults) (c : ServerState) (t : Bytes) (res : Result UInt8 ErrorCode)
    (hs : Armed c.obj) (h : At c [.read 1 .connReadReqAddrDomainnameHandler] t [5,0] [])
    (ha : Allowed f.may (.read 1 Callback.connReadReqAddrDomainnameHandler) res) :
    Left f (c.next server [] [] (.read 1 .connReadReqAddrDomainnameHandler) res) := by
  cases res with
  | error e d => exact failed_left f c _ e d _ _ h hs (by simp [Op.callback]) ha.1
  | ok d =>
    have hd : server.done (.read 1 .connReadReqAddrDomainnameHandler) (.ok d) c.obj =
        connReadReqAddrDomainnameStr (store c.obj d .connReadReqAddrDomainnameHandler) := by
      change connReadReqAddrDomainnameHandler _ .noError = _
      rw [connReadReqAddrDomainnameHandler, if_neg ErrorCode.noError_failed]
      rfl
    exact waits_next f c _ _ _ _ _ _ h hd (store_armed _ _ _ hs)

theorem left_next (f : Faults) (old : Destination) (c : ServerState) (op : Op UInt8 Callback)
    (res : Result UInt8 ErrorCode) (hc : Listens f old c) (hl : Left f c)
    (hp : c.pending = [op]) (ha : Allowed f.may op res) :
    Left f (c.next server [] [] op res) := by
  have hs := hl.armed _ _ _ _ _ _ c op hp
  cases hc with
  | greeting hl' h =>
    obtain rfl := List.singleton_inj.mp (hp.symm.trans h.pending)
    exact greeting_left f c res hs h ha
  | methods n hl' hm h =>
    obtain rfl := List.singleton_inj.mp (hp.symm.trans h.pending)
    exact methods_left f c n res hs hm h ha
  | answer g hg hl' h =>
    obtain rfl := List.singleton_inj.mp (hp.symm.trans h.pending)
    cases res with
    | error e d => exact failed_left f c _ e d _ _ h hs (by simp [Op.callback]) ha.1
    | ok d => exact waits_next f c _ (.read 4 .connReadReqHandler) _ c.obj _ _ h rfl hs
  | header g hg hl' h =>
    obtain rfl := List.singleton_inj.mp (hp.symm.trans h.pending)
    exact header_left f c g hg res hs h ha
  | ipv4 g rsv hg hl' h =>
    obtain rfl := List.singleton_inj.mp (hp.symm.trans h.pending)
    exact address_left f c g rsv 1 [] 6 _ hg (.inl rfl) (fun a h => .ipv4 a h) res hs
      (by simpa using h) ha
  | length g rsv hg hl' h =>
    obtain rfl := List.singleton_inj.mp (hp.symm.trans h.pending)
    exact length_left f c _ res hs h ha
  | domainname g rsv len hg hl' hlen h =>
    obtain rfl := List.singleton_inj.mp (hp.symm.trans h.pending)
    exact address_left f c g rsv 3 [len] _ _ hg (.inr (.inl rfl))
      (fun a h => .domainname len a h) res hs h ha
  | ipv6 g rsv hg hl' h =>
    obtain rfl := List.singleton_inj.mp (hp.symm.trans h.pending)
    exact address_left f c g rsv 4 [] 18 _ hg (.inr (.inr rfl)) (fun a h => .ipv6 a h) res hs
      (by simpa using h) ha
  | answered g rsv atyp field hg hs' h => exact absurd (hp.symm.trans h.pending) (by simp)
  | failed err t u herr ho why h => exact absurd (hp.symm.trans h.pending) (by simp)

/-- What is unwanted behind the first two octets: the methods, or the header. -/
theorem unwanted_hello (n : UInt8) (inp : Bytes) (h : ∃ t, Unwanted t ∧ t <+: inp)
    (ht : [5,n] <+: inp) : n = 0 ∨ ∃ d : Bytes, d.length = n.toNat ∧ [5,n] ++ d <+: inp ∧
      (0 ∈ d → ∃ v cmd rsv atyp, ¬ (v = 5 ∧ cmd = 1 ∧ (atyp = 1 ∨ atyp = 3 ∨ atyp = 4)) ∧
        [5,n] ++ d ++ [v,cmd,rsv,atyp] <+: inp) := by
  obtain ⟨t,hbad,hpre⟩ := h
  cases hbad with
  | hello v n' hno =>
    have heq := prefix_agree [v,n'] [5,n] inp hpre ht rfl
    simp only [List.cons.injEq, and_true] at heq
    obtain ⟨rfl,rfl⟩ := heq
    exact .inl (hno.resolve_left (not_not.mpr rfl))
  | methods n' d hd hno =>
    have heq := prefix_agree [5,n'] [5,n] inp ((List.prefix_append _ _).trans hpre) ht rfl
    simp only [List.cons.injEq, and_true, true_and] at heq
    subst heq
    exact .inr ⟨d,hd,hpre,fun h0 => absurd h0 hno⟩
  | header g v cmd rsv atyp hg hno =>
    cases hg with
    | mk n' ms hn h0 =>
      have heq := prefix_agree [5,n'] [5,n] inp (List.IsPrefix.trans (by simp) hpre) ht rfl
      simp only [List.cons.injEq, and_true, true_and] at heq
      subst heq
      exact .inr ⟨ms,hn,(List.prefix_append _ _).trans hpre,fun _ => ⟨v,cmd,rsv,atyp,hno,hpre⟩⟩

/-- Behind an offer, only the header of the request can be what is unwanted. -/
theorem unwanted_offer (g inp : Bytes) (hg : Offer g) (hpre : g <+: inp)
    (h : ∃ t, Unwanted t ∧ t <+: inp) : ∃ v cmd rsv atyp,
      ¬ (v = 5 ∧ cmd = 1 ∧ (atyp = 1 ∨ atyp = 3 ∨ atyp = 4)) ∧
      g ++ [v,cmd,rsv,atyp] <+: inp := by
  cases hg with
  | mk n ms hn h0 =>
    rcases unwanted_hello n inp h ((List.prefix_append _ _).trans hpre) with rfl | ⟨d,hd,ht,hno⟩
    · rw [List.length_eq_zero_iff.mp hn] at h0
      exact absurd h0 (by simp)
    · have hsame := prefix_agree _ _ inp ht hpre (by simp [hd, hn])
      obtain rfl := List.append_cancel_left hsame
      exact hno h0

theorem header_wanted (g inp : Bytes) (rsv atyp : UInt8) (hg : Offer g)
    (hatyp : atyp = 1 ∨ atyp = 3 ∨ atyp = 4) (hpre : g ++ [5,1,rsv,atyp] <+: inp) :
    ¬ ∃ t, Unwanted t ∧ t <+: inp := by
  intro h
  obtain ⟨v,cmd,rsv',atyp',hno,ht⟩ :=
    unwanted_offer g inp hg ((List.prefix_append _ _).trans hpre) h
  have heq := List.append_cancel_left (prefix_agree _ _ inp ht hpre (by simp))
  simp only [List.cons.injEq, and_true] at heq
  obtain ⟨rfl,rfl,rfl,rfl⟩ := heq
  exact hno ⟨rfl,rfl,hatyp⟩

abbrev Stands (f : Faults) (old : Destination) (c : ServerState) : Prop :=
  Listens f old c ∧ Left f c

theorem stands_begun (f : Faults) (s : Session) (hs : Idle s) :
    Stands f s.userDst (Conf.begun (readConnectRequest s)) := by
  refine ⟨listens_begun f s hs,?_⟩
  simp only [readConnectRequest, assertThat, hs.handler, hs.pointer]
  exact .waits ⟨rfl,rfl⟩ (by simp [Called, Conf.begun, authReadReq])

theorem stands_next (f : Faults) (old : Destination) (c : ServerState) (op : Op UInt8 Callback)
    (res : Result UInt8 ErrorCode) (h : Stands f old c) (hp : c.pending = [op])
    (ha : Allowed f.may op res) : Stands f old (c.next server [] [] op res) :=
  ⟨listens_next f old c op res h.1 hp ha,left_next f old c op res h.1 h.2 hp ha⟩

theorem unwanted_needs (f : Faults) (old : Destination) (inp : Bytes)
    (h : ∃ t, Unwanted t ∧ t <+: inp) (c : ServerState) (n : ℕ) (k : Callback)
    (hc : Stands f old c) (hp : c.pending = [.read n k]) (ht : taken c <+: inp) :
    (taken c).length+n ≤ inp.length := by
  have hwanted : ∀ g rsv atyp x, Offer g → (atyp = 1 ∨ atyp = 3 ∨ atyp = 4) →
      taken c = g ++ [5,1,rsv,atyp] ++ x → False := by
    intro g rsv atyp x hg hatyp htk
    exact header_wanted g inp rsv atyp hg hatyp
      ((List.prefix_append _ x).trans (htk ▸ ht)) h
  cases hc.1 with
  | greeting hl hat =>
    obtain ⟨rfl,-⟩ : 2 = n ∧ _ := by simpa using hat.pending.symm.trans hp
    obtain ⟨t,hbad,hpre⟩ := h
    have := hpre.length_le
    rw [hat.taken, List.length_nil]
    cases hbad <;> simp only [List.length_append, List.length_cons, List.length_nil] at this <;>
      omega
  | methods n' hl hm hat =>
    obtain ⟨rfl,-⟩ : n'.toNat = n ∧ _ := by simpa using hat.pending.symm.trans hp
    rw [hat.taken] at ht ⊢
    rcases unwanted_hello n' inp h ht with rfl | ⟨d,hd,hpre,-⟩
    · exact ht.length_le
    · rw [← hd, ← List.length_append]
      exact hpre.length_le
  | answer g hg hl hat => exact absurd (hat.pending.symm.trans hp) (by simp)
  | header g hg hl hat =>
    obtain ⟨rfl,-⟩ : 4 = n ∧ _ := by simpa using hat.pending.symm.trans hp
    rw [hat.taken] at ht ⊢
    obtain ⟨v,cmd,rsv,atyp,-,hpre⟩ := unwanted_offer g inp hg ht h
    simpa using hpre.length_le
  | ipv4 g rsv hg hl hat =>
    exact (hwanted g rsv 1 [] hg (by simp) (by simpa using hat.taken)).elim
  | length g rsv hg hl hat =>
    exact (hwanted g rsv 3 [] hg (by simp) (by simpa using hat.taken)).elim
  | domainname g rsv len hg hl hlen hat =>
    exact (hwanted g rsv 3 [len] hg (by simp) hat.taken).elim
  | ipv6 g rsv hg hl hat =>
    exact (hwanted g rsv 4 [] hg (by simp) (by simpa using hat.taken)).elim
  | answered g rsv atyp field hg hs hat => exact absurd (hat.pending.symm.trans hp) (by simp)
  | failed err t u herr ho why hat => exact absurd (hat.pending.symm.trans hp) (by simp)

theorem unwanted_called (f : Faults) (s : Session) (hs : Idle s) (inp t : Bytes)
    (ht : Unwanted t) (hpre : t <+: inp) :
    ∃ w, Run (Flow server f.may inp) (start s) w ∧ Called w.events := by
  obtain ⟨w,hr,hact,-,c,hc,hI⟩ := (ended_inevitable server f.may inp serverRank
    (server_ranked _) (Stands f s.userDst) (stands_next f s.userDst)
    (unwanted_needs f s.userDst inp ⟨t,ht,hpre⟩) _ _ (tracks_begun _ (readConnectRequest_single s))
    (stands_begun f s hs) List.nil_prefix).reached
  refine ⟨w,hr,?_⟩
  cases hI.1 with
  | answered g rsv atyp field hg hs hat => exact ⟨.noError,by simp [hc.events, hat.events, report]⟩
  | failed err t u herr ho why hat => exact ⟨err,by simp [hc.events, hat.events]⟩
  | greeting _ hat | methods _ _ _ hat | answer _ _ _ hat | header _ _ _ hat
  | ipv4 _ _ _ _ hat | length _ _ _ _ hat | domainname _ _ _ _ _ _ hat
  | ipv6 _ _ _ _ hat =>
    exact absurd hat (not_at_op w c _ _ _ _ hc hact)

/-- The call leaves the object idle exactly if nothing fails and the client sends
nothing that is not part of a request. -/
theorem server_idle (f : Faults) (s : Session) (hs : Idle s) (inp : Bytes) :
    (∀ w, Run (Flow server f.may inp) (start s) w → Called w.events → Idle w.obj) ↔
      (∀ e, ¬ f.may e) ∧ ¬ ∃ t, Unwanted t ∧ t <+: inp := by
  have hbegun : readConnectRequest s = ({ s with puserDst := true, userReadReqHandler := true },
      [.start (.read 2 .authReadReqHandler)]) := by
    simp [readConnectRequest, assertThat, hs.handler, hs.pointer, authReadReq]
  refine rests_iff server f.may inp Unwanted Complete Armed Idle Called
    (Stands f s.userDst) (stands_next f s.userDst) (fun c hc => hc.2) (readConnectRequest s)
    (.read 2 .authReadReqHandler) (by rw [hbegun]; rfl) (stands_begun f s hs) ?_
    (fun t m ht hm htpre hmpre => unwanted_unwelcome t ht m inp hm hmpre htpre)
    (fun _ t ht hpre => unwanted_called f s hs inp t ht hpre)
  intro e he
  have hd : server.done (.read 2 .authReadReqHandler) (.error e []) (readConnectRequest s).1 =
      callAndClearHandler (store (readConnectRequest s).1 [] .authReadReqHandler) .readReq e :=
    if_pos (f.failed e he)
  rw [call_readReq _ _ (by rw [hbegun]; rfl)] at hd
  rw [hd, hbegun]
  exact ⟨⟨e,by simp⟩,fun h => absurd h.pointer (by simp [store])⟩

end Server

end ProxySwiss.Socks5Idle
