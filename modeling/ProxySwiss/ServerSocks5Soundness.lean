import ProxySwiss.Socks5Progress
import ProxySwiss.Output

/-!
# What a SOCKS5 client can make the server report

The client may send any bytes. A reported request was a complete one behind
an answered greeting, and the destination is the host that it names, unless it
names a host by no octets at all.
-/

set_option autoImplicit false

namespace ProxySwiss.ServerSocks5Soundness
open Memory TransitionSystem CallbackObject StreamObject Socks5 ServerSessionSocks5
open ServerSocks5Run Socks5Progress

/-- What an output without proxies starts for a destination. -/
def directConnect (dst : Destination) : List Output.Op :=
  started ((Output.create .direct).connectThroughChain dst).2

/-- The host that an address field names. -/
inductive Host : UInt8 → Bytes → Destination → Prop
  | ipv4 (a b c d p q : UInt8) (dst : Destination) (hu : dst.usingHostname = false)
      (ha : dst.ipAddress = .v4 (ofLe32 d c b a)) : Host 1 [a,b,c,d,p,q] dst
  | domainname (len : UInt8) (name : Bytes) (p q : UInt8) (dst : Destination)
      (hlen : name.length = len.toNat) (hu : dst.usingHostname = true)
      (hn : dst.hostname = name) : Host 3 (len::(name ++ [p,q])) dst
  | ipv6 (a : Buffer 16) (p q : UInt8) (dst : Destination) (hu : dst.usingHostname = false)
      (ha : dst.ipAddress = .v6 a) : Host 4 (a.bytes ++ [p,q]) dst

structure Sound (w : ServerWire) : Prop where
  replied : ∀ g, Offer g → g <+: w.taken → g ≠ w.taken → [5,0] <+: w.sent
  asserts : .assertFailed ∉ w.events
  host : ∀ err, .call .readReq err ∈ w.events → ¬ err.failed →
    ∃ nmethods methods rsv atyp field,
      w.taken = [5,nmethods] ++ methods ++ [5,1,rsv,atyp] ++ field ∧
      methods.length = nmethods.toNat ∧ nmethods ≠ 0 ∧ 0 ∈ methods ∧ [5,0] <+: w.sent ∧
      Host atyp field w.obj.userDst ∧
      (atyp = 3 → ∃ hostname port index, hostname ≠ [] ∧
        directConnect w.obj.userDst = [.asyncResolve hostname port index])

/-- The port is the number that the last two octets stand for. -/
def PortSent (w : ServerWire) : Prop :=
  ∀ err, .call .readReq err ∈ w.events → ¬ err.failed →
    ∃ front p q, w.taken = front ++ [p,q] ∧ w.obj.userDst.port = ofLe16 q p

/-- A request for a domain name of no octets. -/
def Nameless (inp : Bytes) : Prop :=
  ∃ g rsv p q, Offer g ∧ g ++ [5,1,rsv,3,0,p,q] <+: inp

/-- A request for sixteen octets and a port whose octets differ. -/
def Lopsided (inp : Bytes) : Prop :=
  ∃ (g : Bytes) (rsv : UInt8) (a : Buffer 16) (p q : UInt8), Offer g ∧ p ≠ q ∧
    g ++ [5,1,rsv,4] ++ (a.bytes ++ [p,q]) <+: inp

theorem offer_length (g : Bytes) (hg : Offer g) : 2 < g.length := by
  cases hg with
  | mk n ms hn h0 =>
    have := List.length_pos_of_mem h0
    simp only [List.length_append, List.length_cons, List.length_nil]
    omega

theorem ordered_replied (t u g : Bytes) (h : Ordered t u) (hg : Offer g) (hpre : g <+: t)
    (hne : g ≠ t) : [5,0] <+: u := by
  cases h with
  | greeting _ ht =>
    rcases ht with hlen | ⟨v,n,ms,rfl,hms⟩
    · have := offer_length g hg
      exact absurd hpre.length_le (by omega)
    · -- a whole greeting is all that can have been read
      exfalso
      cases hg with
      | mk n' ms' hn' h0 =>
        have heq := prefix_agree [5,n'] [v,n] _ ((List.prefix_append _ _).trans hpre)
          (List.prefix_append _ _) rfl
        simp only [List.cons.injEq, and_true] at heq
        obtain ⟨rfl,rfl⟩ := heq
        have hle := hpre.length_le
        simp only [List.length_append, List.length_cons, List.length_nil] at hle
        exact hne (hpre.eq_of_length (by simp; omega))
  | reply _ _ hg' hu => exact absurd (offer_unique g t t hg hg' hpre (List.prefix_refl _)) hne
  | request g' rest u hg' => exact List.prefix_append _ _

theorem listens_ordered (f : Faults) (old : Destination) (w : ServerWire) (c : ServerState)
    (h : Tracks w c) (hph : Listens f old c) : Ordered w.taken w.sent := by
  -- behind the answer to the greeting every state is of one form
  have hread : ∀ n k g x es, Offer g → At c [.read n k] (g ++ x) [5,0] es →
      Ordered w.taken w.sent := by
    intro n k g x es hg hat
    obtain ⟨moved,-,-,ht,hu,-⟩ := tracks_at_op w c _ _ _ _ h hat
    rw [ht, hu, List.append_assoc]
    exact .request g _ _ hg
  cases hph with
  | greeting hl hat =>
    obtain ⟨moved,-,hpart,ht,hu,-⟩ := tracks_at_op w c _ _ _ _ h hat
    rw [ht, hu]
    exact .greeting _ (.inl hpart)
  | methods n hl hm hat =>
    obtain ⟨moved,-,hpart,ht,hu,-⟩ := tracks_at_op w c _ _ _ _ h hat
    rw [ht, hu]
    exact .greeting _ (.inr ⟨5,n,moved,rfl,hpart⟩)
  | answer g hg hl hat =>
    obtain ⟨moved,-,hpart,ht,hu,-⟩ := tracks_at_op w c _ _ _ _ h hat
    rw [ht, hu, received_write, List.append_nil]
    exact .reply g moved hg hpart
  | header g hg hl hat => exact hread _ _ g [] _ hg (by simpa using hat)
  | ipv4 g rsv hg hl hat => exact hread _ _ g _ _ hg hat
  | length g rsv hg hl hat => exact hread _ _ g _ _ hg hat
  | domainname g rsv len hg hl hlen hat =>
    rw [List.append_assoc] at hat
    exact hread _ _ g _ _ hg hat
  | ipv6 g rsv hg hl hat => exact hread _ _ g _ _ hg hat
  | answered g rsv atyp field hg hs hat =>
    obtain ⟨-,ht,hu,-⟩ := tracks_at_idle w c _ _ _ h hat
    rw [ht, hu, List.append_assoc]
    exact .request g _ [] hg
  | failed err t u herr ho why hat =>
    obtain ⟨-,ht,hu,-⟩ := tracks_at_idle w c _ _ _ h hat
    rw [ht, hu]
    exact ho

theorem phase_ordered (f : Faults) (old : Destination) (resp : ConnectResponse) (w : ServerWire)
    (c : ServerState) (h : Tracks w c) (hph : Phase f old resp c) : Ordered w.taken w.sent := by
  cases hph with
  | listens hl => exact listens_ordered f old w c h hl
  | responding g rsv atyp field hg hs hw hat =>
    obtain ⟨moved,-,-,ht,hu,-⟩ := tracks_at_op w c _ _ _ _ h hat
    rw [ht, hu, List.append_assoc, List.append_assoc]
    exact .request g _ _ hg
  | responded g rsv atyp field err u hg hs hu' hok hat =>
    obtain ⟨-,ht,hu,-⟩ := tracks_at_idle w c _ _ _ h hat
    rw [ht, hu, List.append_assoc]
    exact .request g _ _ hg

/-- A request that was reported, and what was stored for it. -/
structure Taken (old : Destination) (w : ServerWire) (g : Bytes) (rsv atyp : UInt8)
    (field : Bytes) : Prop where
  offer : Offer g
  stored : Stored old atyp field w.obj.userDst
  taken : w.taken = g ++ [5,1,rsv,atyp] ++ field
  sent : [5,0] <+: w.sent
  events : ∀ e, e ∈ report atyp w.obj.userDst → e ∈ w.events
  asserts : .assertFailed ∈ w.events → .assertFailed ∈ report atyp w.obj.userDst

theorem listens_taken (f : Faults) (old : Destination) (w : ServerWire) (c : ServerState)
    (h : Tracks w c) (hph : Listens f old c) :
    (∃ g rsv atyp field, Taken old w g rsv atyp field) ∨
      .assertFailed ∉ w.events ∧ ∀ err, .call .readReq err ∈ w.events → err.failed := by
  have hopen : ∀ op t u, At c [op] t u [] →
      .assertFailed ∉ w.events ∧ ∀ err, .call .readReq err ∈ w.events → err.failed := by
    intro op t u hat
    obtain ⟨moved,-,-,-,-,hev⟩ := tracks_at_op w c _ _ _ _ h hat
    simp [hev]
  cases hph with
  | greeting hl hat => exact .inr (hopen _ _ _ hat)
  | methods n hl hm hat => exact .inr (hopen _ _ _ hat)
  | answer g hg hl hat => exact .inr (hopen _ _ _ hat)
  | header g hg hl hat => exact .inr (hopen _ _ _ hat)
  | ipv4 g rsv hg hl hat => exact .inr (hopen _ _ _ hat)
  | length g rsv hg hl hat => exact .inr (hopen _ _ _ hat)
  | domainname g rsv len hg hl hlen hat => exact .inr (hopen _ _ _ hat)
  | ipv6 g rsv hg hl hat => exact .inr (hopen _ _ _ hat)
  | answered g rsv atyp field hg hs hat =>
    obtain ⟨-,ht,hu,hev⟩ := tracks_at_idle w c _ _ _ h hat
    rw [← h.obj] at hs hev
    exact .inl ⟨g,rsv,atyp,field,hg,hs,ht,by rw [hu],by simp [hev],by simp [hev]⟩
  | failed err t u herr ho why hat =>
    obtain ⟨-,-,-,hev⟩ := tracks_at_idle w c _ _ _ h hat
    exact .inr (by simp [hev, herr])

theorem phase_taken (f : Faults) (old : Destination) (resp : ConnectResponse) (w : ServerWire)
    (c : ServerState) (h : Tracks w c) (hph : Phase f old resp c) :
    (∃ g rsv atyp field, Taken old w g rsv atyp field) ∨
      .assertFailed ∉ w.events ∧ ∀ err, .call .readReq err ∈ w.events → err.failed := by
  cases hph with
  | listens hl => exact listens_taken f old w c h hl
  | responding g rsv atyp field hg hs hw hat =>
    obtain ⟨moved,-,-,ht,hu,hev⟩ := tracks_at_op w c _ _ _ _ h hat
    rw [← h.obj] at hs hev
    exact .inl ⟨g,rsv,atyp,field,hg,hs,by simpa using ht,by rw [hu]; exact List.prefix_append _ _,
      by simp [hev],by simp [hev]⟩
  | responded g rsv atyp field err u hg hs hu' hok hat =>
    obtain ⟨-,ht,hu,hev⟩ := tracks_at_idle w c _ _ _ h hat
    rw [← h.obj] at hs hev
    exact .inl ⟨g,rsv,atyp,field,hg,hs,ht,by rw [hu]; exact List.prefix_append _ _,
      fun e he => by simp [hev, he],by simp [hev]⟩

/-- A response that was reported as written has left in full. -/
theorem responded_sent (f : Faults) (old : Destination) (resp : ConnectResponse)
    (w : ServerWire) (c : ServerState) (h : Tracks w c) (hph : Phase f old resp c)
    (hin : .call .writeResp .noError ∈ w.events) : w.sent = [5,0] ++ response resp := by
  have hquiet : ∀ atyp dst err, .call .writeResp err ∉ report atyp dst := by
    intro atyp dst err
    unfold report
    split <;> simp
  have hopen : ∀ op t u, At c [op] t u [] → False := by
    intro op t u hat
    obtain ⟨moved,-,-,-,-,hev⟩ := tracks_at_op w c _ _ _ _ h hat
    simp [hev] at hin
  cases hph with
  | listens hl =>
    exfalso
    cases hl with
    | greeting hl hat => exact hopen _ _ _ hat
    | methods n hl hm hat => exact hopen _ _ _ hat
    | answer g hg hl hat => exact hopen _ _ _ hat
    | header g hg hl hat => exact hopen _ _ _ hat
    | ipv4 g rsv hg hl hat => exact hopen _ _ _ hat
    | length g rsv hg hl hat => exact hopen _ _ _ hat
    | domainname g rsv len hg hl hlen hat => exact hopen _ _ _ hat
    | ipv6 g rsv hg hl hat => exact hopen _ _ _ hat
    | answered g rsv atyp field hg hs hat =>
      obtain ⟨-,-,-,hev⟩ := tracks_at_idle w c _ _ _ h hat
      exact hquiet _ _ _ (hev ▸ hin)
    | failed err t u herr ho why hat =>
      obtain ⟨-,-,-,hev⟩ := tracks_at_idle w c _ _ _ h hat
      simp [hev] at hin
  | responding g rsv atyp field hg hs hw hat =>
    obtain ⟨moved,-,-,-,-,hev⟩ := tracks_at_op w c _ _ _ _ h hat
    exact absurd (hev ▸ hin) (hquiet _ _ _)
  | responded g rsv atyp field err u hg hs hu' hok hat =>
    obtain ⟨-,-,hu,hev⟩ := tracks_at_idle w c _ _ _ h hat
    rw [hev, List.mem_append, or_iff_right (hquiet _ _ _)] at hin
    obtain rfl : ErrorCode.noError = err := by simpa using hin
    rw [hu, hok ErrorCode.noError_failed]

theorem stored_field (old : Destination) (atyp : UInt8) (field : Bytes) (dst : Destination)
    (h : Stored old atyp field dst) : AddressField atyp field := by
  cases h with
  | ipv4 a b c d p q => exact .ipv4 _ rfl
  | domainname len name p q h => exact .domainname len _ (by simp [h])
  | ipv6 a p q => exact .ipv6 _ (by simp [a.size])

/-- What is stored is the host that is named, except for a name of no octets. -/
theorem stored_host (old : Destination) (atyp : UInt8) (field : Bytes) (dst : Destination)
    (h : Stored old atyp field dst) :
    Host atyp field dst ∧ dst.usingHostname = (atyp == 3) ∨
      ∃ p q, atyp = 3 ∧ field = [0,p,q] ∧ dst.usingHostname = false := by
  cases h with
  | ipv4 a b c d p q => exact .inl ⟨.ipv4 a b c d p q _ rfl rfl,rfl⟩
  | ipv6 a p q => exact .inl ⟨.ipv6 a p q _ rfl rfl,rfl⟩
  | domainname len name p q h =>
    cases name with
    | nil =>
      obtain rfl : len = 0 := UInt8.toNat_inj.mp h.symm
      exact .inr ⟨p,q,rfl,rfl,rfl⟩
    | cons x xs => exact .inl ⟨.domainname len _ p q _ h rfl rfl,rfl⟩

theorem stored_nameless (old : Destination) (p q : UInt8) (dst : Destination)
    (h : Stored old 3 [0,p,q] dst) : dst.usingHostname = false := by
  generalize hf : [0,p,q] = field at h
  cases h with
  | domainname len name p' q' hlen =>
    obtain ⟨rfl,-⟩ := List.cons.inj hf
    rw [List.length_eq_zero_iff.mp hlen]
    rfl

theorem stored_ipv6 (old : Destination) (a : Buffer 16) (p q : UInt8) (dst : Destination)
    (h : Stored old 4 (a.bytes ++ [p,q]) dst) : dst = ⟨[],.v6 a,ofLe16 p q⟩ := by
  generalize hf : a.bytes ++ [p,q] = field at h
  cases h with
  | ipv6 b x y =>
    obtain ⟨hb,hxy⟩ := List.append_inj' hf rfl
    simp only [List.cons.injEq, and_true] at hxy
    obtain ⟨rfl,rfl⟩ := hxy
    obtain rfl : a = b := by
      cases a
      cases b
      simpa using hb
    rfl

/-- Only the port behind sixteen octets is not the port that was sent. -/
theorem stored_port (old : Destination) (atyp : UInt8) (field : Bytes) (dst : Destination)
    (h : Stored old atyp field dst) : ∃ front p q, field = front ++ [p,q] ∧
      (dst.port = ofLe16 q p ∨ atyp = 4 ∧ front.length = 16 ∧ dst.port = ofLe16 p q) := by
  cases h with
  | ipv4 a b c d p q => exact ⟨[a,b,c,d],p,q,rfl,.inl rfl⟩
  | domainname len name p q h => exact ⟨len::name,p,q,rfl,.inl rfl⟩
  | ipv6 a p q => exact ⟨a.bytes,p,q,rfl,.inr ⟨rfl,a.size,rfl⟩⟩

theorem directConnect_hostname (dst : Destination) (h : dst.usingHostname = true) :
    directConnect dst = [.asyncResolve dst.hostname dst.port Output.kNoIndex] := by
  simp [directConnect, OutputConfig.direct, Output.connectThroughChain, Output.create,
    Output.createChain, h]

theorem hostname_ne (dst : Destination) (h : dst.usingHostname = true) : dst.hostname ≠ [] := by
  rintro hnil
  simp [Destination.usingHostname, hnil] at h

theorem taken_reported (old : Destination) (w : ServerWire) (g : Bytes) (rsv atyp : UInt8)
    (field : Bytes) (h : Taken old w g rsv atyp field) :
    .call .readReq .noError ∈ w.events := by
  exact h.events _ (by simp [report])

theorem taken_complete (old : Destination) (w : ServerWire) (g : Bytes) (rsv atyp : UInt8)
    (field : Bytes) (h : Taken old w g rsv atyp field) : Complete w.taken :=
  h.taken ▸ .mk g rsv atyp field h.offer (stored_field _ _ _ _ h.stored)

/-- A state is sound unless the request taken in it names a host by no octets. -/
theorem taken_sound (old : Destination) (w : ServerWire) (g : Bytes) (rsv atyp : UInt8)
    (field : Bytes) (h : Taken old w g rsv atyp field) (ho : Ordered w.taken w.sent)
    (hname : ¬ ∃ p q, atyp = 3 ∧ field = [0,p,q]) : Sound w := by
  have hrep : ∀ g, Offer g → g <+: w.taken → g ≠ w.taken → [5,0] <+: w.sent :=
    fun g hg hpre hne => ordered_replied _ _ g ho hg hpre hne
  rcases stored_host _ _ _ _ h.stored with ⟨hhost,hu⟩ | ⟨p,q,h3,hf,-⟩
  · refine ⟨hrep,fun hin => ?_,fun err _ _ => ?_⟩
    · have := h.asserts hin
      simp [report, hu] at this
    · have htk := h.taken
      cases h.offer with
      | mk n ms hn h0 =>
        refine ⟨n,ms,rsv,atyp,field,htk,hn,?_,h0,h.sent,hhost,?_⟩
        · rintro rfl
          rw [List.length_eq_zero_iff.mp hn] at h0
          exact absurd h0 (by simp)
        · rintro rfl
          exact ⟨_,_,_,hostname_ne _ hu,directConnect_hostname _ hu⟩
  · exact absurd ⟨p,q,h3,hf⟩ hname

theorem run_mono (f g : Faults) (inp : Bytes) (resp : ConnectResponse) (w v : ServerWire)
    (hf : ∀ e, f.may e → g.may e) (h : Run (Flow server f.may inp) w v) :
    Run (Dialogue g inp resp) w v :=
  Relation.ReflTransGen.mono (fun s t ht => .io s t (flow_mono server _ _ inp hf s t ht)) w v h

/-- A complete request at the head of the stream can be taken, and reported. -/
theorem request_taken (s : Session) (hs : Idle s) (resp : ConnectResponse) (inp g : Bytes)
    (rsv atyp : UInt8) (field : Bytes) (hg : Offer g) (hf : AddressField atyp field)
    (hpre : g ++ [5,1,rsv,atyp] ++ field <+: inp) :
    ∃ w, Run (Dialogue Faults.any inp resp) (start s) w ∧
      Taken s.userDst w g rsv atyp field := by
  have hm : Complete (g ++ [5,1,rsv,atyp] ++ field) := .mk g rsv atyp field hg hf
  obtain ⟨w,hrun,hidle,ht,c,hc,hph⟩ := (server_inevitable s hs _ inp hm hpre).reached
  refine ⟨w,run_mono Faults.none Faults.any inp resp _ w (fun _ h => h.elim) hrun,?_⟩
  rcases listens_taken Faults.none s.userDst w c hc hph with ⟨g',rsv',atyp',field',h⟩ | hno
  · have heq := complete_unique _ _ inp (taken_complete _ _ _ _ _ _ h) hm ht hpre
    have hgg := offer_unique g g' inp hg h.offer ((List.prefix_append _ _).trans
      (by rw [List.append_assoc] at hpre; exact hpre)) (by
        have := h.taken ▸ ht
        rw [List.append_assoc] at this
        exact (List.prefix_append _ _).trans this)
    subst hgg
    have h' := h.taken.symm.trans heq
    simp only [List.append_assoc, List.append_cancel_left_eq, List.cons_append, List.nil_append,
      List.cons.injEq, true_and] at h'
    obtain ⟨rfl,rfl,rfl⟩ := h'
    exact h
  · -- without faults a call ends in success or in a refusal of the bytes
    exfalso
    cases hph with
    | failed err t u herr ho why hat =>
      obtain ⟨-,htk,-,-⟩ := tracks_at_idle w c _ _ _ hc hat
      rcases why with hx | hbad
      · exact hx
      · exact hbad _ inp hm hpre (htk ▸ ht)
    | answered g rsv atyp field hg hs hat =>
      obtain ⟨-,-,-,hev⟩ := tracks_at_idle w c _ _ _ hc hat
      exact absurd (hno.2 .noError (by simp [hev, report])) ErrorCode.noError_failed
    | greeting _ hat | methods _ _ _ hat | answer _ _ _ hat | header _ _ _ hat
    | ipv4 _ _ _ _ hat | length _ _ _ _ hat | domainname _ _ _ _ _ _ hat
    | ipv6 _ _ _ _ hat =>
      exact absurd hat (not_at_op w c _ _ _ _ hc hidle)

theorem nameless_taken (s : Session) (inp : Bytes) (w : ServerWire) (g : Bytes)
    (rsv atyp : UInt8) (field : Bytes) (h : Taken s.userDst w g rsv atyp field)
    (ht : w.taken <+: inp) (hno : ¬ Nameless inp) : ¬ ∃ p q, atyp = 3 ∧ field = [0,p,q] := by
  rintro ⟨p,q,rfl,rfl⟩
  exact hno ⟨g,rsv,p,q,h.offer,by have := h.taken ▸ ht; simpa using this⟩

theorem dialogue_sound (s : Session) (hs : Idle s) (resp : ConnectResponse) (inp : Bytes)
    (hno : ¬ Nameless inp) (w : ServerWire)
    (hr : Run (Dialogue Faults.any inp resp) (start s) w) : Sound w := by
  obtain ⟨c,hc,hph⟩ := dialogue_phase Faults.any s hs inp resp w hr
  have ho := phase_ordered _ _ _ w c hc hph
  rcases phase_taken _ _ _ w c hc hph with ⟨g,rsv,atyp,field,h⟩ | ⟨hassert,hnone⟩
  · have ht := served_taken _ _ _ _ _ _ w hr List.nil_prefix
    exact taken_sound _ w g rsv atyp field h ho (nameless_taken s inp w g rsv atyp field h ht hno)
  · exact ⟨fun g hg hpre hne => ordered_replied _ _ g ho hg hpre hne,hassert,
      fun err herr hok => absurd (hnone err herr) hok⟩

theorem nameless_unsound (s : Session) (hs : Idle s) (resp : ConnectResponse) (inp : Bytes)
    (hall : ∀ w, Run (Dialogue Faults.any inp resp) (start s) w → Sound w) :
    ¬ Nameless inp := by
  rintro ⟨g,rsv,p,q,hg,hpre⟩
  obtain ⟨w,hr,h⟩ := request_taken s hs resp inp g rsv 3 [0,p,q] hg
    (.domainname 0 [p,q] rfl) (by simpa using hpre)
  apply (hall w hr).asserts
  apply h.events
  simp [report, stored_nameless _ _ _ _ h.stored]

theorem dialogue_port (s : Session) (hs : Idle s) (resp : ConnectResponse) (inp : Bytes)
    (hlop : ¬ Lopsided inp) (w : ServerWire)
    (hr : Run (Dialogue Faults.any inp resp) (start s) w) : PortSent w := by
  intro err herr hok
  obtain ⟨c,hc,hph⟩ := dialogue_phase Faults.any s hs inp resp w hr
  rcases phase_taken _ _ _ w c hc hph with ⟨g,rsv,atyp,field,h⟩ | ⟨-,hnone⟩
  · have ht := served_taken _ _ _ _ _ _ w hr List.nil_prefix
    obtain ⟨front,p,q,rfl,hport | ⟨rfl,hlen,hport⟩⟩ := stored_port _ _ _ _ h.stored
    · exact ⟨_,p,q,by rw [h.taken, ← List.append_assoc],hport⟩
    · have hpq : p = q := by
        by_contra hne
        exact hlop ⟨g,rsv,⟨front,hlen⟩,p,q,h.offer,hne,h.taken ▸ ht⟩
      exact ⟨_,p,q,by rw [h.taken, ← List.append_assoc],by rw [hport, hpq]⟩
  · exact absurd (hnone err herr) hok

theorem lopsided_exchanged (s : Session) (hs : Idle s) (resp : ConnectResponse) (inp : Bytes)
    (hall : ∀ w, Run (Dialogue Faults.any inp resp) (start s) w → PortSent w) :
    ¬ Lopsided inp := by
  rintro ⟨g,rsv,a,p,q,hg,hpq,hpre⟩
  obtain ⟨w,hr,h⟩ := request_taken s hs resp inp g rsv 4 (a.bytes ++ [p,q]) hg
    (.ipv6 _ (by simp [a.size])) hpre
  obtain ⟨front,p',q',htk,hport⟩ := hall w hr .noError
    (taken_reported _ w _ _ _ _ h) ErrorCode.noError_failed
  have hend : front ++ [p',q'] = g ++ [5,1,rsv,4] ++ a.bytes ++ [p,q] := by
    rw [← htk, h.taken, List.append_assoc _ a.bytes]
  obtain ⟨-,hend⟩ := List.append_inj' hend rfl
  simp only [List.cons.injEq, and_true] at hend
  obtain ⟨rfl,rfl⟩ := hend
  rw [stored_ipv6 _ a p' q' _ h.stored] at hport
  exact hpq ((ofLe16_swap p' q').mp hport)

/-- Success is reported soundly on a stream exactly if the stream does not ask
for a name of no octets; the port is that of the request exactly if moreover it
does not ask for sixteen octets and a port with two different octets. -/
theorem server_sound_iff (s : Session) (hs : Idle s) (resp : ConnectResponse) (inp : Bytes) :
    ((∀ w, Run (Dialogue Faults.any inp resp) (start s) w → Sound w) ↔ ¬ Nameless inp) ∧
    ((∀ w, Run (Dialogue Faults.any inp resp) (start s) w → Sound w ∧ PortSent w) ↔
      ¬ Nameless inp ∧ ¬ Lopsided inp) := by
  have hsound := dialogue_sound s hs resp inp
  have hname := nameless_unsound s hs resp inp
  constructor
  · exact ⟨hname,hsound⟩
  · constructor
    · intro hall
      exact ⟨hname fun w hr => (hall w hr).1,
        lopsided_exchanged s hs resp inp fun w hr => (hall w hr).2⟩
    · rintro ⟨hno,hlop⟩ w hr
      exact ⟨hsound hno w hr,dialogue_port s hs resp inp hlop w hr⟩

def namelessStream : Bytes := [5,1,0,5,1,0,3,0,0,80]

theorem namelessStream_nameless : Nameless namelessStream :=
  ⟨[5,1,0],0,0,80,.mk 1 [0] rfl (by simp),List.prefix_refl _⟩

theorem server_sound_nameless :
    ¬ ∀ w, Run (Dialogue Faults.any namelessStream ⟨.succeeded⟩) (start {}) w → Sound w :=
  fun hall => ((server_sound_iff {} ⟨rfl,rfl⟩ ⟨.succeeded⟩ namelessStream).1.mp hall)
    namelessStream_nameless

def namelessResults : List (Result UInt8 ErrorCode) :=
  [.ok [5,1],.ok [0],.ok [5,0],.ok [5,1,0,3],.ok [0],.ok [0,80]]

/-- Success is reported, an assertion has failed, and the output would connect
to the address that was never set. -/
theorem nameless_reported : ∃ w,
    Run (Dialogue Faults.any namelessStream ⟨.succeeded⟩) (start {}) w ∧
    w.events = [.assertFailed,.call .readReq .noError] ∧
    w.obj.userDst.usingHostname = false ∧
    directConnect w.obj.userDst = [.asyncConnect (.v4 0) 80 Output.kNoIndex] := by
  obtain ⟨w,hw,hs⟩ := play_flow server ErrorCode.failed namelessStream namelessResults
    (start {}) (Conf.begun (readConnectRequest {})) (settled_begun _)
    ⟨rfl,rfl,rfl,rfl,rfl,rfl,trivial⟩ (by decide)
  refine ⟨w,flow_served _ _ _ _ _ _ _ hw,hs.events,?_,?_⟩
  · rw [hs.obj]
    rfl
  · rw [hs.obj]
    rfl

end ProxySwiss.ServerSocks5Soundness
