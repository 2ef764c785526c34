import ProxySwiss.StreamDialogue
import ProxySwiss.Socks5Progress
import ProxySwiss.ServerSocks5Soundness

/-!
# The two SOCKS5 sessions against each other

A client without credentials and a server talk over two streams without
faults, delivered in arbitrary chunks. Both calls succeed in every such run,
and the server is handed the destination of the client up to the port behind
an IPv6 address, which arrives with its octets exchanged.
-/

set_option autoImplicit false

namespace ProxySwiss.Socks5Agreement
open Memory TransitionSystem CallbackObject StreamObject StreamDialogue Socks5
open ServerSocks5Run Socks5Progress
open ClientSocks5Run (ClientState ClientWire Asking asking_next asking_begun)
open ClientSessionSocks5 (client writeConnectRequest)
open ServerSessionSocks5 (server readConnectRequest)
open ServerSocks5Soundness (stored_field stored_ipv6)

abbrev Connection := Pair ClientSessionSocks5.Session ClientSessionSocks5.Callback
  ClientSessionSocks5.Event ServerSessionSocks5.Session ServerSessionSocks5.Callback
  ServerSessionSocks5.Event UInt8

abbrev Exchange : Connection → Connection → Prop := Talk client server Faults.none.may

def connect (c : ClientSessionSocks5.Session) (s : ServerSessionSocks5.Session)
    (dst : Destination) : Connection :=
  ⟨ClientSocks5Run.start c dst,ServerSocks5Run.start s⟩

/-- The same hostname or, when there is none, the same address; the same port. -/
structure Same (dst got : Destination) : Prop where
  hostname : got.hostname = dst.hostname
  address : dst.hostname = [] → got.ipAddress = dst.ipAddress
  port : got.port = dst.port

/-- Both handlers were called without an error, and nothing else was. -/
structure Agreed (dst : Destination) (p : Connection) : Prop where
  client : p.left.events = [.call .writeReq .noError]
  server : p.right.events = [.call .readReq .noError]
  same : Same dst p.right.obj.userDst

def atypOf (dst : Destination) : UInt8 :=
  if dst.usingHostname then 3 else match dst.ipAddress with
    | .v4 _ => 1
    | .v6 _ => 4

def fieldOf (dst : Destination) : Bytes :=
  if dst.usingHostname then
    UInt8.ofNat dst.hostname.length::(dst.hostname ++ [hi16 dst.port,lo16 dst.port])
  else match dst.ipAddress with
    | .v4 ulong => [byte32 ulong 3,byte32 ulong 2,byte32 ulong 1,byte32 ulong 0,hi16 dst.port,
        lo16 dst.port]
    | .v6 bytes => bytes.bytes ++ [hi16 dst.port,lo16 dst.port]

theorem connectRequest_field (dst : Destination) :
    connectRequest dst = [5,1,0,atypOf dst] ++ fieldOf dst := by
  by_cases h : dst.usingHostname
  · simp [connectRequest, address, atypOf, fieldOf, h]
  · cases ha : dst.ipAddress <;> simp [connectRequest, address, atypOf, fieldOf, h, ha]

theorem request_complete (creds : Credentials) (dst : Destination) (hc : creds.empty = true)
    (hacc : Accepted creds dst) : Complete (preamble creds ++ connectRequest dst) := by
  have hfield : AddressField (atypOf dst) (fieldOf dst) := by
    unfold atypOf fieldOf
    split
    · have := hacc.hostname ‹_›
      exact .domainname _ _ (by simp; omega)
    · cases dst.ipAddress with
      | v4 ulong => exact .ipv4 _ rfl
      | v6 bytes => exact .ipv6 _ (by simp [bytes.size])
  have hg : Offer (preamble creds) := by
    rw [preamble, if_pos hc, greeting, if_pos hc]
    exact .mk 1 [0] rfl (by simp)
  rw [connectRequest_field, ← List.append_assoc]
  exact .mk _ 0 _ _ hg hfield

/-- The port survives unless it travels behind an IPv6 address. -/
def Portable (dst : Destination) : Prop :=
  dst.usingHostname = true ∨ (∃ ulong, dst.ipAddress = .v4 ulong) ∨ hi16 dst.port = lo16 dst.port

/-- The decoder undoes the encoder, the port of an IPv6 address apart. -/
theorem stored_request (old dst got : Destination)
    (h : Stored old (atypOf dst) (fieldOf dst) got) :
    got.hostname = dst.hostname ∧ (dst.hostname = [] → got.ipAddress = dst.ipAddress) ∧
      (got.port = dst.port ↔ Portable dst) := by
  generalize hatyp : atypOf dst = atyp at h
  generalize hfield : fieldOf dst = field at h
  by_cases hu : dst.usingHostname
  · have hne : dst.hostname ≠ [] := by
      intro hnil
      simp [Destination.usingHostname, hnil] at hu
    obtain rfl : 3 = atyp := by simpa [atypOf, hu] using hatyp
    cases h with
    | domainname len name p q hlen =>
      simp only [fieldOf, hu, if_true, List.cons.injEq] at hfield
      obtain ⟨rfl,hfield⟩ := hfield
      obtain ⟨rfl,hpq⟩ := List.append_inj' hfield rfl
      simp only [List.cons.injEq, and_true] at hpq
      obtain ⟨rfl,rfl⟩ := hpq
      exact ⟨rfl,fun hx => absurd hx hne,by simp [Portable, hu]⟩
  · have hnil : dst.hostname = [] := by simpa [Destination.usingHostname] using hu
    cases ha : dst.ipAddress with
    | v4 ulong =>
      obtain rfl : 1 = atyp := by simpa [atypOf, hu, ha] using hatyp
      cases h with
      | ipv4 a b c d p q =>
        simp only [fieldOf, hu, ha, Bool.false_eq_true, if_false, List.cons.injEq,
          and_true] at hfield
        obtain ⟨rfl,rfl,rfl,rfl,rfl,rfl⟩ := hfield
        refine ⟨hnil.symm,fun _ => ?_,?_⟩
        · rw [ofLe32_byte32]
        · simp [Portable, ha]
    | v6 bytes =>
      obtain rfl : 4 = atyp := by simpa [atypOf, hu, ha] using hatyp
      obtain rfl : bytes.bytes ++ [hi16 dst.port,lo16 dst.port] = field := by
        simpa [fieldOf, hu, ha] using hfield
      obtain rfl := stored_ipv6 _ _ _ _ _ h
      exact ⟨hnil.symm,fun _ => rfl,by simp [Portable, hu, ha, swapped_iff]⟩

theorem client_offered (f : Faults) (creds : Credentials) (dst : Destination)
    (old : ConnectResponse) (c : ClientState) (h : Asking f creds dst old c) :
    offered c <+: preamble creds ++ connectRequest dst := by
  cases h with
  | greet hw hat => simpa [offered_at c _ _ _ _ hat] using greeting_preamble creds dst
  | method hw hat => simpa [offered_at c _ _ _ _ hat] using greeting_preamble creds dst
  | credentials hc hw hat =>
    rw [offered_at c _ _ _ _ hat, preamble, if_neg (by simp [hc])]
    exact List.prefix_append _ _
  | status hc hw hat => simp [offered_at c _ _ _ _ hat]
  | request hw hat => simp [offered_at c _ _ _ _ hat]
  | written hr hresp hat => simp [offered_idle c _ _ _ hat]
  | refused err t u herr ho hresp why hat =>
    rw [offered_idle c _ _ _ hat]
    exact ClientSocks5Run.ordered_script creds dst t u ho

/-- The server offers the two octets that the client waits for, or has not yet. -/
theorem server_offered (f : Faults) (old : Destination) (d : ServerState)
    (h : Listens f old d) : ∃ inp, [5,0] <+: inp ∧ offered d <+: inp := by
  have hnone : ∀ op t, At d [op] t [] [] → (∀ msg k, op ≠ .write msg k) → offered d <+: [5,0] := by
    intro op t hat hop
    rw [offered_at d _ _ _ _ hat]
    cases op with
    | read n k => exact List.nil_prefix
    | write msg k => exact absurd rfl (hop msg k)
  have hread : ∀ n k t, At d [.read n k] t [5,0] [] → offered d <+: [5,0] := by
    intro n k t hat
    rw [offered_at d _ _ _ _ hat]
    exact List.prefix_refl _
  cases h with
  | greeting hl hat => exact ⟨[5,0],List.prefix_refl _,hnone _ _ hat (by simp)⟩
  | methods n hl hm hat => exact ⟨[5,0],List.prefix_refl _,hnone _ _ hat (by simp)⟩
  | answer g hg hl hat =>
    exact ⟨[5,0],List.prefix_refl _,by simp [offered_at d _ _ _ _ hat]⟩
  | header g hg hl hat => exact ⟨[5,0],List.prefix_refl _,hread _ _ _ hat⟩
  | ipv4 g rsv hg hl hat => exact ⟨[5,0],List.prefix_refl _,hread _ _ _ hat⟩
  | length g rsv hg hl hat => exact ⟨[5,0],List.prefix_refl _,hread _ _ _ hat⟩
  | domainname g rsv len hg hl hlen hat => exact ⟨[5,0],List.prefix_refl _,hread _ _ _ hat⟩
  | ipv6 g rsv hg hl hat => exact ⟨[5,0],List.prefix_refl _,hread _ _ _ hat⟩
  | answered g rsv atyp field hg hs hat =>
    exact ⟨[5,0],List.prefix_refl _,by simp [offered_idle d _ _ _ hat]⟩
  | failed err t u herr ho why hat =>
    rw [offered_idle d _ _ _ hat]
    cases ho with
    | greeting _ _ => exact ⟨[5,0],List.prefix_refl _,List.nil_prefix⟩
    | reply g u hg hu => exact ⟨[5,0],List.prefix_refl _,hu⟩
    | request g rest u hg => exact ⟨[5,0] ++ u,List.prefix_append _ _,List.prefix_refl _⟩

/-- Each end is in a phase of its own call, and has taken only what the other
end offered. -/
structure Talking (creds : Credentials) (dst : Destination) (oldc : ConnectResponse)
    (olds : Destination) (c : ClientState) (d : ServerState) : Prop where
  client : Asking Faults.none creds dst oldc c
  server : Listens Faults.none olds d
  toClient : StreamObject.taken c <+: offered d
  toServer : StreamObject.taken d <+: offered c

section Run

variable (creds : Credentials) (dst : Destination) (oldc : ConnectResponse) (olds : Destination)
variable (hempty : creds.empty = true) (hacc : Accepted creds dst)

include hacc in
theorem talking_step (p q : Connection)
    (h : ∃ c d, Joint (Talking creds dst oldc olds) p c d) (ht : Exchange p q) :
    ∃ c d, Joint (Talking creds dst oldc olds) q c d := by
  apply joint_talk client server Faults.none.may (Talking creds dst oldc olds) ?_ ?_ p q h ht
  · intro c d op res hk hp ha hpre
    obtain ⟨x,rfl,hw⟩ := allowed_ok _ (fun _ h => h) op res ha
    constructor
    · exact asking_next _ _ _ _ hacc c op _ hk.client hp ha
    · exact hk.server
    · rw [taken_next]
      exact hpre
    · exact hk.toServer.trans (offered_next client c op x hp hw)
  · intro c d op res hk hp ha hpre
    obtain ⟨x,rfl,hw⟩ := allowed_ok _ (fun _ h => h) op res ha
    constructor
    · exact hk.client
    · exact listens_next _ _ d op _ hk.server hp ha
    · exact hk.toClient.trans (offered_next server d op x hp hw)
    · rw [taken_next]
      exact hpre

include hempty hacc in
theorem never_refused (c : ClientState) (d : ServerState)
    (hk : Talking creds dst oldc olds c d) (err : ErrorCode) (t u : Bytes)
    (why : Faults.none.may err ∨ ¬ Accepted creds dst ∨ Refuses creds t)
    (hat : At c [] t u [.call .writeReq err]) : False := by
  rcases why with hf | hno | href
  · exact hf
  · exact hno hacc
  · obtain ⟨inp,h50,hoff⟩ := server_offered _ _ d hk.server
    apply href inp
    · simpa [authAnswer, hempty] using h50
    · exact hat.taken ▸ hk.toClient.trans hoff

include hempty hacc in
theorem never_failed (c : ClientState) (d : ServerState)
    (hk : Talking creds dst oldc olds c d) (err : ErrorCode) (t u : Bytes)
    (why : Faults.none.may err ∨ Unwelcome t) (hat : At d [] t u [.call .readReq err]) : False := by
  rcases why with hf | hno
  · exact hf
  · exact hno _ _ (request_complete creds dst hempty hacc) (List.prefix_refl _)
      (hat.taken ▸ hk.toServer.trans (client_offered _ _ _ _ c hk.client))

/-- A server that waits for the client has not received all of the request. -/
theorem server_live (p : Connection) (c : ClientState) (d : ServerState)
    (hj : Joint (Talking creds dst oldc olds) p c d) (m : Bytes) (hm : Complete m)
    (hsent : p.left.sent <+: m) (hp : d.pending ≠ [])
    (hmore : ∀ n k moved, p.right.active = [(.read n k,moved)] → moved.length < n →
      p.right.taken.length < p.left.sent.length ∨ p.left.sent = m) :
    ∃ q, Exchange p q := by
  obtain ⟨-,-,⟨hnone,-⟩ | ⟨op,moved,hop,hact,hpart,htk,-⟩⟩ := id hj.right
  · exact absurd hnone hp
  have hlive : ∃ v, Flow server Faults.none.may p.left.sent p.right v := by
    apply flow_live server _ _ p.right op moved hact hpart hj.toRight
    rintro n k rfl hlt
    rcases hmore n k moved hact hlt with hmore | hall
    · exact hmore
    · rw [received_read] at htk
      have htc : StreamObject.taken d <+: p.left.sent :=
        (htk ▸ List.prefix_append _ _).trans hj.toRight
      have hneed := request_needs _ olds d hj.coarse.server n k hop m m hm (List.prefix_refl _)
        (htc.trans hsent)
      rw [htk, List.length_append, hall]
      omega
  obtain ⟨v,hv⟩ := hlive
  exact ⟨_,.right p v hv⟩

theorem client_live (p : Connection) (c : ClientState) (d : ServerState)
    (hj : Joint (Talking creds dst oldc olds) p c d) (hp : c.pending ≠ [])
    (hmore : ∀ n k moved, p.left.active = [(.read n k,moved)] → moved.length < n →
      p.left.taken.length < p.right.sent.length) : ∃ q, Exchange p q := by
  obtain ⟨-,-,⟨hnone,-⟩ | ⟨op,moved,hop,hact,hpart,htk,-⟩⟩ := id hj.left
  · exact absurd hnone hp
  obtain ⟨v,hv⟩ := flow_live client Faults.none.may _ p.left op moved hact hpart hj.toLeft
    (by rintro n k rfl hlt; exact hmore n k moved hact hlt)
  exact ⟨_,.left p v hv⟩

include hempty hacc in
/-- A server that has not sent its two octets is still busy with the greeting. -/
theorem greeting_live (p : Connection) (c : ClientState) (d : ServerState)
    (hj : Joint (Talking creds dst oldc olds) p c d) (hsent : p.left.sent = greeting creds)
    (h2 : p.right.sent.length < 2) : ∃ q, Exchange p q := by
  have hg : p.left.sent = [5,1,0] := by rw [hsent, greeting, if_pos hempty]
  have hpre : p.left.sent <+: preamble creds ++ connectRequest dst :=
    hsent ▸ greeting_preamble creds dst
  have hlive := server_live creds dst oldc olds p c d hj _
    (request_complete creds dst hempty hacc) hpre
  have hshort : ∀ n k t, ¬ At d [.read n k] t [5,0] [] := by
    intro n k t hd
    obtain ⟨_,-,-,-,hu,-⟩ := tracks_at_op p.right d _ _ _ _ hj.right hd
    simp [hu] at h2
  cases hj.coarse.server with
  | greeting hl hd =>
    apply hlive (by simp [hd.pending])
    intro n k x hx hlt
    obtain ⟨y,hy,hpart',ht',-,-⟩ := tracks_at_op p.right d _ _ _ _ hj.right hd
    obtain ⟨⟨rfl,-⟩,rfl⟩ : (2 = n ∧ _) ∧ y = x := by simpa [hy] using hx
    left
    simp only [received_read, List.nil_append] at ht'
    simp only [ht', hg, List.length_cons, List.length_nil]
    omega
  | methods n' hl hm' hd =>
    apply hlive (by simp [hd.pending])
    intro n k x hx hlt
    obtain ⟨y,hy,hpart',ht',-,-⟩ := tracks_at_op p.right d _ _ _ _ hj.right hd
    obtain ⟨⟨rfl,-⟩,rfl⟩ : (n'.toNat = n ∧ _) ∧ y = x := by simpa [hy] using hx
    have hto := hj.toRight
    rw [ht', hg] at hto
    obtain ⟨rfl,-⟩ : n' = 1 ∧ _ := by simpa using hto
    left
    simp only [received_read] at ht'
    have hy0 : y = [] := List.length_eq_zero_iff.mp (by simpa using hlt)
    simp [ht', hg, hy0]
  | answer g hg' hl hd =>
    apply hlive (by simp [hd.pending])
    intro n k x hx hlt
    obtain ⟨y,hy,-⟩ := tracks_at_op p.right d _ _ _ _ hj.right hd
    simp [hx] at hy
  | header g hg' hl hd => exact absurd hd (hshort _ _ _)
  | ipv4 g rsv hg' hl hd => exact absurd hd (hshort _ _ _)
  | length g rsv hg' hl hd => exact absurd hd (hshort _ _ _)
  | domainname g rsv len hg' hl hlen hd => exact absurd hd (hshort _ _ _)
  | ipv6 g rsv hg' hl hd => exact absurd hd (hshort _ _ _)
  | answered g rsv atyp field hg' hs hd =>
    obtain ⟨-,-,hu,-⟩ := tracks_at_idle p.right d _ _ _ hj.right hd
    simp [hu] at h2
  | failed err t u herr ho why hd =>
    exact (never_failed creds dst oldc olds hempty hacc c d hj.coarse err t u why hd).elim

include hempty hacc in
/-- While a call is under way one of the two ends can move. -/
theorem talking_live (p : Connection) (c : ClientState) (d : ServerState)
    (hj : Joint (Talking creds dst oldc olds) p c d) :
    (c.pending = [] ∧ d.pending = []) ∨ ∃ q, Exchange p q := by
  have hm := request_complete creds dst hempty hacc
  have hwrite : ∀ msg k t u, At c [.write msg k] t u [] → ∃ q, Exchange p q := by
    intro msg k t u hat
    apply client_live creds dst oldc olds p c d hj (by simp [hat.pending])
    intro n k' moved hact _
    obtain ⟨moved',hact',-⟩ := tracks_at_op p.left c _ _ _ _ hj.left hat
    simp [hact] at hact'
  cases hj.coarse.client with
  | greet hw hat => exact .inr (hwrite _ _ _ _ hat)
  | request hw hat => exact .inr (hwrite _ _ _ _ hat)
  | credentials hc hw hat => simp [hempty] at hc
  | status hc hw hat => simp [hempty] at hc
  | refused err t u herr ho hresp why hat =>
    exact (never_refused creds dst oldc olds hempty hacc c d hj.coarse err t u why hat).elim
  | written hr hresp hat =>
    by_cases hd : d.pending = []
    · exact .inl ⟨hat.pending,hd⟩
    · obtain ⟨-,-,hsent,-⟩ := tracks_at_idle p.left c _ _ _ hj.left hat
      exact .inr (server_live creds dst oldc olds p c d hj _ hm (by simp [hsent]) hd
        fun _ _ _ _ _ => .inr hsent)
  | method hw hat =>
    right
    obtain ⟨moved,hact,hpart,htk,hsent,-⟩ := tracks_at_op p.left c _ _ _ _ hj.left hat
    simp only [handed_read, List.append_nil, received_read, List.nil_append] at hsent htk
    -- the client waits for two octets: either they are on their way, or the
    -- server is still busy with the greeting
    by_cases h2 : 2 ≤ p.right.sent.length
    · apply client_live creds dst oldc olds p c d hj (by simp [hat.pending])
      intro n k moved' hact' hlt
      obtain ⟨⟨rfl,-⟩,rfl⟩ : (2 = n ∧ _) ∧ moved = moved' := by simpa [hact] using hact'
      rw [htk]
      omega
    · exact greeting_live creds dst oldc olds hempty hacc p c d hj hsent (by omega)

include hempty hacc in
/-- When neither end has anything left to do, the request has been delivered. -/
theorem delivered (p : Connection) (c : ClientState) (d : ServerState)
    (hj : Joint (Talking creds dst oldc olds) p c d) (hc : c.pending = [])
    (hd : d.pending = []) :
    p.left.events = [.call .writeReq .noError] ∧
      Stored olds (atypOf dst) (fieldOf dst) p.right.obj.userDst ∧
      p.right.events = report (atypOf dst) p.right.obj.userDst := by
  have hleft : p.left.events = [.call .writeReq .noError] ∧
      p.left.sent = preamble creds ++ connectRequest dst := by
    cases hj.coarse.client with
    | written hr hresp hat =>
      obtain ⟨-,-,hsent,hev⟩ := tracks_at_idle p.left c _ _ _ hj.left hat
      exact ⟨hev,hsent⟩
    | refused err t u herr ho hresp why hat =>
      exact (never_refused creds dst oldc olds hempty hacc c d hj.coarse err t u why hat).elim
    | greet _ hat | method _ hat | credentials _ _ hat | status _ _ hat | request _ hat =>
      exact absurd (hat.pending.symm.trans hc) (by simp)
  refine ⟨hleft.1,?_⟩
  cases hj.coarse.server with
  | greeting _ hat | methods _ _ _ hat | answer _ _ _ hat | header _ _ _ hat
  | ipv4 _ _ _ _ hat | length _ _ _ _ hat | domainname _ _ _ _ _ _ hat
  | ipv6 _ _ _ _ hat => exact absurd (hat.pending.symm.trans hd) (by simp)
  | failed err t u herr ho why hat =>
    exact (never_failed creds dst oldc olds hempty hacc c d hj.coarse err t u why hat).elim
  | answered g rsv atyp field hg hs hat =>
    obtain ⟨-,htk,-,hev⟩ := tracks_at_idle p.right d _ _ _ hj.right hat
    have hm := request_complete creds dst hempty hacc
    have htaken := hj.toRight
    rw [htk, hleft.2] at htaken
    have heq := complete_unique _ _ _ (.mk g rsv atyp field hg (stored_field _ _ _ _ hs)) hm
      htaken (List.prefix_refl _)
    have hpre : Offer (preamble creds) := by
      rw [preamble, if_pos hempty, greeting, if_pos hempty]
      exact .mk 1 [0] rfl (by simp)
    obtain rfl := offer_unique g (preamble creds) _ hg hpre
      ((List.prefix_append _ _).trans ((List.prefix_append _ _).trans htaken))
      (List.prefix_append _ _)
    simp only [connectRequest_field, List.append_assoc, List.append_cancel_left_eq,
      List.cons_append, List.nil_append, List.cons.injEq, true_and] at heq
    obtain ⟨rfl,rfl,rfl⟩ := heq
    rw [hj.right.obj]
    exact ⟨hs,hev⟩

end Run

theorem talking_begun (c : ClientSessionSocks5.Session) (s : ServerSessionSocks5.Session)
    (dst : Destination) (hc : ClientSocks5Run.Idle c) (hs : Idle s) :
    ∃ x d, Joint (Talking c.creds dst c.connResp s.userDst) (connect c s dst) x d :=
  ⟨_,_,tracks_begun _ (ClientSocks5Run.writeConnectRequest_single c dst),
    tracks_begun _ (readConnectRequest_single s),
    ⟨asking_begun _ c hc dst,listens_begun _ s hs,List.nil_prefix,List.nil_prefix⟩,
    List.nil_prefix,List.nil_prefix⟩

/-- Both calls have reported success only where neither end waits any longer. -/
theorem agreed_idle (creds : Credentials) (dst : Destination) (oldc : ConnectResponse)
    (olds : Destination) (p : Connection) (c : ClientState) (d : ServerState)
    (hj : Joint (Talking creds dst oldc olds) p c d) (h : Agreed dst p) :
    c.pending = [] ∧ d.pending = [] := by
  have hleft : c.events ≠ [] := by simp [← hj.left.events, h.client]
  have hright : d.events ≠ [] := by simp [← hj.right.events, h.server]
  constructor
  · cases hj.coarse.client with
    | written _ _ hat | refused _ _ _ _ _ _ _ hat => exact hat.pending
    | greet _ hat | method _ hat | credentials _ _ hat | status _ _ hat | request _ hat =>
      exact absurd hat.events hleft
  · cases hj.coarse.server with
    | answered _ _ _ _ _ _ hat | failed _ _ _ _ _ _ hat => exact hat.pending
    | greeting _ hat | methods _ _ _ hat | answer _ _ _ hat | header _ _ _ hat
    | ipv4 _ _ _ _ hat | length _ _ _ _ hat | domainname _ _ _ _ _ _ hat
    | ipv6 _ _ _ _ hat => exact absurd hat.events hright

/-- Every path of a connection ends with the request delivered. -/
theorem delivery_inevitable (c : ClientSessionSocks5.Session) (s : ServerSessionSocks5.Session)
    (dst : Destination) (hempty : c.creds.empty = true) (hacc : Accepted c.creds dst)
    (hc : ClientSocks5Run.Idle c) (hs : Idle s) :
    Inevitable Exchange (fun p => p.left.events = [.call .writeReq .noError] ∧
      Stored s.userDst (atypOf dst) (fieldOf dst) p.right.obj.userDst ∧
      p.right.events = report (atypOf dst) p.right.obj.userDst) (connect c s dst) := by
  apply inevitable_of_measure
    (fun p => ∃ x d, Joint (Talking c.creds dst c.connResp s.userDst) p x d)
    (fun p => p.left.rank clientRank + p.right.rank serverRank)
  · exact fun p q h ht => talking_step c.creds dst c.connResp s.userDst hacc p q h ht
  · rintro p ⟨x,d,hj⟩
    rcases talking_live c.creds dst c.connResp s.userDst hempty hacc p x d hj with ⟨hx,hd⟩ | hq
    · exact .inl (delivered c.creds dst c.connResp s.userDst hempty hacc p x d hj hx hd)
    · exact .inr hq
  · rintro p q ⟨x,d,hj⟩ ht
    cases ht with
    | left v hf =>
      exact Nat.add_lt_add_right
        (rank_flow client _ _ clientRank _ v x hj.left (client_ranked _ x) hf) _
    | right v hf =>
      exact Nat.add_lt_add_left
        (rank_flow server _ _ serverRank _ v d hj.right (server_ranked _ d) hf) _
  · exact talking_begun c s dst hc hs

theorem long_hostname (dst : Destination) (hlong : 255 < dst.hostname.length) :
    dst.usingHostname = true := by
  cases hd : dst.hostname with
  | nil => simp [hd] at hlong
  | cons x xs => simp [Destination.usingHostname, hd]

theorem empty_parts (creds : Credentials) (h : creds.empty = true) :
    creds.username = [] ∧ creds.password = [] := by
  simpa [Credentials.empty] using h

/-- A hostname that does not fit is refused on the spot. -/
theorem refused_begun (c : ClientSessionSocks5.Session) (dst : Destination)
    (hempty : c.creds.empty = true) (hlong : 255 < dst.hostname.length) :
    ClientSocks5Run.start c dst =
      ⟨c,[],[],[],[.call .writeReq (makeErrorCode .hostnameTooLong)]⟩ := by
  have hu := long_hostname dst hlong
  obtain ⟨hn,hp⟩ := empty_parts c.creds hempty
  simp [ClientSocks5Run.start, Wire.begun, writeConnectRequest, hn, hp, hu, hlong]

/-- After a refusal the client does nothing more, whatever the server does. -/
theorem refused_run (c : ClientSessionSocks5.Session) (s : ServerSessionSocks5.Session)
    (dst : Destination) (hempty : c.creds.empty = true) (hlong : 255 < dst.hostname.length)
    (p : Connection) (hr : Run Exchange (connect c s dst) p) :
    p.left.events = [.call .writeReq (makeErrorCode .hostnameTooLong)] ∧ p.left.sent = [] := by
  have hleft : p.left = ClientSocks5Run.start c dst := by
    refine run_invariant (fun p => p.left = ClientSocks5Run.start c dst) ?_ hr rfl
    intro p q hp ht
    cases ht with
    | right v hf => exact hp
    | left v hf =>
      have hact : p.left.active = [] := by rw [hp, refused_begun c dst hempty hlong]
      cases hf <;> simp_all
  rw [hleft, refused_begun c dst hempty hlong]
  exact ⟨rfl,rfl⟩

theorem accepted_short (c : ClientSessionSocks5.Session) (dst : Destination)
    (hempty : c.creds.empty = true) (h : dst.hostname.length ≤ 255) : Accepted c.creds dst := by
  obtain ⟨hn,hp⟩ := empty_parts c.creds hempty
  exact ⟨by simp [hn],by simp [hp],fun _ => h⟩

theorem usingHostname_same (dst got : Destination) (h : got.hostname = dst.hostname) :
    got.usingHostname = dst.usingHostname := by
  rw [Destination.usingHostname, Destination.usingHostname, h]

theorem atypOf_hostname (dst : Destination) : (atypOf dst == 3) = dst.usingHostname := by
  unfold atypOf
  cases dst.usingHostname with
  | true => rfl
  | false => cases dst.ipAddress <;> rfl

/-- Where the two sessions agree the port has survived. -/
theorem agreed_portable (c : ClientSessionSocks5.Session) (s : ServerSessionSocks5.Session)
    (dst : Destination) (hempty : c.creds.empty = true) (hacc : Accepted c.creds dst)
    (hc : ClientSocks5Run.Idle c) (hs : Idle s)
    (h : Inevitable Exchange (Agreed dst) (connect c s dst)) : Portable dst := by
  obtain ⟨p,hr,hp⟩ := h.reached
  obtain ⟨x,d,hj⟩ := run_invariant _
    (talking_step c.creds dst c.connResp s.userDst hacc) hr (talking_begun c s dst hc hs)
  obtain ⟨hx,hd⟩ := agreed_idle _ _ _ _ p x d hj hp
  obtain ⟨-,hst,-⟩ := delivered _ _ _ _ hempty hacc p x d hj hx hd
  exact (stored_request _ dst _ hst).2.2.mp hp.same.port

/-- The two sessions agree exactly on the destinations whose port survives. A
hostname that does not fit is reported without a byte being written. -/
theorem agreement_iff (c : ClientSessionSocks5.Session) (s : ServerSessionSocks5.Session)
    (dst : Destination) (hempty : c.creds.empty = true) (hc : ClientSocks5Run.Idle c)
    (hs : Idle s) :
    ((255 < dst.hostname.length → ∀ p, Run Exchange (connect c s dst) p →
        p.left.events = [.call .writeReq (makeErrorCode .hostnameTooLong)] ∧ p.left.sent = []) ∧
      (dst.hostname.length ≤ 255 → Inevitable Exchange (Agreed dst) (connect c s dst))) ↔
    Portable dst := by
  constructor
  · rintro ⟨-,hshort⟩
    by_cases hlen : dst.hostname.length ≤ 255
    · exact agreed_portable c s dst hempty (accepted_short c dst hempty hlen) hc hs (hshort hlen)
    · exact .inl (long_hostname dst (by omega))
  · intro hport
    refine ⟨fun hlong p hr => refused_run c s dst hempty hlong p hr,fun hlen => ?_⟩
    have hacc := accepted_short c dst hempty hlen
    apply (delivery_inevitable c s dst hempty hacc hc hs).strengthen
    rintro p - ⟨hev,hst,hrep⟩
    obtain ⟨hname,haddr,hp⟩ := stored_request _ dst _ hst
    refine ⟨hev,?_,hname,haddr,hp.mpr hport⟩
    rw [hrep, report, if_pos (by rw [atypOf_hostname, usingHostname_same dst _ hname])]
    rfl

theorem agreement_ipv4 :
    Inevitable Exchange (Agreed ⟨[],.v4 2130706433,8080⟩)
      (connect {} {} ⟨[],.v4 2130706433,8080⟩) :=
  ((agreement_iff {} {} ⟨[],.v4 2130706433,8080⟩ rfl ⟨rfl,rfl,rfl⟩ ⟨rfl,rfl⟩).mpr
    (.inr (.inl ⟨_,rfl⟩))).2 (by decide)

def loopback6 : Destination := ⟨[],.v6 ⟨[0,0,0,0,0,0,0,0,0,0,0,0,0,0,0,1],rfl⟩,80⟩

/-- Port 80 behind an IPv6 address is reported, without an error, as port 20480. -/
theorem ipv6_port_swapped :
    ¬ Inevitable Exchange (Agreed loopback6) (connect {} {} loopback6) ∧
    ∃ p, Run Exchange (connect {} {} loopback6) p ∧
      p.left.events = [.call .writeReq .noError] ∧ p.right.events = [.call .readReq .noError] ∧
      p.right.obj.userDst = { loopback6 with port := 20480 } := by
  have hacc : Accepted {} loopback6 := accepted_short {} loopback6 rfl (by decide)
  constructor
  · intro h
    have hport := agreed_portable {} {} loopback6 rfl hacc ⟨rfl,rfl,rfl⟩ ⟨rfl,rfl⟩ h
    rcases hport with hu | ⟨_,hv4⟩ | hswap
    · exact absurd hu (by decide)
    · simp [loopback6] at hv4
    · exact absurd hswap (by decide)
  · obtain ⟨p,hr,hev,hst,hrep⟩ :=
      (delivery_inevitable {} {} loopback6 rfl hacc ⟨rfl,rfl,rfl⟩ ⟨rfl,rfl⟩).reached
    have hgot : p.right.obj.userDst = { loopback6 with port := 20480 } :=
      stored_ipv6 _ ⟨[0,0,0,0,0,0,0,0,0,0,0,0,0,0,0,1],rfl⟩ 0 80 _ hst
    refine ⟨p,hr,hev,?_,hgot⟩
    rw [hrep, hgot]
    rfl

end ProxySwiss.Socks5Agreement
