import ProxySwiss.JointSystem
import ProxySwiss.OutstandingWrites
import ProxySwiss.Socks5Agreement

/-!
# A path of sessions is transparent

A chain may lead through the SOCKS5 servers of other sessions, each of them
reaching the next one directly. Every session of such a path goes on by itself,
and a connection carries nothing but what its other end has sent or is sending:
what was given to a write may be read before the write completes. What the last
server sends to the destination is what the client has sent to the first
session, and the client is told what the destination has sent.
-/

set_option autoImplicit false

namespace ProxySwiss.PathTransparency
open Memory TransitionSystem StreamLedger Socks5 SessionLife SessionTraffic SessionTransparency
  OutstandingWrites
open SessionTunnel (Side)
open ChainWalk (hops target)
open ChainDialogue (Spoken hopCreds)
open ServerSessionSocks5 (majorCodeToRep)
open ServerSocks5Run (Request response)
open ServerSocks5Soundness (offer_length stored_field)

def serverConfig : Config := ⟨.proxyServer .socks5,.direct⟩

def Begun (cfg : Config) (p : Passage) : Prop :=
  ∃ printProxyErrors log history, p = SessionTraffic.begun cfg printProxyErrors log history

/-- What a session has moved, where its outstanding writes count as written. -/
def handed (p : Passage) : Traffic := reach p.life.state p.traffic

/-- A session has connected its output to the input of the next one. -/
structure Linked (p q : Passage) : Prop where
  forth : q.traffic.taken .input <+: (handed p).sent .output
  back : p.traffic.taken .output <+: (handed q).sent .input

/-! The messages of the path. -/

def message (cfg : OutputConfig) (dst : Destination) (i : ℕ) : Bytes :=
  preamble (hopCreds cfg i) ++ connectRequest (target cfg dst i)

def messages (cfg : OutputConfig) (dst : Destination) (i : ℕ) : List Bytes :=
  (List.range i).map (message cfg dst)

theorem messages_length (cfg : OutputConfig) (dst : Destination) (i : ℕ) :
    (messages cfg dst i).length = i := by
  rw [messages, List.length_map, List.length_range]

theorem script_flatten (cfg : OutputConfig) (dst : Destination) (i : ℕ) :
    script cfg dst i = (messages cfg dst i).flatten := by
  induction i with
  | zero => rfl
  | succ i ih =>
    rw [script, ih, messages, messages, List.range_succ, List.map_append, List.flatten_append]
    simp [message]

/-- What a server answers to a greeting and to a request that it grants. -/
inductive Grant : Bytes → Prop
  | mk (m : Bytes) (h : Reply 0 m) : Grant ([5,0] ++ m)

def granted : Bytes := [5,0] ++ response ⟨.succeeded⟩

theorem granted_grant : Grant granted :=
  .mk _ (.mk 0 1 [0,0,0,0,0,0] (by decide) (.ipv4 _ rfl))

theorem complete_free : PrefixFree Complete := complete_unique

theorem grant_free : PrefixFree Grant := by
  rintro _ _ s ⟨m,hm⟩ ⟨m',hm'⟩ h h'
  obtain ⟨rest,rfl⟩ := h
  rw [List.append_assoc, List.prefix_append_right_inj] at h'
  congr 1
  cases hm with
  | mk rsv atyp a hrep ha =>
    cases hm' with
    | mk rsv' atyp' a' hrep' ha' =>
      have heq := prefix_agree [5,0,rsv',atyp'] [5,0,rsv,atyp] _
        ((List.prefix_append _ _).trans h') ⟨a ++ rest,by simp⟩ rfl
      simp only [List.cons.injEq, and_true, true_and] at heq
      obtain ⟨rfl,rfl⟩ := heq
      rw [List.append_assoc, List.prefix_append_right_inj] at h'
      rw [field_unique atyp' a' a _ ha' ha h' (List.prefix_append _ _)]

theorem complete_cons (m : Bytes) (h : Complete m) : m ≠ [] := by
  rintro rfl
  generalize ht : ([] : Bytes) = t at h
  cases h with
  | mk g rsv atyp field hg hf =>
    have hlen := congrArg List.length ht
    have := offer_length g hg
    simp at hlen

theorem grant_header (m rest s : Bytes) (h : Grant m) (hpre : m ++ rest <+: s) :
    [5,0,5,0] <+: s := by
  cases h with
  | mk m h =>
    cases h with
    | mk rsv atyp a hrep ha => exact List.IsPrefix.trans ⟨[rsv,atyp] ++ a ++ rest,by simp⟩ hpre

theorem refused_header (r : ConnectResponse) (hr : r.major ≠ .succeeded) :
    ¬ [5,0,5,0] <+: [5,0] ++ response r := by
  intro h
  have heq := prefix_agree [5,0,5,0] [5,0,5,majorCodeToRep r.major] _ h ⟨[0,1,0,0,0,0,0,0],rfl⟩ rfl
  refine absurd ?_ hr
  revert heq
  cases r.major <;> simp [majorCodeToRep]

/-! One server. -/

/-- What a server of the path has moved, with its outstanding writes. -/
inductive Serves (l : Traffic) : Prop
  | asking (hs : l.sent .input <+: [5,0]) (ho : l.sent .output = [])
  | refusing (r : ConnectResponse) (hr : r.major ≠ .succeeded)
      (hs : l.sent .input <+: [5,0] ++ response r) (ho : l.sent .output = [])
  | granting (asked : Bytes) (h : Complete asked) (hi : l.taken .input = asked)
      (hs : l.sent .input <+: granted) (ho : l.sent .output = [])
  | relaying (asked up down : Bytes) (h : Complete asked) (hi : l.taken .input = asked ++ up)
      (ho : l.sent .output <+: up) (hs : l.sent .input = granted ++ down)
      (ht : down <+: l.taken .output)

theorem request_complete (old dst : Destination) (t : Bytes) (h : Request old dst t) :
    Complete t := by
  cases h with
  | mk g rsv atyp field hg hs => exact .mk g rsv atyp field hg (stored_field old atyp field dst hs)

theorem server_requested (fuel : ℕ) (dst : Destination) (asked answered : Bytes)
    (resp : ConnectResponse → Bytes)
    (h : Requested fuel serverConfig.input dst asked answered resp) :
    Complete asked ∧ answered = [5,0] ∧ resp = response := by
  cases h with
  | tunnel h => exact absurd h (by simp [serverConfig])
  | socks5 t h ht => exact ⟨request_complete _ _ _ ht,rfl,rfl⟩
  | https first last p hs h hp hhs hlast hd => exact absurd h (by simp [serverConfig])

theorem server_serves (fuel : ℕ) (w : World) (l : Traffic) (h : Reached fuel serverConfig w l) :
    Serves (reach w l) := by
  cases h with
  | asking hi ho => exact .asking hi ho
  | connecting dst asked answered told resp r hr hi ht htold ho hs =>
    obtain ⟨hc,rfl,rfl⟩ := server_requested fuel dst asked answered resp hr
    obtain ⟨k,hk,-,hpre⟩ := ho
    obtain rfl : k = 0 := Nat.le_zero.mp hk
    have hnone : (reach w l).sent .output = [] := List.prefix_nil.mp hpre
    have hsent : (reach w l).sent .input <+: [5,0] ++ response r := by
      rw [reach_sent, ht, List.append_assoc]
      exact (List.prefix_append_right_inj _).mpr htold
    by_cases hmajor : r.major = .succeeded
    · obtain ⟨mc⟩ := r
      obtain rfl : mc = .succeeded := hmajor
      exact .granting asked hc hi hsent hnone
    · exact .refusing r hmajor hsent hnone
  | relaying dst asked answered heard told up up' down down' resp hr hc hi ho ht hs hup hdown =>
    obtain ⟨hcomplete,rfl,rfl⟩ := server_requested fuel dst asked answered resp hr
    obtain rfl : told = [] := hc.sent
    obtain rfl : heard = [] := by
      have hsp := hc.spoken
      generalize hn : hops serverConfig.output = n at hsp
      cases hsp with
      | nil => rfl
      | hop i t m h hm => exact absurd hn (by simp [serverConfig, hops, OutputConfig.direct])
    refine .relaying asked up (down' ++ outstanding w .input) hcomplete hi ?_ ?_ ?_
    · rw [reach_sent, ho]
      exact hup
    · rw [reach_sent, hs, List.append_assoc]
      rfl
    · exact ht.symm ▸ hdown

/-- A server hands on what it was sent behind the first of the messages. -/
theorem serves_forth (l : Traffic) (ms : List Bytes) (u : Bytes) (h : Serves l)
    (hms : ∀ m ∈ ms, Complete m) (hu : ms = [] → u = [])
    (hpre : l.taken .input <+: ms.flatten ++ u) : l.sent .output <+: ms.tail.flatten ++ u := by
  cases h with
  | asking hs ho => exact ho ▸ List.nil_prefix
  | refusing r hr hs ho => exact ho ▸ List.nil_prefix
  | granting asked hc hi hs ho => exact ho ▸ List.nil_prefix
  | relaying asked up down hc hi ho hs ht =>
    rw [hi] at hpre
    cases ms with
    | nil =>
      rw [hu rfl] at hpre
      exact absurd (List.append_eq_nil_iff.mp (List.prefix_nil.mp hpre)).1 (complete_cons asked hc)
    | cons m ms =>
      rw [List.flatten_cons, List.append_assoc] at hpre
      exact ho.trans (complete_free.strip asked m up _ hc (hms m List.mem_cons_self) hpre).2

/-- Who reads a grant from a server reads behind it what the server has read. -/
theorem serves_back (l : Traffic) (m rest : Bytes) (h : Serves l) (hm : Grant m)
    (hpre : m ++ rest <+: l.sent .input) :
    granted <+: l.sent .input ∧ rest <+: l.taken .output := by
  have hhead := grant_header m rest _ hm hpre
  cases h with
  | asking hs ho => exact absurd (hhead.trans hs).length_le (by simp)
  | refusing r hr hs ho =>
    exact absurd (hhead.trans hs) (refused_header r hr)
  | granting asked hc hi hs ho =>
    have hall : m ++ rest <+: granted ++ [] := hpre.trans hs
    obtain ⟨rfl,hrest⟩ := grant_free.strip m granted rest [] hm granted_grant hall
    exact ⟨(List.prefix_append _ _).trans hpre,(List.prefix_nil.mp hrest).symm ▸ List.nil_prefix⟩
  | relaying asked up down hc hi ho hs ht =>
    rw [hs] at hpre ⊢
    obtain ⟨-,hrest⟩ := grant_free.strip m granted rest down hm granted_grant hpre
    exact ⟨List.prefix_append _ _,hrest.trans ht⟩

/-- A server that has granted its request was asked for something. -/
theorem serves_asked (l : Traffic) (h : Serves l) (hg : granted <+: l.sent .input) :
    ∃ asked up, Complete asked ∧ l.taken .input = asked ++ up ∧ l.sent .output <+: up := by
  have hhead := (grant_header granted [] granted granted_grant (by simp)).trans hg
  cases h with
  | asking hs ho => exact absurd (hhead.trans hs).length_le (by simp)
  | refusing r hr hs ho =>
    exact absurd (hhead.trans hs) (refused_header r hr)
  | granting asked hc hi hs ho =>
    exact ⟨asked,[],hc,hi.trans (List.append_nil _).symm,ho ▸ List.nil_prefix⟩
  | relaying asked up down hc hi ho hs ht => exact ⟨asked,up,hc,hi,ho⟩

/-! Along the path. -/

def last (q : Passage) (qs : List Passage) : Passage := (q::qs).getLast (List.cons_ne_nil q qs)

theorem last_cons (q x : Passage) (qs : List Passage) : last q (x::qs) = last x qs := rfl

section Path

variable (u : Bytes) (q : Passage) (qs : List Passage)

/-- The messages are taken off one after another, and what is left arrives. -/
theorem path_forth (ms : List Bytes) (hserves : ∀ x ∈ q::qs, Serves (handed x))
    (hlink : (q::qs).IsChain Linked) (hms : ∀ m ∈ ms, Complete m) (hlen : ms.length ≤ qs.length+1)
    (hu : ms.length < qs.length+1 → u = []) (hq : q.traffic.taken .input <+: ms.flatten ++ u) :
    (handed (last q qs)).sent .output <+: u := by
  induction qs generalizing q ms with
  | nil =>
    have hout := serves_forth (handed q) ms u (hserves q List.mem_cons_self) hms
      (fun h => hu (by simp [h])) hq
    have htail : ms.tail = [] := List.length_eq_zero_iff.mp (by simp at hlen ⊢; omega)
    rw [htail] at hout
    exact hout
  | cons x qs ih =>
    obtain ⟨hqx,hrest⟩ := List.isChain_cons_cons.mp hlink
    have hout := serves_forth (handed q) ms u (hserves q List.mem_cons_self) hms
      (fun h => hu (by simp [h])) hq
    rw [last_cons]
    refine ih x ms.tail (fun y hy => hserves y (List.mem_cons_of_mem _ hy)) hrest
      (fun m hm => hms m (List.mem_of_mem_tail hm)) ?_ ?_ (hqx.forth.trans hout)
    · simp at hlen ⊢
      omega
    · intro hlt
      simp at hlt
      exact hu (by simp; omega)

/-- Behind the grants of all the servers comes what the last of them has read. -/
theorem path_back (ms : List Bytes) (hserves : ∀ x ∈ q::qs, Serves (handed x))
    (hlink : (q::qs).IsChain Linked) (hms : ∀ m ∈ ms, Grant m) (hlen : ms.length = qs.length+1)
    (hq : ms.flatten ++ u <+: (handed q).sent .input) :
    u <+: (last q qs).traffic.taken .output ∧
      ∀ x ∈ q::qs, granted <+: (handed x).sent .input := by
  induction qs generalizing q ms with
  | nil =>
    obtain ⟨m,rfl⟩ := List.length_eq_one_iff.mp hlen
    obtain ⟨hg,hu⟩ := serves_back (handed q) m u (hserves q List.mem_cons_self)
      (hms m List.mem_cons_self) (by simpa using hq)
    exact ⟨hu,by simpa using hg⟩
  | cons x qs ih =>
    obtain ⟨m,ms,rfl⟩ := List.exists_cons_of_length_eq_add_one hlen
    obtain ⟨hqx,hrest⟩ := List.isChain_cons_cons.mp hlink
    rw [List.flatten_cons, List.append_assoc] at hq
    obtain ⟨hg,hpre⟩ := serves_back (handed q) m _ (hserves q List.mem_cons_self)
      (hms m List.mem_cons_self) hq
    obtain ⟨hu,hall⟩ := ih x ms (fun y hy => hserves y (List.mem_cons_of_mem _ hy)) hrest
      (fun m hm => hms m (List.mem_cons_of_mem _ hm)) (Nat.succ_injective hlen)
      (hpre.trans hqx.back)
    exact ⟨hu,List.forall_mem_cons.mpr ⟨hg,hall⟩⟩

/-- The server has read the message that is meant for it. -/
def Told (x : Passage) (m : Bytes) : Prop := m <+: x.traffic.taken .input

theorem told_taken (x : Passage) (m up : Bytes) (h : (handed x).taken .input = m ++ up) :
    Told x m := ⟨up,h.symm⟩

theorem path_told (ms : List Bytes) (hserves : ∀ x ∈ q::qs, Serves (handed x))
    (hlink : (q::qs).IsChain Linked) (hms : ∀ m ∈ ms, Complete m) (hlen : ms.length = qs.length+1)
    (hg : ∀ x ∈ q::qs, granted <+: (handed x).sent .input)
    (hq : (handed q).taken .input <+: ms.flatten ++ u) : List.Forall₂ Told (q::qs) ms := by
  induction qs generalizing q ms with
  | nil =>
    obtain ⟨m,rfl⟩ := List.length_eq_one_iff.mp hlen
    obtain ⟨asked,up,hc,hi,-⟩ := serves_asked (handed q) (hserves q List.mem_cons_self)
      (hg q List.mem_cons_self)
    rw [List.flatten_cons, List.append_assoc, hi] at hq
    obtain ⟨rfl,-⟩ := complete_free.strip asked m up _ hc (hms m List.mem_cons_self) hq
    exact .cons (told_taken q asked up hi) .nil
  | cons x qs ih =>
    obtain ⟨m,ms,rfl⟩ := List.exists_cons_of_length_eq_add_one hlen
    obtain ⟨hqx,hrest⟩ := List.isChain_cons_cons.mp hlink
    obtain ⟨asked,up,hc,hi,ho⟩ := serves_asked (handed q) (hserves q List.mem_cons_self)
      (hg q List.mem_cons_self)
    rw [List.flatten_cons, List.append_assoc, hi] at hq
    obtain ⟨rfl,hup⟩ := complete_free.strip asked m up _ hc (hms m List.mem_cons_self) hq
    exact .cons (told_taken q asked up hi) (ih x ms
      (fun y hy => hserves y (List.mem_cons_of_mem _ hy)) hrest
      (fun m hm => hms m (List.mem_cons_of_mem _ hm)) (Nat.succ_injective hlen)
      (fun y hy => hg y (List.mem_cons_of_mem _ hy)) ((hqx.forth.trans ho).trans hup))

end Path

/-! The session in front of the path. -/

/-- Every hop is a server that asks for no credentials. -/
def Plain (cfg : OutputConfig) : Prop := ∀ i < hops cfg, (hopCreds cfg i).empty = true

theorem messages_complete (cfg : OutputConfig) (dst : Destination) (i : ℕ) (hi : i ≤ hops cfg)
    (hplain : Plain cfg) (hasked : SessionOwners.Asked cfg dst i) :
    ∀ m ∈ messages cfg dst i, Complete m := by
  intro m hm
  obtain ⟨j,hj,rfl⟩ := List.mem_map.mp hm
  have hlt := List.mem_range.mp hj
  exact Socks5Agreement.request_complete _ _ (hplain j (by omega)) (hasked j hlt)

theorem spoken_grants (cfg : OutputConfig) (i : ℕ) (t : Bytes) (hi : i ≤ hops cfg)
    (hplain : Plain cfg) (h : Spoken cfg i t) :
    ∃ ms : List Bytes, ms.length = i ∧ (∀ m ∈ ms, Grant m) ∧ t = ms.flatten := by
  induction h with
  | nil => exact ⟨[],rfl,by simp,rfl⟩
  | hop i t m h hm ih =>
    obtain ⟨ms,hlen,hms,rfl⟩ := ih (by omega)
    have hanswer : authAnswer (hopCreds cfg i) = [5,0] := if_pos (hplain i (by omega))
    refine ⟨ms ++ [[5,0] ++ m],by simp [hlen],?_,by simp [hanswer]⟩
    intro x hx
    rcases List.mem_append.mp hx with hx | hx
    · exact hms x hx
    · exact List.mem_singleton.mp hx ▸ .mk m hm

/-- Every server was asked for the next one, the last one for the destination,
and has granted that. -/
structure Connected (cfg : OutputConfig) (dst : Destination) (servers : List Passage) : Prop where
  asked : List.Forall₂ Told servers (messages cfg dst (hops cfg))
  granted : ∀ x ∈ servers, granted <+: (handed x).sent .input

/-- What the path from the client of `p` to the destination of `far` carries, as
far as the octets may have arrived. -/
inductive Carried (fuel : ℕ) (cfg : Config) (p : Passage) (servers : List Passage)
    (far : Passage) : Prop
  | asking (hs : (handed p).sent .input <+: [5,0]) (ho : (handed far).sent .output = [])
  | connecting (dst : Destination) (asked answered told : Bytes)
      (resp : ConnectResponse → Bytes) (r : ConnectResponse)
      (hr : Requested fuel cfg.input dst asked answered resp)
      (hi : p.traffic.taken .input = asked) (hs : p.traffic.sent .input = answered ++ told)
      (htold : told ++ outstanding p.life.state .input <+: resp r)
      (ho : (handed far).sent .output = [])
      (hc : r.major = .succeeded → Connected cfg.output dst servers)
  | relaying (dst : Destination) (asked answered up down : Bytes)
      (resp : ConnectResponse → Bytes)
      (hr : Requested fuel cfg.input dst asked answered resp)
      (hi : p.traffic.taken .input = asked ++ up)
      (hs : p.traffic.sent .input = answered ++ resp ⟨.succeeded⟩ ++ down)
      (hc : Connected cfg.output dst servers) (hup : (handed far).sent .output <+: up)
      (hdown : down ++ outstanding p.life.state .input <+: far.traffic.taken .output)

section Front

variable (cfg : Config) (dst : Destination) (p q : Passage) (qs : List Passage)

theorem cleared_connected (heard told up down : Bytes) (hplain : Plain cfg.output)
    (hlen : qs.length+1 = hops cfg.output) (hserves : ∀ x ∈ q::qs, Serves (handed x))
    (hlink : (p::q::qs).IsChain Linked)
    (hc : Cleared cfg.output dst (hops cfg.output) heard told)
    (ht : p.traffic.taken .output = heard ++ down) (hs : (handed p).sent .output = told ++ up) :
    Connected cfg.output dst (q::qs) ∧ (handed (last q qs)).sent .output <+: up ∧
      down <+: (last q qs).traffic.taken .output := by
  obtain ⟨hpq,hrest⟩ := List.isChain_cons_cons.mp hlink
  obtain ⟨ms,hmlen,hms,rfl⟩ := spoken_grants cfg.output _ heard (Nat.le_refl _) hplain hc.spoken
  have hmessages := messages_complete cfg.output dst _ (Nat.le_refl _) hplain hc.asked
  have hcount := messages_length cfg.output dst (hops cfg.output)
  have hin : q.traffic.taken .input <+:
      (messages cfg.output dst (hops cfg.output)).flatten ++ up := by
    rw [← script_flatten, ← hc.sent, ← hs]
    exact hpq.forth
  obtain ⟨hdown,hgranted⟩ := path_back down q qs ms hserves hrest hms (hmlen.trans hlen.symm)
    (ht ▸ hpq.back)
  refine ⟨⟨?_,hgranted⟩,?_,hdown⟩
  · exact path_told up q qs _ hserves hrest hmessages (hcount.trans hlen.symm) hgranted hin
  · exact path_forth up q qs _ hserves hrest hmessages (by omega) (fun h => by omega) hin

/-- As long as the chain is walked nothing leaves its last server. -/
theorem scripted_silent (hplain : Plain cfg.output) (hlen : qs.length+1 = hops cfg.output)
    (hserves : ∀ x ∈ q::qs, Serves (handed x)) (hlink : (p::q::qs).IsChain Linked)
    (h : Scripted cfg.output dst ((handed p).sent .output)) :
    (handed (last q qs)).sent .output = [] := by
  obtain ⟨hpq,hrest⟩ := List.isChain_cons_cons.mp hlink
  obtain ⟨i,hi,hasked,hpre⟩ := h
  have hmessages := messages_complete cfg.output dst i hi hplain hasked
  have hcount := messages_length cfg.output dst i
  refine List.prefix_nil.mp (path_forth [] q qs (messages cfg.output dst i) hserves hrest hmessages
    (by omega) (fun _ => rfl) ?_)
  rw [← script_flatten, List.append_nil]
  exact hpq.forth.trans hpre

theorem path_carries (fuel : ℕ) (hplain : Plain cfg.output)
    (hlen : qs.length+1 = hops cfg.output) (hserves : ∀ x ∈ q::qs, Serves (handed x))
    (hlink : (p::q::qs).IsChain Linked) (h : Reached fuel cfg p.life.state p.traffic) :
    Carried fuel cfg p (q::qs) (last q qs) := by
  cases h with
  | asking hi ho =>
    refine .asking hi (scripted_silent cfg {} p q qs hplain hlen hserves hlink
      ⟨0,Nat.zero_le _,HopTraffic.asked_none _ _,?_⟩)
    rw [handed, reach_sent, ho]
    exact List.nil_prefix
  | connecting dst asked answered told resp r hr hi hs htold ho hc =>
    refine .connecting dst asked answered told resp r hr hi hs htold
      (scripted_silent cfg dst p q qs hplain hlen hserves hlink ho) fun hmajor => ?_
    exact (cleared_connected cfg dst p q qs _ _ [] [] hplain hlen hserves hlink (hc hmajor)
      (List.append_nil _).symm (List.append_nil _).symm).1
  | relaying dst asked answered heard told up up' down down' resp hr hc hi ho ht hs hup hdown =>
    have hout : (handed p).sent .output = told ++ (up' ++ outstanding p.life.state .output) := by
      rw [handed, reach_sent, ho, List.append_assoc]
    obtain ⟨hconn,hforth,hback⟩ := cleared_connected cfg dst p q qs heard told _ down hplain hlen
      hserves hlink hc ht hout
    exact .relaying dst asked answered up down' resp hr hi hs hconn (hforth.trans hup)
      (hdown.trans hback)

end Front

/-! Whole runs. -/

/-- Nothing has passed a connection between sessions that begin. -/
theorem begun_linked (xs : List Passage) (h : ∀ x ∈ xs, ∃ cfg, Begun cfg x) :
    xs.IsChain Linked := by
  induction xs with
  | nil => exact .nil
  | cons x xs ih =>
    cases xs with
    | nil => exact .singleton x
    | cons y xs =>
      obtain ⟨cfg,a,b,c,rfl⟩ := h x (by simp)
      obtain ⟨cfg',a',b',c',rfl⟩ := h y (by simp)
      exact .cons_cons ⟨List.nil_prefix,List.nil_prefix⟩
        (ih fun z hz => h z (List.mem_cons_of_mem _ hz))

section Runs

variable (addressText : Address → Bytes) (fuel : ℕ)

theorem run_reached (cfg : Config) (x y : Passage) (hx : Begun cfg x)
    (h : Run (SessionTraffic.Step addressText fuel) x y) :
    Reached fuel cfg y.life.state y.traffic := by
  obtain ⟨printProxyErrors,log,history,rfl⟩ := hx
  have hstaged := run_staged addressText fuel cfg printProxyErrors log history y h
  exact stage_reached fuel cfg _ _ hstaged.stage

theorem run_serves (xs ys : List Passage)
    (h : List.Forall₂ (Run (SessionTraffic.Step addressText fuel)) xs ys)
    (hx : ∀ x ∈ xs, Begun serverConfig x) : ∀ y ∈ ys, Serves (handed y) := by
  induction h with
  | nil => simp
  | cons hxy hrest ih =>
    obtain ⟨hbegun,hall⟩ := List.forall_mem_cons.mp hx
    have hreached := run_reached addressText fuel serverConfig _ _ hbegun hxy
    exact List.forall_mem_cons.mpr ⟨server_serves fuel _ _ hreached,ih hall⟩

/-- However the sessions of a path and the connections between them interleave,
the path carries what a transparent session carries. -/
theorem path_transparent (cfg : Config) (hplain : Plain cfg.output) (p₀ q₀ : Passage)
    (qs₀ : List Passage) (hlen : qs₀.length+1 = hops cfg.output) (hp₀ : Begun cfg p₀)
    (hq₀ : ∀ x ∈ q₀::qs₀, Begun serverConfig x) (p q : Passage) (qs : List Passage)
    (h : Run (JointSystem.Step (SessionTraffic.Step addressText fuel) Linked) (p₀::q₀::qs₀)
      (p::q::qs)) : Carried fuel cfg p (q::qs) (last q qs) := by
  have hbegun : ∀ x ∈ p₀::q₀::qs₀, ∃ cfg, Begun cfg x :=
    List.forall_mem_cons.mpr ⟨⟨_,hp₀⟩,fun x hx => ⟨_,hq₀ x hx⟩⟩
  have hlink := JointSystem.run_bound _ Linked _ _ h (begun_linked _ hbegun)
  obtain ⟨hp,hqs⟩ := List.forall₂_cons.mp (JointSystem.run_each _ Linked _ _ h)
  have hcount : qs.length = qs₀.length := Nat.succ_injective hqs.length_eq.symm
  exact path_carries cfg p q qs fuel hplain (by omega) (run_serves addressText fuel _ _ hqs hq₀)
    hlink (run_reached addressText fuel cfg p₀ p hp₀ hp)

end Runs

/-- A tunnel through one server. -/
def hopConfig : Config :=
  ⟨.tunnel { port := 80 },⟨[{ proxyAddress := { port := 1080 } }],by decide⟩⟩

theorem pair_linked (p q : Passage) (hf : q.traffic.taken .input <+: (handed p).sent .output)
    (hb : p.traffic.taken .output <+: (handed q).sent .input) : [p,q].IsChain Linked :=
  .cons_cons ⟨hf,hb⟩ (.singleton q)

/-- The server has read two octets of the greeting, which is still being written. -/
theorem path_transparent_greeting : ∃ p q,
    Carried 0 hopConfig p [q] q ∧ p.traffic.sent .output = [] ∧
      q.traffic.taken .input = [5,1] := by
  have hrun : Run (JointSystem.Step (SessionTraffic.Step (fun _ => []) 0) Linked)
      [SessionTraffic.begun hopConfig false [] [],SessionTraffic.begun serverConfig false [] []]
      [_,_] :=
    (((Relation.ReflTransGen.single (.mk [] [_] _ _ (.accept _ .noError rfl)
        (pair_linked _ _ List.nil_prefix List.nil_prefix))).tail
      (.mk [] [_] _ _ (.complete _ [] [] _ {} rfl trivial trivial)
        (pair_linked _ _ List.nil_prefix List.nil_prefix))).tail
      (.mk [_] [] _ _ (.accept _ .noError rfl)
        (pair_linked _ _ List.nil_prefix List.nil_prefix))).tail
      (.mk [_] [] _ _ (.complete _ [] [] (.socks5 (.read 2 .authReadReqHandler))
        { data := [5,1] } rfl rfl trivial) (pair_linked _ _ ⟨[0],rfl⟩ List.nil_prefix))
  have hplain : Plain hopConfig.output := by
    intro i hi
    obtain rfl : i = 0 := Nat.lt_one_iff.mp hi
    rfl
  exact ⟨_,_,path_transparent _ 0 hopConfig hplain _ _ [] rfl ⟨false,[],[],rfl⟩
    (by rintro x hx; rw [List.mem_singleton.mp hx]; exact ⟨false,[],[],rfl⟩) _ _ [] hrun,rfl,rfl⟩

end ProxySwiss.PathTransparency
