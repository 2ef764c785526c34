import ProxySwiss.PrintConfig
import ProxySwiss.ServerTraffic
import ProxySwiss.PathTransparency

/-!
# The program

The command line becomes a configuration, the configuration is printed, and a
server is run with it. Here its sessions are followed back to the arguments:
what a proxy is told are the credentials and the hosts that are written there.
Where the server listens is written there too, but for the IPv6 address of a
tunnel.
-/

set_option autoImplicit false

namespace ProxySwiss.Program
open Memory Text InetPton UrlParser HostText TransitionSystem Socks5 ConfigFromCmdline CmdlineParts
  CmdlineCompleteness PrintConfig SessionLife SessionTraffic PathTransparency
open SessionTunnel (Side)
open ChainWalk (hops target)
open ChainDialogue (Spoken hopCreds)

/-- The text that is printed, and the code that is returned or the configuration
of the server that runs. -/
inductive MainResult where
  | exited (code : ℤ) (printed : Wide)
  | running (cfg : ProxyswissConfig) (printed : Wide)

section Main

variable (stale : Buffer 16 → Buffer 16) (usage : Wide) (addressText : Address → Bytes)
  (fuel : ℕ)

/-- Whether the server can be opened is up to the system. -/
def wmain (opened : Bool) (fv : List Argument) (cfg : ProxyswissConfig) : Option MainResult :=
  (configFromCmdline stale fuel fv cfg []).map fun r =>
    if r.code = 1 then
      .exited 1 ((if r.errMsg ≠ [] then tstr "Error: " ++ r.errMsg ++ tstr "\n" else []) ++ usage)
    else if r.code ≠ 0 then .exited r.code (tstr "Error: " ++ r.errMsg ++ tstr "\n")
    else
      let printed := tstr "Config:\n" ++ printConfig addressText r.cfg ++ tstr "\n"
      if opened then .running r.cfg (printed ++ tstr "Running...\n")
      else .exited (-1) (printed ++ tstr "Can't open server on " ++
        printedEndpoint addressText r.cfg.input.listenAddr ++ tstr "\n")

end Main

/-- The record of the type that is used. -/
def inputOf (input : InputT) : InputConfig :=
  match input.type with
  | .tunnel => .tunnel input.asTunnel
  | .proxyServer => .proxyServer input.asProxyServer

/-- What a session reads of the record that the command line has filled in. -/
def configOf (cfg : ProxyswissConfig) (hfits : cfg.proxyChain.length < 2^64) : Config :=
  ⟨inputOf cfg.input,⟨cfg.proxyChain,hfits⟩⟩

/-! What is written, as it is said on the wire. -/

def written (x : Target) : Destination := (destinationFromHost {} x.host.address x.port).1

def login (e : Entry) : Credentials := credentialsFrom (e.creds.map Prod.fst) (e.creds.map Prod.snd)

def chainOf : Line → List Entry
  | .tunnel _ _ _ chain | .proxy _ _ _ chain => chain

/-- What the proxy with the number `i` is told; the last one is asked for `final`. -/
def told (chain : List Entry) (final : Bytes) (i : ℕ) : Bytes :=
  preamble ((chain[i]?.map login).getD {}) ++
    (chain[i+1]?.map fun e => connectRequest (written e.target)).getD final

def allTold (chain : List Entry) (final : Bytes) : Bytes :=
  ((List.range chain.length).map (told chain final)).flatten

/-- Each of the first proxies has let the client in and has granted its request. -/
inductive Heard (chain : List Entry) : ℕ → Bytes → Prop
  | nil : Heard chain 0 []
  | hop (i : ℕ) (t m : Bytes) (h : Heard chain i t) (hm : Reply 0 m) :
      Heard chain (i+1) (t ++ (authAnswer ((chain[i]?.map login).getD {}) ++ m))

/-- The client has sent `asked` and has been told `answered`, and the request
for its destination is `final`. With a tunnel no client asks. -/
inductive Wanted (fuel : ℕ) : Line → Bytes → Bytes → (ConnectResponse → Bytes) → Bytes → Prop
  | tunnel (tunIn tunOut : Target) (hip : tunIn.IsIp) (chain : List Entry) :
      Wanted fuel (.tunnel tunIn tunOut hip chain) [] [] (fun _ => [])
        (connectRequest (written tunOut))
  | proxy (type : ServerProxyType) (inProxy : Target) (hip : inProxy.IsIp) (chain : List Entry)
      (dst : Destination) (asked answered : Bytes) (response : ConnectResponse → Bytes)
      (h : Requested fuel (.proxyServer type) dst asked answered response) :
      Wanted fuel (.proxy type inProxy hip chain) asked answered response (connectRequest dst)

/-- What a session of the program carries, by the command line alone. -/
inductive Carried (fuel : ℕ) (l : Line) (w : World) (t : Traffic) : Prop
  | asking (hi : t.sent .input <+: [5,0]) (ht : t.taken .output = [])
      (ho : t.sent .output = [])
  | connecting (asked answered reply final : Bytes) (response : ConnectResponse → Bytes)
      (r : ConnectResponse) (hw : Wanted fuel l asked answered response final)
      (hi : t.taken .input = asked) (ht : t.sent .input = answered ++ reply)
      (hreply : reply <+: response r) (ho : t.sent .output <+: allTold (chainOf l) final)
      (hs : r.major = .succeeded → t.sent .output = allTold (chainOf l) final ∧
        Heard (chainOf l) (chainOf l).length (t.taken .output))
  | relaying (asked answered heard final up up' down down' : Bytes)
      (response : ConnectResponse → Bytes) (hw : Wanted fuel l asked answered response final)
      (hheard : Heard (chainOf l) (chainOf l).length heard)
      (hi : t.taken .input = asked ++ up)
      (ho : t.sent .output = allTold (chainOf l) final ++ up')
      (ht : t.taken .output = heard ++ down)
      (hs : t.sent .input = answered ++ response ⟨.succeeded⟩ ++ down')
      (hup : Flowing w .input up up') (hdown : Flowing w .output down down')

/-! The chain of the configuration is the one that is written. -/

theorem codes_inj (a b : Bytes) (h : a.map CharT.code = b.map CharT.code) : a = b :=
  List.map_injective_iff.mpr (fun x y hxy => LawfulCharT.code_inj x y hxy) h

theorem logs_unique (a b : Credentials) (u : Option (Wide × Wide)) (ha : Logs a u)
    (hb : Logs b u) : a = b := by
  cases u with
  | none => exact ha.trans hb.symm
  | some u =>
    obtain ⟨au,ap⟩ := a
    obtain ⟨bu,bp⟩ := b
    obtain rfl := codes_inj au bu (ha.1.trans hb.1.symm)
    obtain rfl := codes_inj ap bp (ha.2.trans hb.2.symm)
    rfl

/-- A destination is asked for by the host and the port only. -/
theorem leads_request (a b : Destination) (x : Target) (ha : Leads a x) (hb : Leads b x) :
    connectRequest a = connectRequest b := by
  obtain ⟨han,hap⟩ := ha
  obtain ⟨hbn,hbp⟩ := hb
  have hport : a.port = b.port := hap.trans hbp.symm
  have haddress : address a = address b := by
    cases hx : x.host with
    | dotted text p q r s h =>
      rw [hx] at han hbn
      simp only [address, Destination.usingHostname, han.1, hbn.1, han.2, hbn.2]
    | ipv6 text v h =>
      rw [hx] at han hbn
      simp only [address, Destination.usingHostname, han.1, hbn.1, han.2, hbn.2]
    | name text h other =>
      rw [hx] at han hbn
      have hname : a.hostname = b.hostname := codes_inj _ _ (han.trans hbn.symm)
      have huse : b.usingHostname = true := by
        have hne : b.hostname ≠ [] := by
          intro h0
          rw [Names, h0] at hbn
          exact h.nonempty (List.map_eq_nil_iff.mp hbn.symm)
        simpa [Destination.usingHostname] using hne
      have huse' : a.usingHostname = true := by
        rw [Destination.usingHostname, hname]
        exact huse
      rw [address, address, if_pos huse, if_pos huse', hname]
  rw [connectRequest, connectRequest, haddress, hport]

theorem forall₂_at {α β : Type} {R : α → β → Prop} {l : List α} {m : List β}
    (h : List.Forall₂ R l m) (i : ℕ) :
    (l[i]? = none ∧ m[i]? = none) ∨ ∃ a ∈ l, ∃ b, l[i]? = some a ∧ m[i]? = some b ∧ R a b := by
  induction h generalizing i with
  | nil => exact .inl ⟨rfl,rfl⟩
  | @cons a b l m hab _ ih =>
    cases i with
    | zero => exact .inr ⟨a,List.mem_cons_self ..,b,rfl,rfl,hab⟩
    | succ i =>
      rcases ih i with h | ⟨x,hx,y,h⟩
      · exact .inl h
      · exact .inr ⟨x,List.mem_cons_of_mem _ hx,y,h⟩

theorem hop_creds (cfg : OutputConfig) (i : ℕ) :
    hopCreds cfg i = (cfg.proxyChain[i]?.map ProxyClientInfo.proxyCreds).getD {} := by
  rw [hopCreds, ChainDialogue.hopSession, Output.create, Output.createChain,
    List.getD_eq_getElem?_getD, List.getElem?_map]
  cases cfg.proxyChain[i]? with
  | none => rfl
  | some info =>
    cases info.proxyClientType
    rfl

theorem hop_request (cfg : OutputConfig) (dst : Destination) (i : ℕ) :
    connectRequest (target cfg dst i) = (cfg.proxyChain[i+1]?.map fun info =>
      connectRequest info.proxyAddress).getD (connectRequest dst) := by
  rw [target, hops]
  split_ifs with h
  · rw [Output.proxyAddress, List.getElem?_eq_getElem h]
    rfl
  · rw [List.getElem?_eq_none (by omega)]
    rfl

section Chain

variable (chain : List Entry) (cfg : OutputConfig) (dst : Destination) (final : Bytes)
  (hchain : List.Forall₂ Stored chain cfg.proxyChain) (hn : ∀ e ∈ chain, Narrow e.text)
  (hfinal : connectRequest dst = final)

include hchain hn

theorem login_hop (i : ℕ) : hopCreds cfg i = (chain[i]?.map login).getD {} := by
  rw [hop_creds]
  rcases forall₂_at hchain i with ⟨ha,hb⟩ | ⟨e,he,info,ha,hb,hs⟩
  · rw [ha, hb]
    rfl
  · rw [ha, hb]
    refine logs_unique _ _ e.creds hs.creds (creds_logged e.creds fun u hu => ?_)
    have htext := hn e he
    rw [Entry.text, hu] at htext
    exact ⟨fun c hc => htext c (by simp [credsText, hc]),
      fun c hc => htext c (by simp [credsText, hc])⟩

include hfinal

theorem message_told (i : ℕ) : message cfg dst i = told chain final i := by
  rw [message, told, login_hop chain cfg hchain hn, hop_request, hfinal]
  congr 1
  rcases forall₂_at hchain (i+1) with ⟨ha,hb⟩ | ⟨e,he,info,ha,hb,hs⟩
  · rw [ha, hb]
    rfl
  · rw [ha, hb]
    refine leads_request _ _ e.target hs.address (target_leads e.target {} fun c hc => ?_)
    exact hn e he c (by simp [Entry.text, hc])

theorem script_told : script cfg dst (hops cfg) = allTold chain final := by
  rw [script_flatten, messages, allTold, hops, ← hchain.length_eq]
  exact congrArg List.flatten (List.map_congr_left fun i _ =>
    message_told chain cfg dst final hchain hn hfinal i)

omit hfinal

theorem spoken_heard (i : ℕ) (t : Bytes) (h : Spoken cfg i t) : Heard chain i t := by
  induction h with
  | nil => exact .nil
  | hop i t m _ hm ih =>
    rw [login_hop chain cfg hchain hn]
    exact .hop i t m ih hm

end Chain

theorem script_part (cfg : OutputConfig) (dst : Destination) (i j : ℕ) (h : i ≤ j) :
    script cfg dst i <+: script cfg dst j := by
  induction j with
  | zero => rw [Nat.le_zero.mp h]
  | succ j ih =>
    rcases Nat.le_succ_iff.mp h with h | rfl
    · exact (ih h).trans (List.prefix_append _ _)
    · exact List.prefix_refl _

theorem entry_text (l : Line) (e : Entry) (he : e ∈ chainOf l) : e.text ∈ l.texts := by
  cases l with
  | tunnel tunIn tunOut hip chain =>
    exact List.mem_cons_of_mem _ (List.mem_cons_of_mem _ (List.mem_cons_of_mem _
      (List.mem_map_of_mem he)))
  | proxy type inProxy hip chain =>
    exact List.mem_cons_of_mem _ (List.mem_cons_of_mem _ (List.mem_map_of_mem he))

theorem chain_length (l : Line) : (chainOf l).length ≤ l.texts.length := by
  cases l with
  | tunnel tunIn tunOut hip chain =>
    simp only [chainOf, Line.texts, List.length_cons, List.length_map]
    omega
  | proxy type inProxy hip chain =>
    simp only [chainOf, Line.texts, List.length_cons, List.length_map]
    omega

section Sessions

variable (fuel : ℕ) (l : Line) (old cfg : ProxyswissConfig) (hold : old.proxyChain = [])
  (hp : Filled old cfg l) (hn : ∀ x ∈ l.texts, Narrow x)

include hp

include hold in
theorem chain_stored : List.Forall₂ Stored (chainOf l) cfg.proxyChain := by
  cases l with
  | tunnel tunIn tunOut hip chain =>
    obtain ⟨-,-,infos,hinfos,hall⟩ := hp
    rw [hinfos, hold]
    exact hall
  | proxy type inProxy hip chain =>
    obtain ⟨-,-,infos,hinfos,hall⟩ := hp
    rw [hinfos, hold]
    exact hall

include hn

theorem requested_wanted (dst : Destination) (asked answered : Bytes)
    (response : ConnectResponse → Bytes)
    (h : Requested fuel (inputOf cfg.input) dst asked answered response) :
    Wanted fuel l asked answered response (connectRequest dst) := by
  cases l with
  | tunnel tunIn tunOut hip chain =>
    obtain ⟨htype,hleads,-⟩ := hp
    rw [inputOf, htype] at h
    cases h with
    | tunnel hd =>
      obtain rfl := InputConfig.tunnel.inj hd
      have hout : Leads (written tunOut) tunOut := target_leads tunOut {} (hn _ (by
        simp [Line.texts]))
      rw [leads_request _ _ tunOut hleads hout]
      exact .tunnel tunIn tunOut hip chain
    | socks5 t hd ht => simp at hd
    | https first last p hs hd hp hhs hlast hdst => simp at hd
  | proxy type inProxy hip chain =>
    obtain ⟨htype,rfl,-⟩ := hp
    rw [inputOf, htype] at h
    exact .proxy _ inProxy hip chain dst asked answered response h

include hold

/-- What a session carries by its configuration is what it carries by the line. -/
theorem passed_carried (hfits : cfg.proxyChain.length < 2^64) (w : World) (t : Traffic)
    (h : Passed fuel (configOf cfg hfits) w t) : Carried fuel l w t := by
  have hchain : List.Forall₂ Stored (chainOf l) (configOf cfg hfits).output.proxyChain :=
    chain_stored l old cfg hold hp
  have hentry : ∀ e ∈ chainOf l, Narrow e.text := fun e he => hn e.text (entry_text l e he)
  have hlen : hops (configOf cfg hfits).output = (chainOf l).length := hchain.length_eq.symm
  cases h with
  | asking hi ht ho => exact .asking hi ht ho
  | connecting dst asked answered reply response r hr hi ht hreply ho hs =>
    have hscript := script_told (chainOf l) _ dst _ hchain hentry rfl
    obtain ⟨i,hle,-,hpre⟩ := ho
    refine .connecting asked answered reply (connectRequest dst) response r
      (requested_wanted fuel l old cfg hp hn dst asked answered response hr) hi ht hreply
      (hscript ▸ hpre.trans (script_part _ dst i _ hle)) fun hmajor => ?_
    obtain ⟨-,hspoken,hsent⟩ := hs hmajor
    exact ⟨hsent.trans hscript,hlen ▸ spoken_heard (chainOf l) _ hchain hentry _ _ hspoken⟩
  | relaying dst asked answered heard said up up' down down' response hr hc hi ho ht hs hup hdown =>
    have hscript := script_told (chainOf l) _ dst _ hchain hentry rfl
    obtain ⟨-,hspoken,hsaid⟩ := hc
    exact .relaying asked answered heard (connectRequest dst) up up' down down' response
      (requested_wanted fuel l old cfg hp hn dst asked answered response hr)
      (hlen ▸ spoken_heard (chainOf l) _ hchain hentry _ _ hspoken) hi
      (by rw [ho, hsaid, hscript]) ht hs hup hdown

end Sessions

section Runs

variable (usage : Wide) (addressText : Address → Bytes)

theorem main_runs (stale : Buffer 16 → Buffer 16) (fuel : ℕ) (fv : List Argument)
    (old cfg : ProxyswissConfig)
    (h : configFromCmdline stale fuel fv old [] = some ⟨0,cfg,[]⟩) :
    ∃ printed, wmain stale usage addressText fuel true fv old = some (.running cfg printed) := by
  rw [wmain, h]
  exact ⟨_,rfl⟩

/-- What a server does that listens for the line. -/
structure Serves (fuel : ℕ) (l : Line) (cfg : ProxyswissConfig) : Prop where
  fits : cfg.proxyChain.length < 2^64
  listens : ¬ TunnelOverIpv6 l → Listens cfg.input.listenAddr l.input
  carries : ∀ v, Run (ServerTraffic.Step addressText fuel (configOf cfg fits) true)
    (ServerTraffic.start (configOf cfg fits) true) v →
      ∀ p ∈ v.accepted, Carried fuel l p.life.state p.traffic

/-- The program that is started with the arguments of a line runs a server, and
whatever its clients and the network do, every session carries what the line
says. The number of arguments is an `int`. -/
theorem program_carries (l : Line) (fv : List Argument) (hfv : fv.map Argument.text = l.texts)
    (hargc : fv.length < 2^31) (hascii : Ascii fv) (input : InputT) :
    ∃ N, ∀ stale fuel, N ≤ fuel → ∃ cfg printed,
      wmain stale usage addressText fuel true fv ⟨input,[]⟩ = some (.running cfg printed) ∧
        Serves addressText fuel l cfg := by
  have hnarrow := ascii_narrow fv hascii
  have hn : ∀ x ∈ l.texts, Narrow x := by
    intro x hx
    rw [← hfv] at hx
    obtain ⟨a,ha,rfl⟩ := List.mem_map.mp hx
    exact hnarrow a ha
  obtain ⟨N,hN⟩ := line_taken l fv hfv hnarrow ⟨input,[]⟩ []
  refine ⟨N,fun stale fuel hfuel => ?_⟩
  obtain ⟨cfg,hcfg,hleft⟩ := hN stale fuel hfuel
  obtain ⟨printed,hmain⟩ := main_runs usage addressText stale fuel fv _ cfg hcfg
  have hchain := chain_stored l ⟨input,[]⟩ cfg rfl hleft.filled
  have hfits : cfg.proxyChain.length < 2^64 := by
    have hlen := chain_length l
    rw [← hfv, List.length_map] at hlen
    rw [← hchain.length_eq]
    omega
  refine ⟨cfg,printed,hmain,hfits,hleft.listens,fun v hv p hp => ?_⟩
  have horderly := run_invariant (ServerTraffic.Orderly fuel (configOf cfg hfits))
    (fun v v' => ServerTraffic.orderly_step addressText fuel (configOf cfg hfits) true v v') hv
    (ServerTraffic.orderly_start fuel (configOf cfg hfits) true)
  exact passed_carried fuel l ⟨input,[]⟩ cfg rfl hleft.filled hn hfits _ _
    (SessionTransparency.going_passed fuel _ _ _ (horderly.accepted p hp).2)

end Runs

/-- A tunnel through two proxies; the address is not printed here. -/
theorem program_carries_plain : ∃ N, ∀ stale fuel, N ≤ fuel → ∃ cfg printed,
    wmain stale [] (fun _ => []) fuel true plainArguments emptyConfig =
        some (.running cfg printed) ∧ Serves (fun _ => []) fuel plainLine cfg :=
  program_carries [] (fun _ => []) plainLine plainArguments rfl (by decide) (ascii_all _ rfl)
    emptyConfig.input

end ProxySwiss.Program
