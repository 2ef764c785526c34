import ProxySwiss.CmdlineCompleteness
import ProxySwiss.AuthorityBoundary

/-!
# What is kept of a command line

An accepted command line stores one host and one port for each argument behind
the type, and credentials for each proxy of the chain. They are what was written
exactly if no user name stands without a password, no character is too wide,
no host or port is one of those that are taken loosely, and no tunnel is listened
for at an IPv6 address, whose octets are read when they are gone.
-/

set_option autoImplicit false

namespace ProxySwiss.CmdlineFaithfulness
open Memory Text InetPton UrlParser HostText PortGrammar AuthorityBoundary ConfigFromCmdline
open CmdlineParts CmdlineCompleteness

/-- The part before the first `@`. -/
def userWritten (text : Wide) : Option Wide :=
  let s := behindScheme text
  if tchar '@' ∈ s then some (before (tchar '@') s) else none

/-- A host in brackets ends with the closing one, and every other at a colon. -/
def hostWritten (text : Wide) : Wide :=
  let s := hostOn text
  if s.head? = some (tchar '[') then before (tchar ']') s ++ [tchar ']'] else before (tchar ':') s

def portWritten (text : Wide) : Wide := (hostOn text).drop ((hostWritten text).length+1)

def SameUnits (s : Bytes) (text : Wide) : Prop := s.map CharT.code = text.map CharT.code

instance (s : Bytes) (text : Wide) : Decidable (SameUnits s text) :=
  inferInstanceAs (Decidable (_ = _))

/-- The destination is the address that the host denotes, or has its name. -/
inductive KeptHost (dst : Destination) : Wide → Prop
  | dotted (host : Wide) (a b c d : UInt8) (h : Ipv4Literal.Dotted host a b c d)
      (hname : dst.hostname = []) (hip : dst.ipAddress = .v4 (ofLe32 d c b a)) : KeptHost dst host
  | ipv6 (s : Bytes) (a : Buffer 16) (h : Ipv6Text s a.bytes) (hname : dst.hostname = [])
      (hip : dst.ipAddress = .v6 a) : KeptHost dst (tchar '['::(strToTstr s ++ [tchar ']']))
  | name (host : Wide) (hne : host ≠ []) (h : SameUnits dst.hostname host) : KeptHost dst host

/-- The two halves of the part before `@`, split at its first colon. -/
def KeptCreds (creds : Credentials) : Option Wide → Prop
  | none => creds = {}
  | some u => SameUnits creds.username (before (tchar ':') u) ∧
      SameUnits creds.password (behind (tchar ':') u).tail

/-- What is stored for an argument is what is written in it. -/
structure Kept (text : Wide) (dst : Destination) (creds : Option Credentials) : Prop where
  host : KeptHost dst (hostWritten text)
  port : PortText (portWritten text) dst.port
  creds : ∀ c ∈ creds, KeptCreds c (userWritten text)

/-- What a configuration has stored since its chain was `old`, in the order of
the arguments behind the type. Only the proxies of the chain have credentials. -/
def stored (old : List ProxyClientInfo) (cfg : ProxyswissConfig) :
    List (Destination × Option Credentials) :=
  let ep := cfg.input.listenAddr
  let chain := (cfg.proxyChain.drop old.length).map fun info =>
    (info.proxyAddress,some info.proxyCreds)
  match cfg.input.type with
  | .tunnel => (⟨[],ep.address,ep.port⟩,none)::(cfg.input.asTunnel,none)::chain
  | .proxyServer => (⟨[],ep.address,ep.port⟩,none)::chain

/-- The proxies that were there are there still, and every argument is kept. -/
def Faithful (fv : List Argument) (old cfg : ProxyswissConfig) : Prop :=
  old.proxyChain <+: cfg.proxyChain ∧
    List.Forall₂ (fun a x => Kept a.text x.1 x.2) fv.tail (stored old.proxyChain cfg)

/-- Neither four numbers in a loose form nor a character that is too wide, and
between brackets nothing but a text form of an address. -/
structure ExactHost (host : Wide) : Prop where
  named : host.head? ≠ some (tchar '[') → ¬ Ipv4Literal.Loose host ∧ Narrow host
  bracketed : ∀ inner, host = tchar '['::(inner ++ [tchar ']']) →
    ∃ (s : Bytes) (a : Buffer 16), inner = strToTstr s ∧ Ipv6Text s a.bytes

structure Exact (text : Wide) : Prop where
  user : ∀ u ∈ userWritten text, u ≠ [] → tchar ':' ∈ u ∧ Narrow u
  host : ExactHost (hostWritten text)
  port : ¬ NotDigits (portWritten text)

/-- The address that a tunnel is listened for at stands between brackets. -/
def TunnelInBrackets : List Argument → Prop
  | t::a::_ => t.text = tstr "tunnel" ∧ (hostWritten a.text).head? = some (tchar '[')
  | _ => False

/-- Some run accepts the command line. -/
def Accepted (fuel : ℕ) (fv : List Argument) (cfg : ProxyswissConfig) (errMsg : Wide) : Prop :=
  ∃ stale cfg' errMsg', configFromCmdline stale fuel fv cfg errMsg = some ⟨0,cfg',errMsg'⟩

/-- Whatever is read in place of an address that is gone, nothing is lost. -/
def Preserved (fuel : ℕ) (fv : List Argument) (cfg : ProxyswissConfig) (errMsg : Wide) : Prop :=
  ∀ stale cfg' errMsg', configFromCmdline stale fuel fv cfg errMsg = some ⟨0,cfg',errMsg'⟩ →
    Faithful fv cfg cfg'

/-- What is stored of a host, if an address is stored as `address` says. -/
def storedHost (address : IpAddress → Address) (old : Destination) (host : HostAddress)
    (port : UInt16) : Destination :=
  match host with
  | .ipAddr ip => ⟨[],address ip,port⟩
  | .hostname name => { old with hostname := name, port := port }

/-- An argument that was taken, and what was stored for it. -/
def Taken (address : IpAddress → Address) (fuel : ℕ) (a : Argument)
    (x : Destination × Option Credentials) : Prop :=
  ∃ up port old, parse fuel a.text = some (some up) ∧ up.path = [] ∧ up.port = some port ∧
    x.1 = storedHost address old up.host port ∧
    (∀ c ∈ x.2, c = credentialsFrom up.username up.password) ∧ (x.2 = none → up.username = none)

theorem storedHost_block (old : Destination) (host : HostAddress) (port : UInt16) :
    storedHost addressOf old host port = (destinationFromHost old host port).1 := by
  cases host with
  | hostname name => rfl
  | ipAddr ip => cases ip <;> rfl

/-! Whether a command line is accepted does not depend on what is read. -/

theorem chain_input (fuel i : ℕ) (fv : List Argument) (l : Locals) (cfg : ProxyswissConfig)
    (errMsg : Wide) (input : InputT) :
    proxyChainFrom fuel i fv l { cfg with input := input } errMsg =
      (proxyChainFrom fuel i fv l cfg errMsg).map fun r =>
        { r with cfg := { r.cfg with input := input } } := by
  induction fv generalizing i l cfg with
  | nil => rfl
  | cons a fv ih =>
    rw [proxyChainFrom, proxyChainFrom]
    cases proxyInfoFromString fuel a.text l.host (some l.proxyTypeStr) (some l.creds) with
    | none => rfl
    | some r =>
      cases r with
      | error msg => rfl
      | ok info =>
        simp only [Option.bind_some]
        cases clientSessionTypeFromString (l.assign info).proxyTypeStr with
        | none => rfl
        | some type => exact ih (i+1) (l.assign info) { cfg with proxyChain :=
            cfg.proxyChain ++ [⟨type,(l.assign info).host,(l.assign info).creds⟩] }

theorem tunnel_again (stale stale' : Buffer 16 → Buffer 16) (fuel : ℕ) (a b : Argument)
    (fv : List Argument) (cfg cfg' : ProxyswissConfig) (errMsg errMsg' : Wide)
    (h : tunnelFrom stale fuel a b fv cfg errMsg = some ⟨0,cfg',errMsg'⟩) :
    ∃ cfg'', tunnelFrom stale' fuel a b fv cfg errMsg = some ⟨0,cfg'',errMsg'⟩ := by
  obtain ⟨r,hr,h⟩ := Option.bind_eq_some_iff.mp h
  cases r with
  | error msg => simp at h
  | ok ep =>
    obtain ⟨up,port,ip,hup,hs,hpath,hu,hp,hport,hhost,-⟩ := (endpoint_ok _ _ _ _).mp hr
    have hr' := (endpoint_ok stale' fuel _ ⟨listenAddress stale' ip,port⟩).mpr
      ⟨up,port,ip,hup,hs,hpath,hu,hp,hport,hhost,rfl⟩
    obtain ⟨r,hbind,h⟩ := Option.bind_eq_some_iff.mp h
    have hout : proxyInfoFromString fuel b.text cfg.input.asTunnel none none = some r := hbind
    cases r with
    | error msg => simp at h
    | ok info =>
      have hchain : proxyChainFrom fuel 3 fv {}
          ⟨⟨.tunnel,ep,info.dst,cfg.input.asProxyServer⟩,cfg.proxyChain⟩ errMsg =
            some ⟨0,cfg',errMsg'⟩ := h
      have hagain := chain_input fuel 3 fv {}
        ⟨⟨.tunnel,ep,info.dst,cfg.input.asProxyServer⟩,cfg.proxyChain⟩ errMsg
        ⟨.tunnel,⟨listenAddress stale' ip,port⟩,info.dst,cfg.input.asProxyServer⟩
      rw [hchain] at hagain
      refine ⟨{ cfg' with input :=
        ⟨.tunnel,⟨listenAddress stale' ip,port⟩,info.dst,cfg.input.asProxyServer⟩ },?_⟩
      simp only [tunnelFrom, hr', Option.bind_some, hout]
      exact hagain

theorem accepted_again (stale stale' : Buffer 16 → Buffer 16) (fuel : ℕ) (fv : List Argument)
    (cfg cfg' : ProxyswissConfig) (errMsg errMsg' : Wide)
    (h : configFromCmdline stale fuel fv cfg errMsg = some ⟨0,cfg',errMsg'⟩) :
    ∃ cfg'', configFromCmdline stale' fuel fv cfg errMsg = some ⟨0,cfg'',errMsg'⟩ := by
  unfold configFromCmdline at h ⊢
  split at h
  · split_ifs at h ⊢
    · split at h
      · exact tunnel_again stale stale' fuel _ _ _ cfg cfg' errMsg errMsg' h
      · simp at h
    · exact ⟨cfg',h⟩
    · simp at h
  · simp at h

/-! What was taken, by the reading of the arguments. -/

theorem chain_stored (fuel i : ℕ) (fv : List Argument) (l : Locals) (cfg cfg' : ProxyswissConfig)
    (errMsg errMsg' : Wide)
    (h : proxyChainFrom fuel i fv l cfg errMsg = some ⟨0,cfg',errMsg'⟩) :
    cfg'.input = cfg.input ∧ ∃ infos : List ProxyClientInfo,
      cfg'.proxyChain = cfg.proxyChain ++ infos ∧
        List.Forall₂ (Taken addressOf fuel) fv (infos.map fun info =>
          (info.proxyAddress,some info.proxyCreds)) := by
  induction fv generalizing i l cfg with
  | nil =>
    cases h
    exact ⟨rfl,[],by simp,.nil⟩
  | cons a fv ih =>
    obtain ⟨r,hr,h⟩ := Option.bind_eq_some_iff.mp h
    cases r with
    | error msg => simp at h
    | ok info =>
      obtain ⟨up,port,hup,hpath,-,-,hport,rfl⟩ := (info_ok _ _ _ _ _ _).mp hr
      simp only at h
      split at h
      · simp at h
      · obtain ⟨hinput,infos,hchain,hall⟩ := ih _ _ _ h
        refine ⟨hinput,_::infos,by simpa using hchain,.cons ?_ hall⟩
        exact ⟨up,port,l.host,hup,hpath,hport,(storedHost_block _ _ _).symm,
          by simp [Locals.assign],by simp⟩

/-- The first argument behind the type, and those behind it. -/
structure Stores (address : IpAddress → Address) (fuel : ℕ) (a : Argument) (rest : List Argument)
    (cfg cfg' : ProxyswissConfig) : Prop where
  chain : cfg.proxyChain <+: cfg'.proxyChain
  all : ∃ x xs, stored cfg.proxyChain cfg' = x::xs ∧ Taken address fuel a x ∧
    List.Forall₂ (Taken addressOf fuel) rest xs

theorem tunnel_stored (stale : Buffer 16 → Buffer 16) (fuel : ℕ) (a b : Argument)
    (fv : List Argument) (cfg cfg' : ProxyswissConfig) (errMsg errMsg' : Wide)
    (h : tunnelFrom stale fuel a b fv cfg errMsg = some ⟨0,cfg',errMsg'⟩) :
    Stores (listenAddress stale) fuel a (b::fv) cfg cfg' := by
  obtain ⟨r,hr,h⟩ := Option.bind_eq_some_iff.mp h
  cases r with
  | error msg => simp at h
  | ok ep =>
    obtain ⟨r,hout,h⟩ := Option.bind_eq_some_iff.mp h
    cases r with
    | error msg => simp at h
    | ok info =>
      obtain ⟨up,port,ip,hup,-,hpath,huser,-,hport,hhost,rfl⟩ := (endpoint_ok _ _ _ _).mp hr
      obtain ⟨vp,port',hvp,hpath',-,hcreds,hport',rfl⟩ := (info_ok _ _ _ _ _ _).mp hout
      obtain ⟨hinput,infos,hchain,hall⟩ := chain_stored _ _ _ _ _ _ _ _ h
      refine ⟨⟨infos,hchain.symm⟩,?_⟩
      rw [stored, hinput, hchain, List.drop_left]
      refine ⟨_,_,rfl,?_,.cons ?_ hall⟩
      · exact ⟨up,port,{},hup,hpath,hport,by rw [hhost]; rfl,by simp,fun _ => huser⟩
      · exact ⟨vp,port',_,hvp,hpath',hport',(storedHost_block _ _ _).symm,by simp,
          fun _ => (hcreds rfl).1⟩

theorem without_name (dst : Destination) (h : dst.hostname = []) :
    (⟨[],dst.ipAddress,dst.port⟩ : Destination) = dst := by
  rw [← h]

theorem proxy_stored (fuel : ℕ) (a : Argument) (fv : List Argument)
    (cfg cfg' : ProxyswissConfig) (errMsg errMsg' : Wide)
    (h : proxyFrom fuel a fv cfg errMsg = some ⟨0,cfg',errMsg'⟩) :
    Stores addressOf fuel a fv cfg cfg' := by
  obtain ⟨r,hr,h⟩ := Option.bind_eq_some_iff.mp h
  cases r with
  | error msg => simp at h
  | ok info =>
    obtain ⟨up,port,hup,hpath,-,hcreds,hport,rfl⟩ := (info_ok _ _ _ _ _ _).mp hr
    simp only at h
    split at h
    · simp at h
    · split_ifs at h with hname
      · simp at h
      · obtain ⟨hinput,infos,hchain,hall⟩ := chain_stored _ _ _ _ _ _ _ _ h
        refine ⟨⟨infos,hchain.symm⟩,?_⟩
        rw [stored, hinput, hchain, List.drop_left]
        refine ⟨_,_,rfl,⟨up,port,{},hup,hpath,hport,?_,by simp,fun _ => (hcreds rfl).1⟩,hall⟩
        rw [storedHost_block]
        exact without_name _ (by simpa [Destination.usingHostname] using hname)

/-- Where the address of the first argument behind the type is taken from. -/
def firstAddress (stale : Buffer 16 → Buffer 16) (t : Argument) : IpAddress → Address :=
  if t.text = tstr "tunnel" then listenAddress stale else addressOf

/-- Everything behind the type is taken. -/
theorem line_stored (stale : Buffer 16 → Buffer 16) (fuel : ℕ) (fv : List Argument)
    (cfg cfg' : ProxyswissConfig) (errMsg errMsg' : Wide)
    (h : configFromCmdline stale fuel fv cfg errMsg = some ⟨0,cfg',errMsg'⟩) :
    ∃ t a rest, fv = t::a::rest ∧ Stores (firstAddress stale t) fuel a rest cfg cfg' := by
  unfold configFromCmdline at h
  split at h
  · rename_i t a rest
    refine ⟨t,a,rest,rfl,?_⟩
    unfold firstAddress
    split_ifs at h ⊢
    · split at h
      · exact tunnel_stored _ _ _ _ _ _ _ _ _ h
      · simp at h
    · exact proxy_stored _ _ _ _ _ _ _ h
    · simp at h
  · simp at h

/-! How an argument that was taken reads. -/

theorem userinfo_read (s : Wide) : userinfoPart s =
    (let u := if tchar '@' ∈ s then some (before (tchar '@') s) else none
    (u.map (before (tchar ':')),u.bind fun u =>
      if tchar ':' ∈ u then some (behind (tchar ':') u).tail else none,behindUserinfo s)) := by
  rw [← userinfoPart_behind]
  unfold userinfoPart
  split_ifs <;> rfl

theorem unbracketed_written (text u : Wide)
    (h : Unbracketed (hostRaw (hostOn text)) (hostOn text) u) :
    hostWritten text = hostRaw (hostOn text) ∧ portWritten text = u := by
  have hhead : (hostOn text).head? ≠ some (tchar '[') := by
    obtain ⟨c,cs,hc⟩ := List.exists_cons_of_ne_nil h.nonempty
    intro h0
    rw [h.text, hc] at h0
    have hb := h.bracket
    rw [hc] at hb
    exact hb h0
  have hhost : hostWritten text = hostRaw (hostOn text) := by
    rw [hostWritten, if_neg hhead]
    nth_rewrite 1 [h.text]
    rw [before_append _ _ _ h.colon, before_self, List.append_nil]
  refine ⟨hhost,?_⟩
  rw [portWritten, hhost]
  nth_rewrite 2 [h.text]
  rw [← List.drop_drop, List.drop_left]
  rfl

theorem bracketed_written (text inner u : Wide) (h : Bracketed inner (hostOn text) u) :
    hostWritten text = tchar '['::(inner ++ [tchar ']']) ∧ portWritten text = u := by
  have hno : tchar ']' ∉ tchar '['::inner := by
    simp [h.clean, tchar_ne (T := UInt16) ']' '[' (by decide)]
  have hsplit : hostOn text = (tchar '['::inner) ++ tchar ']'::(tchar ':'::u) := by
    rw [h.text]
    simp
  have hhead : (hostOn text).head? = some (tchar '[') := by
    rw [hsplit, List.cons_append, List.head?_cons]
  have hhost : hostWritten text = tchar '['::(inner ++ [tchar ']']) := by
    rw [hostWritten, if_pos hhead, hsplit, before_append _ _ _ hno, before_self]
    simp
  refine ⟨hhost,?_⟩
  rw [portWritten, hhost, h.text, ← List.drop_drop, List.drop_left]
  rfl

/-- The host and the port of an argument that was taken. -/
theorem written_read (fuel : ℕ) (text : Wide) (up : UrlParser UInt16) (port : UInt16)
    (h : parse fuel text = some (some up)) (hpath : up.path = []) (hport : up.port = some port) :
    strToUint (portWritten text) = some port.toNat ∧
      ((hostWritten text ≠ [] ∧ (hostWritten text).head? ≠ some (tchar '[') ∧
          up.host = namedHost (hostWritten text)) ∨
        ∃ inner ip, hostWritten text = tchar '['::(inner ++ [tchar ']']) ∧
          fromStringIpv6 fuel inner = some (some ip) ∧ up.host = .ipAddr ip) := by
  obtain ⟨scheme,s,host,r,_,q,hs,hhost,hp,rfl⟩ := (parse_some fuel text up).mp h
  simp only at hport hpath
  subst hport
  obtain ⟨t,rfl,-,hq,ht⟩ := port_split r q port hp
  obtain rfl : q = [] := by
    rcases hq with h0 | ⟨v,rfl⟩
    · exact h0
    · simp [pathPart] at hpath
  rw [List.append_nil] at hhost
  rw [userinfoPart_behind, schemePart_behind text s scheme hs] at hhost
  rcases host_read fuel _ t host hhost with ⟨hn,rfl⟩ | ⟨inner,ip,hb,hip,rfl⟩
  · obtain ⟨hh,hpt⟩ := unbracketed_written text t hn
    rw [hpt, hh]
    exact ⟨ht,.inl ⟨hn.nonempty,hn.bracket,rfl⟩⟩
  · obtain ⟨hh,hpt⟩ := bracketed_written text inner t hb
    rw [hpt, hh]
    exact ⟨ht,.inr ⟨inner,ip,rfl,hip,rfl⟩⟩

/-- The user name and the password of an argument that was parsed. -/
theorem user_read (fuel : ℕ) (text : Wide) (up : UrlParser UInt16)
    (h : parse fuel text = some (some up)) :
    up.username = (userWritten text).map (before (tchar ':')) ∧
      up.password = (userWritten text).bind fun u =>
        if tchar ':' ∈ u then some (behind (tchar ':') u).tail else none := by
  obtain ⟨scheme,s,host,r,_,q,hs,-,-,rfl⟩ := (parse_some fuel text up).mp h
  rw [schemePart_behind text s scheme hs, userinfo_read]
  exact ⟨rfl,rfl⟩

/-! What is kept of an argument, part by part. -/

theorem narrow_split (u : Wide) (h : tchar ':' ∈ u) :
    Narrow (before (tchar ':') u) ∧ Narrow (behind (tchar ':') u).tail ↔ Narrow u := by
  obtain ⟨t,ht⟩ := behind_cons _ u h
  have hu := before_behind (tchar ':') u
  have hcolon : CharT.code (tchar ':' : UInt16) < 256 := by decide
  have hwhole : Narrow u ↔ Narrow (before (tchar ':') u ++ tchar ':'::t) := by rw [← ht, hu]
  rw [hwhole, ht]
  simp [Narrow, or_imp, forall_and, hcolon]

theorem creds_kept (user : Option Wide) :
    KeptCreds (credentialsFrom (user.map (before (tchar ':'))) (user.bind fun u =>
      if tchar ':' ∈ u then some (behind (tchar ':') u).tail else none)) user ↔
        ∀ u ∈ user, u ≠ [] → tchar ':' ∈ u ∧ Narrow u := by
  cases user with
  | none => simp [KeptCreds, credentialsFrom]
  | some u =>
    simp only [Option.mem_def, Option.some.injEq, forall_eq', Option.map_some, Option.bind_some]
    by_cases hc : tchar ':' ∈ u
    · have hcreds : KeptCreds ⟨wstrToStr (before (tchar ':') u),
          wstrToStr (behind (tchar ':') u).tail⟩ (some u) ↔ Narrow u :=
        (and_congr (narrow_codes _) (narrow_codes _)).trans (narrow_split u hc)
      rw [if_pos hc, credentialsFrom, hcreds]
      exact ⟨fun h _ => ⟨hc,h⟩,fun h => (h (List.ne_nil_of_mem hc)).2⟩
    · rw [if_neg hc]
      change KeptCreds {} (some u) ↔ _
      constructor
      · rintro ⟨h,-⟩ hne
        rw [before_absent _ u hc] at h
        exact absurd (List.map_eq_nil_iff.mp h.symm) hne
      · intro h
        obtain rfl : u = [] := by
          by_contra hne
          exact hc (h hne).1
        exact ⟨rfl,rfl⟩

theorem dotted_narrow (host : Wide) (a b c d : UInt8) (h : Ipv4Literal.Dotted host a b c d) :
    Narrow host := by
  intro x hx
  rcases (Ipv4Literal.dotted_plain host a b c d h).1 x hx with hd | rfl
  · exact Nat.lt_of_le_of_lt hd.2 (by decide)
  · decide

theorem named_kept (host : Wide) (old : Destination) (port : UInt16) (hne : host ≠ [])
    (hhead : host.head? ≠ some (tchar '[')) :
    KeptHost (destinationFromHost old (namedHost host) port).1 host ↔ ExactHost host := by
  constructor
  · intro h
    refine ⟨fun _ => ?_,?_⟩
    · cases h with
      | dotted host a b c d h =>
        exact ⟨fun hl => Ipv4Literal.loose_not_dotted host hl ⟨a,b,c,d,h⟩,
          dotted_narrow host a b c d h⟩
      | ipv6 s a h => exact absurd rfl hhead
      | name host hne h =>
        have hloose : ¬ Ipv4Literal.Loose host := by
          intro hl
          obtain ⟨ip,hip⟩ := (Ipv4Literal.accepted_iff 0 host).mpr (.inl hl)
          rw [namedHost_ip 0 host ip hip, destination_ip] at h
          exact hne (List.map_eq_nil_iff.mp h.symm)
        refine ⟨hloose,?_⟩
        rcases named_taken host hloose with ⟨a,b,c,d,hd,-⟩ | ⟨-,hr⟩
        · exact dotted_narrow host a b c d hd
        · rw [hr] at h
          exact (narrow_codes host).mp h
    · rintro inner rfl
      exact absurd rfl hhead
  · rintro ⟨hnamed,-⟩
    obtain ⟨hloose,hnarrow⟩ := hnamed hhead
    rcases named_taken host hloose with ⟨a,b,c,d,hd,hr⟩ | ⟨-,hr⟩
    · rw [hr]
      exact .dotted host a b c d hd rfl (congrArg Address.v4 (htonl_ofLe32 a b c d))
    · rw [hr]
      exact .name host hne ((narrow_codes host).mpr hnarrow)

theorem bracketed_kept (fuel : ℕ) (inner : Wide) (ip : IpAddress) (old : Destination)
    (port : UInt16) (hip : fromStringIpv6 fuel inner = some (some ip)) :
    KeptHost (destinationFromHost old (.ipAddr ip) port).1 (tchar '['::(inner ++ [tchar ']'])) ↔
      ExactHost (tchar '['::(inner ++ [tchar ']'])) := by
  rw [destination_ip]
  constructor
  · intro h
    refine ⟨fun hhead => absurd rfl hhead,fun inner' heq => ?_⟩
    obtain rfl : inner = inner' := by simpa using heq
    generalize hhost : tchar '['::(inner ++ [tchar ']']) = host at h
    cases h with
    | dotted host a b c d h =>
      refine absurd ?_ (dotted_clean host a b c d h '[' (by decide) (by decide))
      simp [← hhost]
    | ipv6 s a h => exact ⟨s,a,by simpa using hhost,h⟩
    | name host hne h => exact absurd (List.map_eq_nil_iff.mp h.symm) hne
  · rintro ⟨-,hform⟩
    obtain ⟨s,a,rfl,hs⟩ := hform inner rfl
    obtain rfl := ipv6_taken fuel s a ip hs hip
    exact .ipv6 s a hs rfl rfl

theorem port_kept (t : Wide) (port : UInt16) (h : strToUint t = some port.toNat) :
    PortText t port ↔ ¬ NotDigits t := by
  have hlt := port.toNat_lt
  constructor
  · rintro hp (h0 | ⟨c,hc,hno⟩)
    · exact hp.nonempty h0
    · exact hno (hp.digit c hc)
  · exact fun hd => digits_decimal t _ hd h (by omega)

/-- Nothing of an argument is lost exactly if it is exact. -/
theorem kept_iff (fuel : ℕ) (a : Argument) (x : Destination × Option Credentials)
    (h : Taken addressOf fuel a x) : Kept a.text x.1 x.2 ↔ Exact a.text := by
  obtain ⟨up,port,old,hup,hpath,hport,hdst,hcreds,hnone⟩ := h
  rw [storedHost_block] at hdst
  obtain ⟨huser,hpwd⟩ := user_read fuel a.text up hup
  obtain ⟨ht,hhost⟩ := written_read fuel a.text up port hup hpath hport
  have hh : KeptHost x.1 (hostWritten a.text) ↔ ExactHost (hostWritten a.text) := by
    rw [hdst]
    rcases hhost with ⟨hne,hhead,hr⟩ | ⟨inner,ip,hw,hip,hr⟩
    · rw [hr]
      exact named_kept _ old port hne hhead
    · rw [hr, hw]
      exact bracketed_kept fuel inner ip old port hip
  have hp : PortText (portWritten a.text) x.1.port ↔ ¬ NotDigits (portWritten a.text) := by
    rw [hdst, destination_port]
    exact port_kept _ port ht
  have hc : (∀ c ∈ x.2, KeptCreds c (userWritten a.text)) ↔
      ∀ u ∈ userWritten a.text, u ≠ [] → tchar ':' ∈ u ∧ Narrow u := by
    rw [← creds_kept, ← huser, ← hpwd]
    cases hx : x.2 with
    | none =>
      have hu := hnone hx
      rw [huser, Option.map_eq_none_iff] at hu
      simp [hu, hnone hx, KeptCreds, credentialsFrom]
    | some c => simp [hcreds c hx]
  constructor
  · rintro ⟨h1,h2,h3⟩
    exact ⟨hc.mp h3,hh.mp h1,hp.mp h2⟩
  · rintro ⟨h1,h2,h3⟩
    exact ⟨hh.mpr h2,hp.mpr h3,hc.mpr h1⟩

theorem forall₂_iff {α β : Type} (R P : α → β → Prop) (Q : α → Prop) (l : List α) (m : List β)
    (h : List.Forall₂ R l m) (hPQ : ∀ a b, R a b → (P a b ↔ Q a)) :
    List.Forall₂ P l m ↔ ∀ a ∈ l, Q a := by
  induction h with
  | nil => simp
  | cons hab _ ih => simp [hPQ _ _ hab, ih]

/-- Without brackets there is no IPv6 address. -/
theorem taken_unbracketed (stale : Buffer 16 → Buffer 16) (fuel : ℕ) (a : Argument)
    (x : Destination × Option Credentials) (h : Taken (listenAddress stale) fuel a x)
    (hb : (hostWritten a.text).head? ≠ some (tchar '[')) : Taken addressOf fuel a x := by
  obtain ⟨up,port,old,hup,hpath,hport,hdst,hcreds,hnone⟩ := h
  refine ⟨up,port,old,hup,hpath,hport,?_,hcreds,hnone⟩
  rcases (written_read fuel a.text up port hup hpath hport).2 with ⟨-,-,hr⟩ | ⟨inner,ip,hw,-,-⟩
  · rw [hdst, hr, namedHost]
    cases inetPton4 (hostText (hostWritten a.text)) <;> rfl
  · rw [hw] at hb
    exact absurd rfl hb

/-- The octets between brackets are those that are written only if they are still
there when they are read. -/
theorem bracketed_altered (stale : Buffer 16 → Buffer 16) (hstale : ∀ bytes, stale bytes ≠ bytes)
    (fuel : ℕ) (a : Argument) (x : Destination × Option Credentials)
    (h : Taken (listenAddress stale) fuel a x)
    (hb : (hostWritten a.text).head? = some (tchar '[')) : ¬ Kept a.text x.1 x.2 := by
  intro hk
  obtain ⟨up,port,old,hup,hpath,hport,hdst,-,-⟩ := h
  rcases (written_read fuel a.text up port hup hpath hport).2 with ⟨-,hno,-⟩ | ⟨inner,ip,hw,hip,hr⟩
  · exact hno hb
  · have hhost := hk.host
    rw [hdst, hr, storedHost] at hhost
    generalize hostWritten a.text = host at hw hhost
    cases hhost with
    | dotted host a b c d h =>
      refine absurd ?_ (dotted_clean host a b c d h '[' (by decide) (by decide))
      simp [hw]
    | ipv6 s b hs hname haddr =>
      obtain rfl : strToTstr s = inner := by simpa using hw
      rw [ipv6_taken fuel s b ip hs hip] at haddr
      exact hstale b (Address.v6.inj haddr)
    | name host hne h => exact hne (List.map_eq_nil_iff.mp h.symm)

/-- An accepted command line is stored as it is written exactly if each of its
arguments is exact, and no tunnel is listened for at an address in brackets. -/
theorem cmdline_faithfulness (fuel : ℕ) (fv : List Argument) (cfg : ProxyswissConfig)
    (errMsg : Wide) (h : Accepted fuel fv cfg errMsg) :
    Preserved fuel fv cfg errMsg ↔ (∀ a ∈ fv.tail, Exact a.text) ∧ ¬ TunnelInBrackets fv := by
  obtain ⟨stale,cfg',errMsg',h⟩ := h
  constructor
  · intro hp
    refine ⟨?_,fun hb => ?_⟩
    · obtain ⟨cfg'',hid⟩ := accepted_again stale id fuel fv cfg cfg' errMsg errMsg' h
      obtain ⟨-,hkept⟩ := hp id cfg'' errMsg' hid
      obtain ⟨t,a,rest,rfl,-,x,xs,hx,ha,hrest⟩ :=
        line_stored id fuel fv cfg cfg'' errMsg errMsg' hid
      have hsame : firstAddress id t = addressOf := by
        unfold firstAddress
        split_ifs
        · exact funext fun ip => by cases ip <;> rfl
        · rfl
      rw [hx] at hkept
      exact (forall₂_iff _ _ _ _ _ (.cons (hsame ▸ ha) hrest) (kept_iff fuel)).mp hkept
    · obtain ⟨cfg'',hgone⟩ := accepted_again stale overwritten fuel fv cfg cfg' errMsg errMsg' h
      obtain ⟨-,hkept⟩ := hp overwritten cfg'' errMsg' hgone
      obtain ⟨t,a,rest,rfl,-,x,xs,hx,ha,-⟩ :=
        line_stored overwritten fuel fv cfg cfg'' errMsg errMsg' hgone
      rw [hx] at hkept
      rw [firstAddress, if_pos hb.1] at ha
      exact bracketed_altered overwritten overwritten_ne fuel a x ha hb.2
        (List.forall₂_cons.mp hkept).1
  · rintro ⟨hexact,hb⟩ stale' cfg'' errMsg'' h'
    obtain ⟨t,a,rest,rfl,hchain,x,xs,hx,ha,hrest⟩ :=
      line_stored stale' fuel fv cfg cfg'' errMsg errMsg'' h'
    have hfirst : Taken addressOf fuel a x := by
      unfold firstAddress at ha
      split_ifs at ha with ht
      · exact taken_unbracketed stale' fuel a x ha fun h0 => hb ⟨ht,h0⟩
      · exact ha
    refine ⟨hchain,?_⟩
    rw [hx]
    exact (forall₂_iff _ _ _ _ _ (.cons hfirst hrest) (kept_iff fuel)).mpr hexact

/-- A host that is not in brackets is exact if its name is not loose. -/
theorem unbracketed_exact (text : Wide) (hu : userWritten text = none)
    (hhead : (hostWritten text).head? ≠ some (tchar '['))
    (hl : ¬ Ipv4Literal.Loose (hostWritten text)) (hn : Narrow (hostWritten text))
    (hp : ¬ NotDigits (portWritten text)) : Exact text := by
  refine ⟨by simp [hu],⟨fun _ => ⟨hl,hn⟩,fun inner hin => ?_⟩,hp⟩
  rw [hin] at hhead
  exact absurd rfl hhead

theorem cmdline_faithfulness_tunnel : Preserved 0 (plainArguments.take 3) emptyConfig [] := by
  refine (cmdline_faithfulness 0 (plainArguments.take 3) emptyConfig []
    ⟨id,_,[],rfl⟩).mpr ⟨?_,fun hb => absurd hb.2 (by decide)⟩
  intro a ha
  rcases List.mem_cons.mp ha with rfl | ha
  · exact unbracketed_exact _ rfl (by decide)
      (fun hl => Ipv4Literal.loose_not_dotted _ hl ⟨_,_,_,_,plainIp_dotted⟩) (by decide) (by decide)
  · obtain rfl := List.mem_singleton.mp ha
    have hname : fromStringIpv4 0 (tstr "h" : Wide) = some none := rfl
    refine unbracketed_exact _ rfl (by decide) (fun hl => ?_) (by decide) (by decide)
    obtain ⟨ip,hip⟩ := (Ipv4Literal.accepted_iff 0 _).mpr (.inl hl)
    exact absurd (hname.symm.trans hip) (by simp)

/-- A user name without a password. -/
def nameOnly : List Argument :=
  plainArguments.take 3 ++ [⟨tstr "socks5://user@h:1",by decide⟩]

def nameOnlyConfig : ProxyswissConfig where
  input := ⟨.tunnel,⟨.v4 (ofLe32 4 3 2 1),5500⟩,⟨ascii "h",default,80⟩,.socks5⟩
  proxyChain := [⟨.socks5,⟨ascii "h",default,1⟩,{}⟩]

/-- The line is accepted, and the name is dropped. -/
theorem name_dropped : configFromCmdline id 0 nameOnly emptyConfig [] =
    some ⟨0,nameOnlyConfig,[]⟩ ∧ ¬ Preserved 0 nameOnly emptyConfig [] := by
  refine ⟨rfl,fun hp => ?_⟩
  obtain ⟨-,h⟩ := hp id nameOnlyConfig [] rfl
  change List.Forall₂ _ [_,_,_] [_,_,_] at h
  simp only [List.forall₂_cons] at h
  have hcreds := h.2.2.1.creds {} rfl
  exact absurd hcreds.1 (by decide)

end ProxySwiss.CmdlineFaithfulness
