import ProxySwiss.ArgumentGrammar

/-!
# Whom an error message is about

The arguments of a command line are read one after the other, and what is
expected of each depends on its number and on the first of them only. A message
is about the first argument that is not what is expected: those before it would
be accepted by themselves, and those behind it are not looked at. Only some of
the messages quote the argument or give its number.
-/

set_option autoImplicit false

namespace ProxySwiss.CmdlineErrors
open Memory Text UrlParser AuthorityBoundary ConfigFromCmdline CmdlineParts CmdlineFaithfulness
open ArgumentGrammar

/-- Arguments are missing. -/
def Missing : List Argument → Prop
  | [] | [_] => True
  | t::_::rest => t.text = tstr "tunnel" ∧ rest = []

/-- A host and a port. A type stands in front of them or does not, and user
information only where there may be some. -/
structure Form (text : Wide) (typed named : Bool) : Prop where
  parts : HostPort text
  scheme : (schemeWritten text).isSome = typed
  user : named = false → userWritten text = none

def serverTypes : List Wide := [tstr "socks5",tstr "https"]
def clientTypes : List Wide := [tstr "socks5"]

/-- What an argument is read for. -/
inductive Kind where
  | inType
  | tunIn
  | tunOut
  | inProxy
  | chain

def kind (inType : Wide) : ℕ → Kind
  | 0 => .inType
  | 1 => if inType = tstr "tunnel" then .tunIn else .inProxy
  | 2 => if inType = tstr "tunnel" then .tunOut else .chain
  | _+3 => .chain

def Expected (text : Wide) : Kind → Prop
  | .inType => text = tstr "tunnel" ∨ text = tstr "proxy"
  | .tunIn => Form text false false ∧ AddressText (hostWritten text)
  | .tunOut => Form text false false
  | .inProxy => Form text true false ∧ (∃ type ∈ serverTypes, schemeWritten text = some type) ∧
      AddressText (hostWritten text)
  | .chain => Form text true true ∧ ∃ type ∈ clientTypes, schemeWritten text = some type

/-- The arguments from the one with the number `k` on. -/
def AllExpected (inType : Wide) : ℕ → List Argument → Prop
  | _, [] => True
  | k, a::fv => Expected a.text (kind inType k) ∧ AllExpected inType (k+1) fv

/-- The messages about the argument with the number `k`, and when each of them is
given. -/
inductive Says (text : Wide) (k : ℕ) : Kind → Wide → Prop
  | inType (h : ¬ Expected text .inType) : Says text k .inType (tstr "Unknown inType")
  | tunIn (why : Wide) (h : ¬ Expected text .tunIn) :
      Says text k .tunIn (strPrintf [tstr "Can't parse tunIn(",text,tstr "): ",why])
  | tunOut (why : Wide) (h : ¬ Expected text .tunOut) :
      Says text k .tunOut (strPrintf [tstr "Can't parse tunOut(",text,tstr "): ",why])
  | inProxy (why : Wide) (h : ¬ Form text true false) :
      Says text k .inProxy (strPrintf [tstr "Can't parse inProxy(",text,tstr "): ",why])
  | inProxyType (h : Form text true false) (type : Wide) (hs : schemeWritten text = some type)
      (hno : type ∉ serverTypes) : Says text k .inProxy (tstr "Bad proxy type in inProxy")
  | inProxyHost (h : Form text true false) (type : Wide) (hs : schemeWritten text = some type)
      (hin : type ∈ serverTypes) (hno : ¬ AddressText (hostWritten text)) :
      Says text k .inProxy (tstr "Only IP addresses are allowed in inProxy")
  | chain (why : Wide) (h : ¬ Form text true true) :
      Says text k .chain (strPrintf [tstr "Can't parse proxy-chain[",strToTstr (strFromUint k),
        tstr "] (",text,tstr "): ",why])
  | chainType (h : Form text true true) (type : Wide) (hs : schemeWritten text = some type)
      (hno : type ∉ clientTypes) : Says text k .chain (strPrintf [tstr "Bad proxy type (",type,
        tstr ") in proxy-chain[",strToTstr (strFromUint k),tstr "]"])

/-- An argument that a message is about is not what is expected. -/
theorem Says.bad {text msg : Wide} {k : ℕ} {x : Kind} (h : Says text k x msg) :
    ¬ Expected text x := by
  cases h with
  | inType h => exact h
  | tunIn why h => exact h
  | tunOut why h => exact h
  | inProxy why h => exact fun he => h he.1
  | inProxyType h type hs hno =>
    rintro ⟨-,⟨type',hin,hs'⟩,-⟩
    rw [hs] at hs'
    exact hno (Option.some.inj hs' ▸ hin)
  | inProxyHost h type hs hin hno => exact fun he => hno he.2.2
  | chain why h => exact fun he => h he.1
  | chainType h type hs hno =>
    rintro ⟨-,type',hin,hs'⟩
    rw [hs] at hs'
    exact hno (Option.some.inj hs' ▸ hin)

/-- A call is refused because of `a`: what follows it does not matter, and the
configuration is left as the arguments before it have made it. -/
structure Refused (inType : Wide) (call : List Argument → Option Result)
    (enough : List Argument → Prop) (errMsg : Wide) (k : ℕ) (before : List Argument)
    (a : Argument) (r : Result) : Prop where
  ahead : AllExpected inType k before
  bad : ¬ Expected a.text (kind inType (k+before.length))
  code : r.code = -1
  said : Says a.text (k+before.length) (kind inType (k+before.length)) r.errMsg
  behind : ∀ more, enough (before ++ a::more) → call (before ++ a::more) = some r
  stored : enough before → call before = some ⟨0,r.cfg,errMsg⟩

/-- What a call makes of the arguments from the one with the number `k` on. -/
inductive Outcome (inType : Wide) (call : List Argument → Option Result)
    (enough : List Argument → Prop) (errMsg : Wide) (k : ℕ) (fv : List Argument) (r : Result) :
    Prop
  | taken (hc : r.code = 0) (he : r.errMsg = errMsg) (h : AllExpected inType k fv)
  | refused (before after : List Argument) (a : Argument) (hfv : fv = before ++ a::after)
      (h : Refused inType call enough errMsg k before a r)

section Outcomes

variable {inType errMsg : Wide} {call call' : List Argument → Option Result}
  {enough : List Argument → Prop} {k : ℕ} {fv : List Argument} {r : Result}

/-- One more argument in front of the others. -/
theorem Outcome.cons (a : Argument) (ha : Expected a.text (kind inType k))
    (h : Outcome inType (fun fv => call (a::fv)) (fun fv => enough (a::fv)) errMsg (k+1)
      fv r) : Outcome inType call enough errMsg k (a::fv) r := by
  cases h with
  | taken hc he hall => exact .taken hc he ⟨ha,hall⟩
  | refused before after b hfv h =>
    have hk : k+(a::before).length = k+1+before.length := by rw [List.length_cons]; omega
    refine .refused (a::before) after b (congrArg _ hfv) ⟨⟨ha,h.ahead⟩,?_,h.code,?_,h.behind,
      h.stored⟩
    · rw [hk]
      exact h.bad
    · rw [hk]
      exact h.said

/-- The first argument is to blame. -/
theorem Outcome.first (a : Argument) (x : Kind) (hx : kind inType k = x) (hc : r.code = -1)
    (hs : Says a.text k x r.errMsg) (hcall : ∀ more, enough (a::more) → call (a::more) = some r)
    (hstored : enough [] → call [] = some ⟨0,r.cfg,errMsg⟩) :
    Outcome inType call enough errMsg k (a::fv) r := by
  subst hx
  exact .refused [] fv a rfl ⟨trivial,hs.bad,hc,hs,hcall,hstored⟩

/-- Where there are always enough arguments. -/
theorem Outcome.of_eq (h : Outcome inType call' (fun _ => True) errMsg k fv r)
    (hcall : ∀ fv, call fv = call' fv) : Outcome inType call enough errMsg k fv r := by
  cases h with
  | taken hc he hall => exact .taken hc he hall
  | refused before after a hfv h =>
    refine .refused before after a hfv ⟨h.ahead,h.bad,h.code,h.said,?_,?_⟩
    · exact fun more _ => (hcall _).trans (h.behind more trivial)
    · exact fun _ => (hcall _).trans (h.stored trivial)

end Outcomes

/-! What the readers of an argument make of its text. -/

theorem info_form (fuel : ℕ) (text : Wide) (dst : Destination) (type : Option Wide)
    (creds : Option Credentials) (info : ProxyInfo)
    (h : proxyInfoFromString fuel text dst type creds = some (.ok info)) :
    Form text type.isSome creds.isSome ∧ info.proxyType = schemeWritten text ∧
      (info.dst.usingHostname = false ↔ AddressText (hostWritten text)) := by
  obtain ⟨up,port,hup,hpath,hscheme,huser,hport,rfl⟩ := (info_ok _ _ _ _ _ _).mp h
  obtain ⟨hparts,hfound⟩ := found_spelled fuel text up port hup hpath hport
  refine ⟨⟨hparts,?_,fun h0 => ?_⟩,hfound.scheme,?_⟩
  · rw [← hfound.scheme, Bool.eq_iff_iff, Option.isSome_iff_ne_none, Option.isSome_iff_ne_none]
    exact hscheme.not
  · have hcreds : creds = none := by simpa using h0
    exact hfound.username.mp (huser hcreds).1
  · rw [← hfound.address]
    cases hhost : up.host with
    | ipAddr ip =>
      rw [destination_ip]
      exact iff_of_true rfl ⟨ip,rfl⟩
    | hostname name =>
      have hne := parsed_name fuel text up name hup hhost
      exact iff_of_false (by simpa [destinationFromHost, Destination.usingHostname] using hne)
        (by simp)

theorem info_refused (fuel : ℕ) (text why : Wide) (dst : Destination) (type : Option Wide)
    (creds : Option Credentials)
    (h : proxyInfoFromString fuel text dst type creds = some (.error why)) :
    ¬ Form text type.isSome creds.isSome := by
  rintro ⟨hparts,hscheme,huser⟩
  obtain ⟨r,hr,-⟩ := Option.map_eq_some_iff.mp h
  obtain ⟨up,port,hup,hfound⟩ := spelled_found fuel text hparts (by rw [hr]; rfl)
  have hok := (info_ok fuel text dst type creds _).mpr ⟨up,port,hup,hfound.path,?_,?_,
    hfound.port,rfl⟩
  · exact absurd (h.symm.trans hok) (by simp)
  · rw [hfound.scheme, ← Option.isNone_iff_eq_none, ← Option.isNone_iff_eq_none,
      ← Option.not_isSome, ← Option.not_isSome, hscheme]
  · rintro rfl
    have hu := hfound.username.mpr (huser rfl)
    exact ⟨hu,hfound.password hu⟩

theorem endpoint_form (stale : Buffer 16 → Buffer 16) (fuel : ℕ) (text : Wide) (ep : Endpoint)
    (h : endpointFromString stale fuel text = some (.ok ep)) : Expected text .tunIn := by
  obtain ⟨up,port,ip,hup,hscheme,hpath,huser,-,hport,hhost,-⟩ := (endpoint_ok _ _ _ _).mp h
  obtain ⟨hparts,hfound⟩ := found_spelled fuel text up port hup hpath hport
  refine ⟨⟨hparts,?_,fun _ => hfound.username.mp huser⟩,hfound.address.mp ⟨ip,hhost⟩⟩
  rw [← hfound.scheme, hscheme]
  rfl

theorem endpoint_refused (stale : Buffer 16 → Buffer 16) (fuel : ℕ) (text why : Wide)
    (h : endpointFromString stale fuel text = some (.error why)) : ¬ Expected text .tunIn := by
  rintro ⟨⟨hparts,hscheme,huser⟩,haddr⟩
  obtain ⟨r,hr,-⟩ := Option.map_eq_some_iff.mp h
  obtain ⟨up,port,hup,hfound⟩ := spelled_found fuel text hparts (by rw [hr]; rfl)
  obtain ⟨ip,hip⟩ := hfound.address.mpr haddr
  have hu := hfound.username.mpr (huser rfl)
  have hok := (endpoint_ok stale fuel text _).mpr ⟨up,port,ip,hup,?_,hfound.path,hu,
    hfound.password hu,hfound.port,hip,rfl⟩
  · exact absurd (h.symm.trans hok) (by simp)
  · rw [hfound.scheme]
    exact Option.not_isSome_iff_eq_none.mp (by rw [hscheme]; exact Bool.false_ne_true)

theorem server_types (type : Wide) :
    (∃ x, serverSessionTypeFromString type = some x) ↔ type ∈ serverTypes := by
  unfold serverSessionTypeFromString serverTypes
  split_ifs with h1 h2
  · exact iff_of_true ⟨_,rfl⟩ (by simp [h1])
  · exact iff_of_true ⟨_,rfl⟩ (by simp [h2])
  · simp [h1, h2]

theorem client_types (type : Wide) :
    (∃ x, clientSessionTypeFromString type = some x) ↔ type ∈ clientTypes := by
  unfold clientSessionTypeFromString clientTypes
  split_ifs with h
  · exact iff_of_true ⟨_,rfl⟩ (by simp [h])
  · simp [h]

/-- The type that a proxy is read with is the one that is written. -/
theorem assigned_type (fuel : ℕ) (text type : Wide) (dst : Destination)
    (creds : Option Credentials) (l : Locals) (info : ProxyInfo)
    (h : proxyInfoFromString fuel text dst (some type) creds = some (.ok info)) :
    schemeWritten text = some (l.assign info).proxyTypeStr := by
  obtain ⟨hform,htype,-⟩ := info_form fuel text dst _ creds info h
  obtain ⟨s,hs⟩ := Option.isSome_iff_exists.mp hform.scheme
  rw [hs] at htype
  rw [hs, Locals.assign, htype]
  rfl

/-! The chain. -/

/-- Each entry is read by itself, so that the first bad one ends the loop. -/
theorem chain_outcome (fuel : ℕ) (inType : Wide) (k : ℕ) (fv : List Argument) (l : Locals)
    (cfg : ProxyswissConfig) (errMsg : Wide) (r : Result)
    (hk : ∀ j ≥ k, kind inType j = .chain)
    (h : proxyChainFrom fuel k fv l cfg errMsg = some r) :
    Outcome inType (fun fv => proxyChainFrom fuel k fv l cfg errMsg) (fun _ => True) errMsg
      k fv r := by
  induction fv generalizing k l cfg with
  | nil =>
    obtain rfl := Option.some.inj h
    exact .taken rfl rfl trivial
  | cons a fv ih =>
    obtain ⟨x,hx,h⟩ := Option.bind_eq_some_iff.mp h
    cases x with
    | error why =>
      obtain rfl := Option.some.inj h
      refine .first a .chain (hk k le_rfl) rfl (.chain why (info_refused fuel _ _ _ _ _ hx))
        (fun more _ => ?_) fun _ => rfl
      simp only [proxyChainFrom, hx, Option.bind_some]
    | ok info =>
      have hform := (info_form fuel _ _ _ _ info hx).1
      have htype := assigned_type fuel _ _ _ _ l info hx
      cases ht : clientSessionTypeFromString (l.assign info).proxyTypeStr with
      | none =>
        simp only [ht] at h
        obtain rfl := Option.some.inj h
        have hno : (l.assign info).proxyTypeStr ∉ clientTypes := by
          rw [← client_types, ht]
          simp
        refine .first a .chain (hk k le_rfl) rfl (.chainType hform _ htype hno)
          (fun more _ => ?_) fun _ => rfl
        simp only [proxyChainFrom, hx, Option.bind_some, ht]
      | some type =>
        simp only [ht] at h
        have hstep := ih (k+1) _ _ (fun j hj => hk j (by omega)) h
        have hin := (client_types _).mp ⟨type,ht⟩
        refine .cons a ?_ (hstep.of_eq fun fv => ?_)
        · rw [hk k le_rfl]
          exact ⟨hform,_,hin,htype⟩
        · simp only [proxyChainFrom, hx, Option.bind_some, ht]

/-! The arguments before the chain. -/

section Line

variable (stale : Buffer 16 → Buffer 16) (fuel : ℕ) (cfg : ProxyswissConfig) (errMsg : Wide)
  (r : Result)

def Enough (fv : List Argument) : Prop := ¬ Missing fv

theorem tunnel_outcome (t a b : Argument) (fv : List Argument) (ht : t.text = tstr "tunnel")
    (h : configFromCmdline stale fuel (t::a::b::fv) cfg errMsg = some r) :
    Outcome t.text (fun fv => configFromCmdline stale fuel fv cfg errMsg) Enough errMsg 0
      (t::a::b::fv) r := by
  have hone : kind t.text 1 = .tunIn := if_pos ht
  have htwo : kind t.text 2 = .tunOut := if_pos ht
  refine .cons t (.inl ht) ?_
  rw [tunnel_from stale fuel t a b fv cfg errMsg ht] at h
  obtain ⟨x,hx,h⟩ := Option.bind_eq_some_iff.mp h
  cases x with
  | error why =>
    obtain rfl := Option.some.inj h
    refine .first a .tunIn hone rfl (.tunIn why (endpoint_refused stale fuel _ _ hx)) ?_
      fun hs => absurd trivial hs
    intro more hm
    cases more with
    | nil => exact absurd ⟨ht,rfl⟩ hm
    | cons c more =>
      rw [tunnel_from stale fuel t a c more cfg errMsg ht, tunnelFrom, hx]
      rfl
  | ok ep =>
    refine .cons a ?_ ?_
    · rw [hone]
      exact endpoint_form stale fuel _ ep hx
    obtain ⟨y,hbind,h⟩ := Option.bind_eq_some_iff.mp h
    have hy : proxyInfoFromString fuel b.text cfg.input.asTunnel none none = some y := hbind
    cases y with
    | error why =>
      obtain rfl := Option.some.inj h
      refine .first b .tunOut htwo rfl (.tunOut why (info_refused fuel _ _ _ _ _ hy)) ?_
        fun hs => absurd ⟨ht,rfl⟩ hs
      intro more _
      rw [tunnel_from stale fuel t a b more cfg errMsg ht]
      simp only [tunnelFrom, hx, Option.bind_some, hy]
    | ok info =>
      refine .cons b ?_ ?_
      · rw [htwo]
        exact (info_form fuel _ _ _ _ info hy).1
      refine (chain_outcome fuel t.text 3 fv {} _ errMsg r ?_ h).of_eq fun fv => ?_
      · intro j hj
        obtain ⟨i,rfl⟩ := Nat.exists_eq_add_of_le' hj
        rfl
      · rw [tunnel_from stale fuel t a b fv cfg errMsg ht]
        simp only [tunnelFrom, hx, Option.bind_some, hy]

theorem proxy_outcome (t a : Argument) (fv : List Argument) (ht : t.text = tstr "proxy")
    (h : configFromCmdline stale fuel (t::a::fv) cfg errMsg = some r) :
    Outcome t.text (fun fv => configFromCmdline stale fuel fv cfg errMsg) Enough errMsg 0
      (t::a::fv) r := by
  have hno : t.text ≠ tstr "tunnel" := by
    rw [ht]
    decide
  have hone : kind t.text 1 = .inProxy := if_neg hno
  refine .cons t (.inr ht) ?_
  rw [proxy_from stale fuel t a fv cfg errMsg ht] at h
  obtain ⟨x,hx,h⟩ := Option.bind_eq_some_iff.mp h
  cases x with
  | error why =>
    obtain rfl := Option.some.inj h
    refine .first a .inProxy hone rfl (.inProxy why (info_refused fuel _ _ _ _ _ hx)) ?_
      fun hs => absurd trivial hs
    intro more _
    rw [proxy_from stale fuel t a more cfg errMsg ht, proxyFrom, hx]
    rfl
  | ok info =>
    obtain ⟨hform,-,haddr⟩ := info_form fuel _ _ _ _ info hx
    have hwritten := assigned_type fuel _ _ _ _ {} info hx
    cases htype : serverSessionTypeFromString (({} : Locals).assign info).proxyTypeStr with
    | none =>
      simp only [htype] at h
      obtain rfl := Option.some.inj h
      have hbad : (({} : Locals).assign info).proxyTypeStr ∉ serverTypes := by
        rw [← server_types, htype]
        simp
      refine .first a .inProxy hone rfl (.inProxyType hform _ hwritten hbad) ?_
        fun hs => absurd trivial hs
      intro more _
      rw [proxy_from stale fuel t a more cfg errMsg ht, proxyFrom, hx]
      simp only [Option.bind_some, htype]
    | some type =>
      simp only [htype] at h
      have hin := (server_types _).mp ⟨type,htype⟩
      split_ifs at h with hname
      · obtain rfl := Option.some.inj h
        have hbad : ¬ AddressText (hostWritten a.text) := by
          rw [← haddr, Bool.not_eq_false]
          exact hname
        refine .first a .inProxy hone rfl (.inProxyHost hform _ hwritten hin hbad) ?_
          fun hs => absurd trivial hs
        intro more _
        rw [proxy_from stale fuel t a more cfg errMsg ht, proxyFrom, hx]
        simp only [Option.bind_some, htype, if_pos hname]
      · refine .cons a ?_ ?_
        · rw [hone]
          exact ⟨hform,⟨_,hin,hwritten⟩,haddr.mp (eq_false_of_ne_true hname)⟩
        refine (chain_outcome fuel t.text 2 fv _ _ errMsg r ?_ h).of_eq fun fv => ?_
        · intro j hj
          obtain ⟨i,rfl⟩ := Nat.exists_eq_add_of_le' hj
          cases i with
          | zero => exact if_neg hno
          | succ i => rfl
        · rw [proxy_from stale fuel t a fv cfg errMsg ht, proxyFrom, hx]
          simp only [Option.bind_some, htype, if_neg hname]

theorem unknown_outcome (t a : Argument) (fv : List Argument) (ht : t.text ≠ tstr "tunnel")
    (hp : t.text ≠ tstr "proxy")
    (h : configFromCmdline stale fuel (t::a::fv) cfg errMsg = some r) :
    Outcome t.text (fun fv => configFromCmdline stale fuel fv cfg errMsg) Enough errMsg 0
      (t::a::fv) r := by
  have hcall : ∀ a more, configFromCmdline stale fuel (t::a::more) cfg errMsg =
      some ⟨-1,cfg,tstr "Unknown inType"⟩ := fun a more => (if_neg ht).trans (if_neg hp)
  obtain rfl := Option.some.inj ((hcall a fv).symm.trans h)
  refine .first t .inType rfl rfl (.inType fun he => he.elim ht hp) ?_ fun hs => absurd trivial hs
  intro more hm
  cases more with
  | nil => exact absurd trivial hm
  | cons a more => exact hcall a more

/-- A command line is too short, or every argument is what is expected and it is
taken, or it is refused: then the message is about the first argument that is not,
those before it are taken by themselves as far as they are enough, with the
configuration that the refusal leaves, and whatever follows does not matter. -/
theorem cmdline_outcome (fv : List Argument)
    (h : configFromCmdline stale fuel fv cfg errMsg = some r) :
    Missing fv ∧ r = ⟨1,cfg,errMsg⟩ ∨ Enough fv ∧ ∃ t, fv.head? = some t ∧
      Outcome t.text (fun fv => configFromCmdline stale fuel fv cfg errMsg) Enough errMsg 0 fv
        r := by
  cases fv with
  | nil => exact .inl ⟨trivial,(Option.some.inj h).symm⟩
  | cons t fv =>
    cases fv with
    | nil => exact .inl ⟨trivial,(Option.some.inj h).symm⟩
    | cons a rest =>
      by_cases ht : t.text = tstr "tunnel"
      · cases rest with
        | nil => exact .inl ⟨⟨ht,rfl⟩,(Option.some.inj ((if_pos ht).symm.trans h)).symm⟩
        | cons b rest =>
          exact .inr ⟨fun hm => absurd hm.2 (List.cons_ne_nil _ _),t,rfl,
            tunnel_outcome stale fuel cfg errMsg r t a b rest ht h⟩
      · refine .inr ⟨fun hm => ht hm.1,t,rfl,?_⟩
        by_cases hp : t.text = tstr "proxy"
        · exact proxy_outcome stale fuel cfg errMsg r t a rest hp h
        · exact unknown_outcome stale fuel cfg errMsg r t a rest ht hp h

end Line

/-- The proxy of the chain has no type. -/
def untyped : List Argument :=
  [⟨tstr "proxy",by decide⟩,⟨tstr "https://1.2.3.4:80",by decide⟩,⟨tstr "h:1",by decide⟩]

theorem cmdline_outcome_untyped : ∃ before a after, untyped = before ++ a::after ∧
    ¬ Expected a.text (kind (tstr "proxy") before.length) := by
  have h := cmdline_outcome id 0 { input := { type := .tunnel, asProxyServer := .socks5 } } []
    ⟨-1,_,_⟩ untyped rfl
  rcases h with ⟨hm,-⟩ | ⟨-,t,ht,ho⟩
  · exact absurd hm.1 (by decide)
  · obtain rfl := Option.some.inj ht
    cases ho with
    | taken hc => exact absurd hc (by decide)
    | refused before after a hfv hr =>
      have hbad := hr.bad
      rw [Nat.zero_add] at hbad
      exact ⟨before,a,after,hfv,hbad⟩

end ProxySwiss.CmdlineErrors
