import ProxySwiss.ConfigFromCmdline
import ProxySwiss.UrlRoundTrip

/-!
# The parts of an argument

What the two readers of an argument ask of the parser, and what becomes of the
host, the port and the credentials that it has found.
-/

set_option autoImplicit false

namespace ProxySwiss.CmdlineParts
open Memory Text InetPton UrlParser HostText PortGrammar ConfigFromCmdline

/-- The number of an IPv4 address gets its first octet to the top. -/
def addressOf : IpAddress → Address
  | .v4 addr => .v4 (htonl addr)
  | .v6 bytes => .v6 bytes

/-- The address that is listened on with a tunnel. -/
def listenAddress (stale : Buffer 16 → Buffer 16) : IpAddress → Address
  | .v4 addr => .v4 (htonl addr)
  | .v6 bytes => .v6 (stale bytes)

/-- Other octets than those that were there. -/
def overwritten (bytes : Buffer 16) : Buffer 16 :=
  ⟨bytes.bytes.map (·+1),(List.length_map _).trans bytes.size⟩

theorem overwritten_ne (bytes : Buffer 16) : overwritten bytes ≠ bytes := by
  intro h
  have hbytes : bytes.bytes.map (·+1) = bytes.bytes := congrArg Buffer.bytes h
  have hsize := bytes.size
  cases hc : bytes.bytes with
  | nil => simp [hc] at hsize
  | cons c cs =>
    rw [hc] at hbytes
    exact absurd (List.cons.inj hbytes).1 (by simp)

section Kinds

variable (stale : Buffer 16 → Buffer 16) (fuel : ℕ)

theorem tunnel_from (t a b : Argument) (fv : List Argument) (cfg : ProxyswissConfig)
    (errMsg : Wide) (ht : t.text = tstr "tunnel") :
    configFromCmdline stale fuel (t::a::b::fv) cfg errMsg =
      tunnelFrom stale fuel a b fv cfg errMsg :=
  if_pos ht

theorem proxy_from (t a : Argument) (fv : List Argument) (cfg : ProxyswissConfig)
    (errMsg : Wide) (ht : t.text = tstr "proxy") :
    configFromCmdline stale fuel (t::a::fv) cfg errMsg = proxyFrom fuel a fv cfg errMsg := by
  have hno : t.text ≠ tstr "tunnel" := by
    rw [ht]
    decide
  exact (if_neg hno).trans (if_pos ht)

theorem endpoint_ok (str : Wide) (ep : Endpoint) :
    endpointFromString stale fuel str = some (.ok ep) ↔ ∃ up port ip,
      parse fuel str = some (some up) ∧ up.scheme = none ∧ up.path = [] ∧ up.username = none ∧
        up.password = none ∧ up.port = some port ∧ up.host = .ipAddr ip ∧
          ep = ⟨listenAddress stale ip,port⟩ := by
  constructor
  · intro h
    obtain ⟨r,hr,h⟩ := Option.map_eq_some_iff.mp h
    cases r with
    | none => exact absurd h (by simp)
    | some up =>
      simp only at h
      split_ifs at h with hs hq hu
      simp only [ne_eq, not_not, not_or] at hs hq hu
      cases hp : up.port with
      | none => simp [hp] at h
      | some port =>
        cases hhost : up.host with
        | hostname name => simp [hp, hhost] at h
        | ipAddr ip =>
          refine ⟨up,port,ip,hr,hs,hq,hu.1,hu.2,hp,hhost,?_⟩
          cases ip with
          | v4 addr => simpa [hp, hhost, eq_comm, listenAddress] using h
          | v6 bytes => simpa [hp, hhost, eq_comm, listenAddress] using h
  · rintro ⟨up,port,ip,hr,hs,hq,hu,hpwd,hp,hhost,rfl⟩
    refine Option.map_eq_some_iff.mpr ⟨some up,hr,?_⟩
    cases ip <;> simp [hs, hq, hu, hpwd, hp, hhost, listenAddress]

end Kinds

theorem info_ok (fuel : ℕ) (str : Wide) (dst : Destination) (pproxyType : Option Wide)
    (pcreds : Option Credentials) (info : ProxyInfo) :
    proxyInfoFromString fuel str dst pproxyType pcreds = some (.ok info) ↔
      ∃ up port, parse fuel str = some (some up) ∧ up.path = [] ∧
        (up.scheme = none ↔ pproxyType = none) ∧
        (pcreds = none → up.username = none ∧ up.password = none) ∧ up.port = some port ∧
        info = ⟨(destinationFromHost dst up.host port).1,up.scheme,
          pcreds.map fun _ => credentialsFrom up.username up.password,
          (destinationFromHost dst up.host port).2⟩ := by
  constructor
  · intro h
    obtain ⟨r,hr,h⟩ := Option.map_eq_some_iff.mp h
    cases r with
    | none => exact absurd h (by simp)
    | some up =>
      simp only at h
      split_ifs at h with hq hmissing hextra hu
      simp only [ne_eq, not_not, not_and, not_or] at hq hmissing hextra hu
      cases hp : up.port with
      | none => simp [hp] at h
      | some port =>
        simp only [hp, Except.ok.injEq] at h
        have hs : up.scheme = none ↔ pproxyType = none := by
          constructor
          · intro h0
            by_contra hne
            exact hmissing hne h0
          · exact hextra
        refine ⟨up,port,hr,hq,hs,hu,hp,?_⟩
        rw [← h]
        cases pproxyType with
        | none => simp [hs.mpr rfl]
        | some _ => rfl
  · rintro ⟨up,port,hr,hq,hs,hu,hp,rfl⟩
    refine Option.map_eq_some_iff.mpr ⟨some up,hr,?_⟩
    have hmissing : ¬ (pproxyType ≠ none ∧ up.scheme = none) := fun h => h.1 (hs.mp h.2)
    have hextra : ¬ (pproxyType = none ∧ up.scheme ≠ none) := fun h => h.2 (hs.mpr h.1)
    have hcreds : ¬ (pcreds = none ∧ (up.username ≠ none ∨ up.password ≠ none)) := by
      rintro ⟨h0,h | h⟩
      · exact h (hu h0).1
      · exact h (hu h0).2
    simp only [if_neg (not_not.mpr hq), if_neg hmissing, if_neg hextra, if_neg hcreds, hp]
    cases pproxyType with
    | none => simp [hs.mpr rfl]
    | some _ => rfl

/-- A name that was parsed is not empty. -/
theorem parsed_name {T : Type} [CharT T] (fuel : ℕ) (str : List T) (up : UrlParser T)
    (name : Bytes) (h : parse fuel str = some (some up)) (hname : up.host = .hostname name) :
    name ≠ [] := by
  obtain ⟨scheme,s,host,t,port,r,-,hh,-,rfl⟩ := (parse_some fuel str up).mp h
  simp only at hname
  subst hname
  obtain ⟨-,-,-,hraw,rfl⟩ := (hostname_some fuel _ t name).mp hh
  simpa using hraw

/-- No assertion fails on an argument that is taken. -/
theorem info_asserted (fuel : ℕ) (str : Wide) (dst : Destination) (pproxyType : Option Wide)
    (pcreds : Option Credentials) (info : ProxyInfo)
    (h : proxyInfoFromString fuel str dst pproxyType pcreds = some (.ok info)) :
    info.asserted = true := by
  obtain ⟨up,port,hup,-,-,-,-,rfl⟩ := (info_ok _ _ _ _ _ _).mp h
  cases hhost : up.host with
  | ipAddr ip => cases ip <;> rfl
  | hostname name =>
    have hne := parsed_name fuel str up name hup hhost
    simpa [destinationFromHost, Destination.usingHostname] using hne

theorem destination_port (dst : Destination) (host : HostAddress) (port : UInt16) :
    (destinationFromHost dst host port).1.port = port := by
  cases host with
  | hostname name => rfl
  | ipAddr ip => cases ip <;> rfl

theorem destination_ip (dst : Destination) (ip : IpAddress) (port : UInt16) :
    (destinationFromHost dst (.ipAddr ip) port).1 = ⟨[],addressOf ip,port⟩ := by
  cases ip <;> rfl

/-- The destination is the host that was written; a name has the same code units. -/
def Names (dst : Destination) : Host UInt16 → Prop
  | .dotted _ a b c d _ => dst.hostname = [] ∧ dst.ipAddress = .v4 (ofLe32 d c b a)
  | .ipv6 _ a _ => dst.hostname = [] ∧ dst.ipAddress = .v6 a
  | .name text _ _ => dst.hostname.map CharT.code = text.map CharT.code

def Narrow (text : Wide) : Prop := ∀ c ∈ text, CharT.code c < 256

instance (text : Wide) : Decidable (Narrow text) :=
  List.decidableBAll (fun c => CharT.code c < 256) text

theorem narrow_codes (text : Wide) :
    (wstrToStr text).map CharT.code = text.map CharT.code ↔ Narrow text :=
  UrlRoundTrip.codes_narrow text

theorem names_written (h : Host UInt16) (dst : Destination) (port : UInt16)
    (hn : Narrow h.text) : Names (destinationFromHost dst h.address port).1 h := by
  cases h with
  | dotted text a b c d h => exact ⟨rfl,congrArg Address.v4 (htonl_ofLe32 a b c d)⟩
  | ipv6 text a h => exact ⟨rfl,rfl⟩
  | name text h other => exact (narrow_codes text).mpr hn

end ProxySwiss.CmdlineParts
