import ProxySwiss.CmdlineParts
import ProxySwiss.ServerSessionHttps

/-!
# The two conversions of a host

A parsed host becomes a destination in one of two places. They agree on all
that is stored; what sets them apart is an assertion of the shared function,
which asks for the family of the branch above it.
-/

set_option autoImplicit false

namespace ProxySwiss.HostConversions
open Memory Text InetPton UrlParser ConfigFromCmdline CmdlineParts
open ServerSessionHttps (destinationFromUrlParser)

/-- The address counts only where no hostname is used. -/
def Same (a b : Destination) : Prop :=
  a.hostname = b.hostname ∧ (a.usingHostname = false → a.ipAddress = b.ipAddress) ∧
    a.port = b.port

/-- Whatever the two destinations have held before. -/
structure Agree (host : HostAddress) (port : UInt16) : Prop where
  same : ∀ dst dst', Same (destinationFromUrlParser dst host port).1
    (destinationFromHost dst' host port).1
  shared : ∀ dst, (destinationFromUrlParser dst host port).2 = true
  block : ∀ dst, (destinationFromHost dst host port).2 = true

section Hosts

variable (T : Type) [CharT T]

/-- The hosts that the parser can produce. -/
def Parsed (host : HostAddress) : Prop :=
  ∃ fuel url up, parse fuel (url : List T) = some (some up) ∧ up.host = host

theorem parsed_hostname (name : Bytes) (h : Parsed T (.hostname name)) : name ≠ [] := by
  obtain ⟨fuel,url,up,hparse,hhost⟩ := h
  exact parsed_name fuel url up name hparse hhost

theorem same_destination (dst dst' : Destination) (host : HostAddress) (port : UInt16)
    (h : Parsed T host) : Same (destinationFromUrlParser dst host port).1
      (destinationFromHost dst' host port).1 := by
  cases host with
  | ipAddr ip => cases ip <;> exact ⟨rfl,fun _ => rfl,rfl⟩
  | hostname name =>
    have hne := parsed_hostname T name h
    refine ⟨rfl,fun hunused => absurd hunused ?_,rfl⟩
    simpa [destinationFromUrlParser, Destination.usingHostname] using hne

theorem block_asserted (dst : Destination) (host : HostAddress) (port : UInt16)
    (h : Parsed T host) : (destinationFromHost dst host port).2 = true := by
  cases host with
  | ipAddr ip => cases ip <;> rfl
  | hostname name =>
    have hne := parsed_hostname T name h
    simpa [destinationFromHost, Destination.usingHostname] using hne

theorem shared_asserted (dst : Destination) (host : HostAddress) (port : UInt16)
    (h : Parsed T host) : (destinationFromUrlParser dst host port).2 = true ↔
      ∀ bytes, host ≠ .ipAddr (.v6 bytes) := by
  cases host with
  | ipAddr ip => cases ip <;> simp [destinationFromUrlParser]
  | hostname name =>
    have hne := parsed_hostname T name h
    simpa [destinationFromUrlParser, Destination.usingHostname] using hne

/-- The two agree, with all their assertions, on names and IPv4 addresses only. -/
theorem conversions_agree (host : HostAddress) (port : UInt16) (h : Parsed T host) :
    Agree host port ↔ ∀ bytes, host ≠ .ipAddr (.v6 bytes) := by
  constructor
  · intro ha
    exact (shared_asserted T {} host port h).mp (ha.shared {})
  · intro hno
    exact ⟨fun dst dst' => same_destination T dst dst' host port h,
      fun dst => (shared_asserted T dst host port h).mpr hno,
      fun dst => block_asserted T dst host port h⟩

end Hosts

theorem parsed_short : Parsed UInt8 (.hostname (ascii "h")) :=
  ⟨0,ascii "h:1",⟨none,none,none,.hostname (ascii "h"),some 1,[]⟩,rfl,rfl⟩

theorem conversions_agree_name : Agree (.hostname (ascii "h")) 1 :=
  (conversions_agree UInt8 (.hostname (ascii "h")) 1 parsed_short).mpr (by simp)

/-- The loopback address in brackets. -/
theorem conversions_differ : ∃ bytes up, parse 20 (ascii "[::1]:443") = some (some up) ∧
    up.host = .ipAddr (.v6 bytes) ∧ ¬ Agree up.host 443 := by
  let bytes : Buffer 16 := ⟨[0,0,0,0,0,0,0,0,0,0,0,0,0,0,0,1],rfl⟩
  refine ⟨bytes,⟨none,none,none,.ipAddr (.v6 bytes),some 443,[]⟩,rfl,rfl,fun ha => ?_⟩
  exact absurd (ha.shared {}) (by decide)

end ProxySwiss.HostConversions
