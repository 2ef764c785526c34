import ProxySwiss.IpText
import Mathlib.Data.List.GetD

/-!
# Local addresses

The octets of an IPv4 address lie in memory in the order of its text, so that
the first of them is the lowest of its number. The mask takes the highest for
it, which is the last number of the text.
-/

set_option autoImplicit false

namespace ProxySwiss.Locality
open Memory Text InetPton Ipv4Literal

def isLocal : IpAddress → Bool
  | .v4 addr => (addr &&& 0xFF000000) == 0x7F000000
  | .v6 a => (List.range 15).all (fun i => a[i] == 0) && a[15] == 1

/-- The address that `::1` stands for. -/
def loopback : Buffer 16 := (default : Buffer 16).fillAt 15 [1]

example : fromString 8 (ascii "::1") = some (some (.v6 loopback)) := by decide

/-- The number in front of the first dot of the text. -/
def FirstNumber (ip : IpAddress) (v : ℕ) : Prop :=
  ∃ text, IpText.toString ip = some text ∧ Decimal (before 0x2e text) v

def Local (ip : IpAddress) : Prop :=
  (∃ addr, ip = .v4 addr ∧ FirstNumber ip 127) ∨ ip = .v6 loopback

theorem mask_highest (v : UInt32) :
    (v &&& 0xFF000000).toNat = 2^24*(v.toNat / 2^24) := by
  have hv := v.toNat_lt
  apply Nat.eq_of_testBit_eq
  intro i
  rw [UInt32.toNat_and, show (0xFF000000 : UInt32).toNat = 2^24*(2^8-1) from rfl,
    Nat.testBit_and, Nat.testBit_two_pow_mul, Nat.testBit_two_pow_mul,
    Nat.testBit_two_pow_sub_one, Nat.testBit_div_two_pow]
  by_cases hlo : 24 ≤ i
  · by_cases hhi : i < 32
    · simp [hlo, show i-24 < 8 by omega, show i-24+24 = i by omega]
    · have hzero : v.toNat.testBit i = false :=
        Nat.testBit_lt_two_pow (Nat.lt_of_lt_of_le hv (Nat.pow_le_pow_right (by decide) (by omega)))
      simp [hzero, show i-24+24 = i by omega]
  · simp [hlo]

/-- The mask looks at the last number. -/
theorem isLocal_v4 (addr : UInt32) : isLocal (.v4 addr) = true ↔ byte32 addr 3 = 127 := by
  have hv := addr.toNat_lt
  rw [isLocal, beq_iff_eq, ← UInt32.toNat_inj, mask_highest, ← UInt8.toNat_inj]
  have hbyte : (byte32 addr 3).toNat = addr.toNat / 2^24 % 256 := by
    rw [byte32, UInt8.toNat_ofNat']
    omega
  rw [hbyte]
  change 2^24*(addr.toNat / 2^24) = 2130706432 ↔ addr.toNat / 2^24 % 256 = 127
  omega

theorem isLocal_v6 (a : Buffer 16) : isLocal (.v6 a) = true ↔ a = loopback := by
  constructor
  · intro h
    simp only [isLocal, Bool.and_eq_true, List.all_eq_true, List.mem_range, beq_iff_eq] at h
    obtain ⟨hzero,hlast⟩ := h
    have hloop : ∀ i < 15, loopback.bytes.getD i 0 = 0 := by decide
    apply buffer_eq
    apply List.ext_getElem (a.size.trans loopback.size.symm)
    intro i hi hi'
    rw [← List.getD_eq_getElem _ 0 hi, ← List.getD_eq_getElem _ 0 hi']
    have hlt : i < 16 := a.size ▸ hi
    by_cases h15 : i = 15
    · subst h15
      exact hlast
    · rw [hloop i (by omega)]
      exact hzero i (by omega)
  · rintro rfl
    decide

/-- The first number of the text is the lowest octet. -/
theorem firstNumber_v4 (addr : UInt32) (v : ℕ) :
    FirstNumber (.v4 addr) v ↔ v = (byte32 addr 0).toNat := by
  have hdot : 0x2e ∉ strFromUint (byte32 addr 0).toNat := by
    intro hin
    exact absurd ((strFromUint_decimal _).digit _ hin) (by decide)
  have hbefore : before 0x2e (InetNtop.inetNtop 0 (.v4 addr)) =
      strFromUint (byte32 addr 0).toNat := by
    simp only [InetNtop.inetNtop, List.append_assoc]
    rw [before_append _ _ _ hdot]
    simp [ascii]
  have hnum := strFromUint_decimal (byte32 addr 0).toNat
  rw [FirstNumber]
  simp only [IpText.toString_text, Option.some.injEq, exists_eq_left', hbefore]
  exact ⟨fun h => decimal_unique _ _ _ h hnum,fun h => h ▸ hnum⟩

theorem local_v4 (addr : UInt32) : Local (.v4 addr) ↔ byte32 addr 0 = 127 := by
  rw [Local]
  simp only [IpAddress.v4.injEq, exists_eq_left', firstNumber_v4, reduceCtorEq, or_false]
  rw [← UInt8.toNat_inj]
  exact eq_comm

theorem local_v6 (a : Buffer 16) : Local (.v6 a) ↔ a = loopback := by
  simp [Local]

/-- The two agree on every IPv6 address, and on an IPv4 address whose first and
last numbers are both 127 or both not. -/
theorem isLocal_iff (ip : IpAddress) : (isLocal ip = true ↔ Local ip) ↔
    ∀ addr, ip = .v4 addr → (byte32 addr 0 = 127 ↔ byte32 addr 3 = 127) := by
  cases ip with
  | v4 addr =>
    simp only [isLocal_v4, local_v4, IpAddress.v4.injEq, forall_eq']
    exact iff_comm
  | v6 a => simp [isLocal_v6, local_v6]

section Text

variable {T : Type} [CharT T]

theorem fromStringIpv6_v6 (fuel : ℕ) (str : List T) (ip : IpAddress)
    (h : fromStringIpv6 fuel str = some (some ip)) : ∃ a, ip = .v6 a := by
  unfold fromStringIpv6 inetPtonWide inetPton at h
  split_ifs at h
  · simp at h
  · obtain ⟨r,-,hr⟩ := Option.map_eq_some_iff.mp h
    obtain ⟨a,-,ha⟩ := Option.map_eq_some_iff.mp hr
    exact ⟨a,ha.symm⟩

/-- An accepted text has four numbers exactly if it denotes an IPv4 address. -/
theorem accepted_scanned (fuel : ℕ) (str : List T) (ip : IpAddress)
    (h : fromString fuel str = some (some ip)) (a b c d : UInt8) :
    Scanned (hostText str) a b c d ↔ ip = .v4 (ofLe32 a b c d) := by
  constructor
  · intro hs
    have h4 := (fromStringIpv4_some fuel str _).mpr ⟨a,b,c,d,hs,rfl⟩
    simp only [fromString, h4, Option.some.injEq] at h
    exact h.symm
  · rintro rfl
    have h4 : fromStringIpv4 fuel str = some (some (.v4 (ofLe32 a b c d))) := by
      unfold fromString at h
      split at h
      · obtain ⟨x,hx⟩ := fromStringIpv6_v6 fuel str _ h
        exact absurd hx (by simp)
      · exact h
    obtain ⟨a',b',c',d',hs,hip⟩ := (fromStringIpv4_some fuel str _).mp h4
    have hnum := IpAddress.v4.inj hip
    have hbytes := byte32_ofLe32 a b c d
    rw [hnum] at hbytes
    obtain ⟨ha,hb,hc,hd⟩ := byte32_ofLe32 a' b' c' d'
    rw [ha, hb, hc, hd] at hbytes
    obtain ⟨rfl,rfl,rfl,rfl⟩ := hbytes
    exact hs

/-- For an accepted text the locality is as promised exactly if its first and
its last number are both 127 or both not, where it has numbers. -/
theorem locality_law (fuel : ℕ) (str : List T) (ip : IpAddress)
    (h : fromString fuel str = some (some ip)) :
    (isLocal ip = true ↔ Local ip) ↔
      ∀ a b c d, Scanned (hostText str) a b c d → (a = 127 ↔ d = 127) := by
  simp only [accepted_scanned fuel str ip h]
  rw [isLocal_iff]
  constructor
  · rintro hip a b c d rfl
    obtain ⟨ha,-,-,hd⟩ := byte32_ofLe32 a b c d
    have haddr := hip _ rfl
    rwa [ha, hd] at haddr
  · rintro hip addr rfl
    exact hip _ _ _ _ (by rw [ofLe32_byte32])

end Text

/-- An address with 127 at both ends. -/
theorem locality_law_ends : isLocal (.v4 0x7F00007F) = true ↔ Local (.v4 0x7F00007F) := by
  have hip : fromString 0 (ascii "127.0.0.127") = some (some (.v4 0x7F00007F)) := by decide
  refine (locality_law 0 (ascii "127.0.0.127") (.v4 0x7F00007F) hip).mpr fun a b c d hs => ?_
  obtain ⟨ha,-,-,hd⟩ := byte32_ofLe32 a b c d
  rw [← IpAddress.v4.inj ((accepted_scanned 0 _ _ hip a b c d).mp hs)] at ha hd
  rw [← ha, ← hd]
  decide

/-- The address of the local host is not recognised, and another one is. -/
theorem local_host_unrecognised :
    (fromString 0 (ascii "127.0.0.1") = some (some (.v4 0x0100007F)) ∧
      ¬ (isLocal (.v4 0x0100007F) = true ↔ Local (.v4 0x0100007F))) ∧
    fromString 0 (ascii "10.0.0.127") = some (some (.v4 0x7F00000A)) ∧
      ¬ (isLocal (.v4 0x7F00000A) = true ↔ Local (.v4 0x7F00000A)) := by
  refine ⟨⟨by decide,?_⟩,by decide,?_⟩
  · rw [local_v4]
    decide
  · rw [local_v4]
    decide

end ProxySwiss.Locality
