import ProxySwiss.IpText
import ProxySwiss.UrlParser

/-!
# The object that holds a host

An address and a name stand side by side, and a type says which of them counts.
The setters write all three, as does no other operation: reading a text writes
the address or the name alone, and leaves the type of what was there before.
-/

set_option autoImplicit false

namespace ProxySwiss.TaggedHost
open Memory Text InetPton

inductive HostType where
  | ipAddress
  | hostname
  deriving DecidableEq, Repr

/-- The constructor without arguments does not write the type. -/
structure HostObject where
  type : Option HostType := none
  ipAddr : IpAddress := .v4 0xffffffff
  hostname : Bytes := []
  deriving DecidableEq

def setIpAddr (ip : IpAddress) : HostObject := ⟨some .ipAddress,ip,[0xff]⟩

def setHostname (name : Bytes) : HostObject := ⟨some .hostname,.v4 0xffffffff,name⟩

/-- `none` where an assertion fails. -/
def HostObject.toString (h : HostObject) : Option Bytes :=
  match h.type with
  | some .ipAddress => IpText.toString h.ipAddr
  | some .hostname => some h.hostname
  | none => none

def HostObject.fromString (fuel : ℕ) (h : HostObject) (str : Bytes) : Option HostObject :=
  (InetPton.fromString fuel str).map fun r => match r with
  | some ip => { h with ipAddr := ip }
  | none => { h with hostname := str }

def HostObject.equal (h r : HostObject) : Bool :=
  if h.type ≠ r.type then false
  else match h.type with
  | some .ipAddress => h.ipAddr = r.ipAddr
  | some .hostname => h.hostname = r.hostname
  | none => false

/-- The object stands for the host. -/
def HostObject.Holds (h : HostObject) : HostAddress → Prop
  | .ipAddr ip => h.type = some .ipAddress ∧ h.ipAddr = ip
  | .hostname name => h.type = some .hostname ∧ h.hostname = name

/-- What the setters make of a host. -/
def ofHost : HostAddress → HostObject
  | .ipAddr ip => setIpAddr ip
  | .hostname name => setHostname name

theorem equal_holds (h : HostObject) (host : HostAddress) :
    h.equal (ofHost host) = true ↔ h.Holds host := by
  unfold HostObject.equal
  cases host with
  | ipAddr ip =>
    by_cases ht : h.type = some .ipAddress
    · simp only [ht, HostObject.Holds, ofHost, setIpAddr, ne_eq, not_true_eq_false, if_false,
        true_and]
      exact decide_eq_true_iff
    · simp [ht, HostObject.Holds, ofHost, setIpAddr]
  | hostname name =>
    by_cases ht : h.type = some .hostname
    · simp only [ht, HostObject.Holds, ofHost, setHostname, ne_eq, not_true_eq_false, if_false,
        true_and]
      exact decide_eq_true_iff
    · simp [ht, HostObject.Holds, ofHost, setHostname]

/-- The comparison tells the hosts apart, as the parser stores them. -/
theorem equal_ofHost (a b : HostAddress) : (ofHost a).equal (ofHost b) = true ↔ a = b := by
  rw [equal_holds]
  cases a <;> cases b <;> simp [HostObject.Holds, ofHost, setIpAddr, setHostname]

/-- What is promised of an object that reads a text. -/
structure TextLaw (h : HostObject) (str : Bytes) : Prop where
  returns : ∃ fuel, (h.fromString fuel str).isSome
  address : ∀ fuel r ip, h.fromString fuel str = some r →
    InetPton.fromString fuel str = some (some ip) → r.Holds (.ipAddr ip)
  name : ∀ fuel r, h.fromString fuel str = some r →
    InetPton.fromString fuel str = some none → r.Holds (.hostname str)

/-- The type of the host that a text denotes. -/
def Denoted (str : Bytes) : HostType → Prop
  | .ipAddress => ∃ fuel ip, InetPton.fromString fuel str = some (some ip)
  | .hostname => ∃ fuel, InetPton.fromString fuel str = some none

theorem fromString_mono (fuel fuel' : ℕ) (str : Bytes) (r : Option IpAddress)
    (h : InetPton.fromString fuel str = some r) (hf : fuel ≤ fuel') :
    InetPton.fromString fuel' str = some r := by
  unfold InetPton.fromString fromStringIpv4 inetPtonWide inetPton at h ⊢
  cases hip : inetPton4 (((str.map CharT.toWide).takeWhile (· ≠ 0)).map wcharToChar) with
  | none =>
    simp only [hip, Option.map_none] at h ⊢
    exact fromStringIpv6_mono fuel fuel' str r h hf
  | some a => simpa only [hip, Option.map_some] using h

theorem fromString_same (fuel fuel' : ℕ) (str : Bytes) (r r' : Option IpAddress)
    (h : InetPton.fromString fuel str = some r) (h' : InetPton.fromString fuel' str = some r') :
    r = r' := by
  have hmore := fromString_mono fuel (fuel+fuel') str r h (Nat.le_add_right _ _)
  rw [fromString_mono fuel' (fuel+fuel') str r' h' (Nat.le_add_left _ _)] at hmore
  exact (Option.some.inj hmore).symm

/-- A text is read as promised exactly where the object is of its type already. -/
theorem from_string_law (h : HostObject) (str : Bytes) :
    TextLaw h str ↔ ∃ t, h.type = some t ∧ Denoted str t := by
  constructor
  · intro hl
    obtain ⟨fuel,hsome⟩ := hl.returns
    obtain ⟨r,hr⟩ := Option.isSome_iff_exists.mp hsome
    obtain ⟨ip,hip,hstored⟩ := Option.map_eq_some_iff.mp hr
    cases ip with
    | some ip =>
      subst hstored
      exact ⟨.ipAddress,(hl.address fuel _ ip hr hip).1,fuel,ip,hip⟩
    | none =>
      subst hstored
      exact ⟨.hostname,(hl.name fuel _ hr hip).1,fuel,hip⟩
  · rintro ⟨t,ht,hd⟩
    cases t with
    | ipAddress =>
      obtain ⟨fuel,ip,hip⟩ := hd
      refine ⟨⟨fuel,by simp [HostObject.fromString, hip]⟩,fun fuel' r ip' hr hip' => ?_,
        fun fuel' r _ hip' => ?_⟩
      · rw [HostObject.fromString, hip'] at hr
        obtain rfl := Option.some.inj hr
        exact ⟨ht,rfl⟩
      · exact absurd (fromString_same _ _ str _ _ hip hip') (by simp)
    | hostname =>
      obtain ⟨fuel,hip⟩ := hd
      refine ⟨⟨fuel,by simp [HostObject.fromString, hip]⟩,fun fuel' r ip' _ hip' => ?_,
        fun fuel' r hr hip' => ?_⟩
      · exact absurd (fromString_same _ _ str _ _ hip hip') (by simp)
      · rw [HostObject.fromString, hip'] at hr
        obtain rfl := Option.some.inj hr
        exact ⟨ht,rfl⟩

/-- What the constructors and the setters build, with names that are no addresses. -/
inductive Built where
  | unset
  | address (ip : IpAddress)
  | named (name : Bytes) (other : ∀ fuel ip, InetPton.fromString fuel name ≠ some (some ip))

def Built.object : Built → HostObject
  | .unset => {}
  | .address ip => setIpAddr ip
  | .named name _ => setHostname name

/-- There is something to print, and the loop over the addresses ends on it. -/
def Built.Readable : Built → Prop
  | .unset => False
  | .address _ => True
  | .named name _ => ¬ Scoped (hostText name)

/-- The object `g` equals `h` once it has read the text of `h`. -/
def RoundTrip (g h : HostObject) : Prop :=
  ∃ text, h.toString = some text ∧ ∃ N, ∀ fuel, N ≤ fuel →
    ∃ r, g.fromString fuel text = some r ∧ r.equal h = true

theorem address_round_trip (g : HostObject) (ip : IpAddress) :
    RoundTrip g (setIpAddr ip) ↔ g.type = some .ipAddress := by
  obtain ⟨text,htext,M,hread⟩ := IpText.ip_text_read ip
  have hstored : ∀ fuel, M ≤ fuel →
      g.fromString fuel text = some { g with ipAddr := ip } := by
    intro fuel hfuel
    rw [HostObject.fromString, hread fuel hfuel]
    rfl
  constructor
  · rintro ⟨t,ht,N,h⟩
    obtain rfl : text = t := Option.some.inj (htext.symm.trans ht)
    obtain ⟨r,hr,he⟩ := h (N+M) (Nat.le_add_right _ _)
    rw [hstored _ (Nat.le_add_left _ _)] at hr
    obtain rfl := Option.some.inj hr
    exact ((equal_holds _ (.ipAddr ip)).mp he).1
  · intro ht
    exact ⟨text,htext,M,fun fuel hfuel => ⟨_,hstored fuel hfuel,
      (equal_holds _ (.ipAddr ip)).mpr ⟨ht,rfl⟩⟩⟩

theorem name_round_trip (g : HostObject) (name : Bytes)
    (other : ∀ fuel ip, InetPton.fromString fuel name ≠ some (some ip)) :
    RoundTrip g (setHostname name) ↔ g.type = some .hostname ∧ ¬ Scoped (hostText name) := by
  have hstored : ∀ fuel r, g.fromString fuel name = some r → r = { g with hostname := name } := by
    intro fuel r hr
    obtain ⟨ip,hip,rfl⟩ := Option.map_eq_some_iff.mp hr
    cases ip with
    | some ip => exact absurd hip (other fuel ip)
    | none => rfl
  rw [← fromString_returns]
  constructor
  · rintro ⟨t,ht,N,h⟩
    obtain rfl : name = t := Option.some.inj ht
    obtain ⟨r,hr,he⟩ := h N le_rfl
    have hret : (InetPton.fromString N name).isSome := by
      rw [← Option.isSome_map, ← HostObject.fromString, hr]
      rfl
    obtain rfl := hstored N r hr
    exact ⟨((equal_holds _ (.hostname name)).mp he).1,N,hret⟩
  · rintro ⟨ht,N,hret⟩
    obtain ⟨ip,hip⟩ := Option.isSome_iff_exists.mp hret
    refine ⟨name,rfl,N,fun fuel hfuel => ?_⟩
    have hr : g.fromString fuel name = some _ :=
      Option.map_eq_some_iff.mpr ⟨ip,fromString_mono N fuel name ip hip hfuel,rfl⟩
    refine ⟨_,hr,?_⟩
    rw [hstored fuel _ hr]
    exact (equal_holds _ (.hostname name)).mpr ⟨ht,rfl⟩

/-- Both laws hold exactly where the object that reads has the right type before. -/
theorem host_text_law (h : HostObject) (str : Bytes) (b : Built) :
    (TextLaw h str ↔ ∃ t, h.type = some t ∧ Denoted str t) ∧
      (RoundTrip h b.object ↔ h.type = b.object.type ∧ b.Readable) := by
  refine ⟨from_string_law h str,?_⟩
  cases b with
  | unset =>
    refine ⟨?_,fun h => h.2.elim⟩
    rintro ⟨text,htext,-⟩
    exact absurd htext (by simp [Built.object, HostObject.toString])
  | address ip => exact (address_round_trip h ip).trans (iff_of_eq (and_true _)).symm
  | named name other => exact name_round_trip h name other

/-- An object that holds a name reads an address and remains a name. -/
theorem type_kept : ¬ TextLaw (setHostname (ascii "h")) (ascii "1.2.3.4") := by
  intro hl
  have hheld := hl.address 0 _ _ rfl rfl
  exact absurd hheld.1 (by decide)

end ProxySwiss.TaggedHost
