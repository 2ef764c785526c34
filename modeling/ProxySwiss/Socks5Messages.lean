import ProxySwiss.Destination

/-!
# The messages of a SOCKS5 dialogue

What the two parties mean to say, written down once and independently of the
code that assembles or takes apart the bytes.
-/

set_option autoImplicit false

namespace ProxySwiss.Socks5
open Memory

def greeting (creds : Credentials) : Bytes := [5,1,if creds.empty then 0 else 2]

/-- The credentials as the client writes them, behind the version octet five. -/
def credsMessage (creds : Credentials) : Bytes :=
  [5,UInt8.ofNat creds.username.length] ++ creds.username ++
    [UInt8.ofNat creds.password.length] ++ creds.password

def address (dst : Destination) : Bytes :=
  if dst.usingHostname then [3,UInt8.ofNat dst.hostname.length] ++ dst.hostname
  else match dst.ipAddress with
    | .v4 ulong => [1,byte32 ulong 3,byte32 ulong 2,byte32 ulong 1,byte32 ulong 0]
    | .v6 bytes => 4::bytes.bytes

def connectRequest (dst : Destination) : Bytes :=
  [5,1,0] ++ address dst ++ [hi16 dst.port,lo16 dst.port]

/-- Everything that precedes the request. -/
def preamble (creds : Credentials) : Bytes :=
  if creds.empty then greeting creds else greeting creds ++ credsMessage creds

/-- The answers that let the client proceed to the request. -/
def authAnswer (creds : Credentials) : Bytes :=
  if creds.empty then [5,0] else [5,2,5,0]

/-- A complete greeting that offers the method without authentication. -/
inductive Offer : Bytes → Prop
  | mk (nmethods : UInt8) (methods : Bytes) (hn : methods.length = nmethods.toNat)
      (h0 : 0 ∈ methods) : Offer ([5,nmethods] ++ methods)

/-- The address and the port behind an address type octet. -/
inductive AddressField : UInt8 → Bytes → Prop
  | ipv4 (a : Bytes) (h : a.length = 6) : AddressField 1 a
  | domainname (len : UInt8) (a : Bytes) (h : a.length = len.toNat+2) : AddressField 3 (len::a)
  | ipv6 (a : Bytes) (h : a.length = 18) : AddressField 4 a

/-- A complete reply with the given code. -/
inductive Reply (rep : UInt8) : Bytes → Prop
  | mk (rsv atyp : UInt8) (a : Bytes) (hrep : rep ≤ 8) (ha : AddressField atyp a) :
      Reply rep ([5,rep,rsv,atyp] ++ a)

/-- Both parts of the credentials and the hostname fit behind a length octet. -/
structure Accepted (creds : Credentials) (dst : Destination) : Prop where
  username : creds.username.length ≤ 255
  password : creds.password.length ≤ 255
  hostname : dst.usingHostname → dst.hostname.length ≤ 255

/-- A complete request of a client, greeting included. -/
inductive Complete : Bytes → Prop
  | mk (g : Bytes) (rsv atyp : UInt8) (field : Bytes) (hg : Offer g)
      (hf : AddressField atyp field) : Complete (g ++ [5,1,rsv,atyp] ++ field)

/-! A stream that carries the one cannot begin with the other. -/

def Refuses (creds : Credentials) (t : Bytes) : Prop :=
  ∀ inp, authAnswer creds <+: inp → ¬ t <+: inp

def Malformed (t : Bytes) : Prop := ∀ rep m inp, Reply rep m → m <+: inp → ¬ t <+: inp

def Unwelcome (t : Bytes) : Prop := ∀ m inp, Complete m → m <+: inp → ¬ t <+: inp

theorem greeting_preamble (creds : Credentials) (dst : Destination) :
    greeting creds <+: preamble creds ++ connectRequest dst := by
  refine List.IsPrefix.trans ?_ (List.prefix_append _ _)
  unfold preamble
  split
  · exact List.prefix_refl _
  · exact List.prefix_append _ _

theorem prefix_agree (a b inp : Bytes) (ha : a <+: inp) (hb : b <+: inp)
    (hlen : a.length = b.length) : a = b :=
  (List.prefix_of_prefix_length_le ha hb (Nat.le_of_eq hlen)).eq_of_length hlen

theorem malformed_header (v rep rsv atyp : UInt8)
    (h : ¬ (v = 5 ∧ rep ≤ 8 ∧ (atyp = 1 ∨ atyp = 3 ∨ atyp = 4))) :
    Malformed [v,rep,rsv,atyp] := by
  intro rep' m inp hm hpre ht
  cases hm with
  | mk rsv' atyp' a hrep ha =>
    have heq := prefix_agree _ [5,rep',rsv',atyp'] inp ht ((List.prefix_append _ _).trans hpre) rfl
    simp only [List.cons.injEq, and_true] at heq
    obtain ⟨rfl,rfl,rfl,rfl⟩ := heq
    apply h
    cases ha <;> simp [hrep]

theorem refuses_method (creds : Credentials) (v m : UInt8)
    (h : ¬ (v = 5 ∧ m = if creds.empty then 0 else 2)) : Refuses creds [v,m] := by
  intro inp hpre ht
  have hshort : [5,if creds.empty then 0 else 2] <+: authAnswer creds := by
    unfold authAnswer
    split <;> simp
  have heq := prefix_agree _ _ inp ht (hshort.trans hpre) rfl
  simp only [List.cons.injEq, and_true] at heq
  exact h heq

theorem refuses_status (creds : Credentials) (hc : creds.empty = false) (v st : UInt8)
    (h : ¬ (v = 5 ∧ st = 0)) : Refuses creds ([5,2] ++ [v,st]) := by
  intro inp hpre ht
  have heq := prefix_agree _ (authAnswer creds) inp ht hpre (by simp [authAnswer, hc])
  simp only [authAnswer, hc, Bool.false_eq_true, if_false, List.cons_append, List.nil_append,
    List.cons.injEq, and_true, true_and] at heq
  exact h heq

theorem offer_unique (g g' inp : Bytes) (hg : Offer g) (hg' : Offer g') (h : g <+: inp)
    (h' : g' <+: inp) : g = g' := by
  cases hg with
  | mk n ms hn h0 =>
    cases hg' with
    | mk n' ms' hn' h0' =>
      have heq := prefix_agree [5,n] [5,n'] inp ((List.prefix_append _ _).trans h)
        ((List.prefix_append _ _).trans h') rfl
      simp only [List.cons.injEq, and_true, true_and] at heq
      subst heq
      exact prefix_agree _ _ inp h h' (by simp [hn, hn'])

theorem unwelcome_hello (v n : UInt8) (h : v ≠ 5 ∨ n = 0) : Unwelcome [v,n] := by
  intro m inp hm hpre ht
  cases hm with
  | mk g rsv atyp field hg hf =>
    cases hg with
    | mk n' ms hn h0 =>
      have heq := prefix_agree _ [5,n'] inp ht (List.IsPrefix.trans (by simp) hpre) rfl
      simp only [List.cons.injEq, and_true] at heq
      obtain ⟨rfl,rfl⟩ := heq
      rcases h with h | rfl
      · exact h rfl
      · rw [List.length_eq_zero_iff.mp hn] at h0
        exact absurd h0 (by simp)

theorem unwelcome_methods (n : UInt8) (d : Bytes) (hd : d.length = n.toNat) (h : 0 ∉ d) :
    Unwelcome ([5,n] ++ d) := by
  intro m inp hm hpre ht
  cases hm with
  | mk g rsv atyp field hg hf =>
    cases hg with
    | mk n' ms hn h0 =>
      have heq := prefix_agree [5,n] [5,n'] inp ((List.prefix_append _ _).trans ht)
        (List.IsPrefix.trans (by simp) hpre) rfl
      simp only [List.cons.injEq, and_true, true_and] at heq
      subst heq
      have hsame := prefix_agree _ ([5,n] ++ ms) inp ht (List.IsPrefix.trans (by simp) hpre)
        (by simp [hd, hn])
      exact h (List.append_cancel_left hsame ▸ h0)

/-- Behind the greeting a complete message goes on with the header that the input has there. -/
theorem header_at (g : Bytes) (v cmd rsv atyp : UInt8) (m inp : Bytes) (hg : Offer g)
    (hm : Complete m) (hpre : m <+: inp) (ht : g ++ [v,cmd,rsv,atyp] <+: inp) :
    v = 5 ∧ cmd = 1 ∧ ∃ field, AddressField atyp field ∧ m = g ++ [5,1,rsv,atyp] ++ field := by
  cases hm with
  | mk g' rsv' atyp' field hg' hf =>
    have hgg : g = g' := offer_unique g g' inp hg hg' ((List.prefix_append _ _).trans ht)
      (List.IsPrefix.trans (by simp) hpre)
    subst hgg
    have heq := prefix_agree _ (g ++ [5,1,rsv',atyp']) inp ht
      ((List.prefix_append _ _).trans hpre) (by simp)
    have heq := List.append_cancel_left heq
    simp only [List.cons.injEq, and_true] at heq
    obtain ⟨rfl,rfl,rfl,rfl⟩ := heq
    exact ⟨rfl,rfl,field,hf,rfl⟩

theorem unwelcome_header (g : Bytes) (v cmd rsv atyp : UInt8) (hg : Offer g)
    (h : ¬ (v = 5 ∧ cmd = 1 ∧ (atyp = 1 ∨ atyp = 3 ∨ atyp = 4))) :
    Unwelcome (g ++ [v,cmd,rsv,atyp]) := by
  intro m inp hm hpre ht
  obtain ⟨hv,hcmd,field,hf,-⟩ := header_at g v cmd rsv atyp m inp hg hm hpre ht
  refine h ⟨hv,hcmd,?_⟩
  cases hf <;> simp

theorem complete_at (g : Bytes) (rsv atyp : UInt8) (m inp : Bytes) (hg : Offer g)
    (hm : Complete m) (hpre : m <+: inp) (ht : g ++ [5,1,rsv,atyp] <+: inp) :
    ∃ field, AddressField atyp field ∧ m = g ++ [5,1,rsv,atyp] ++ field :=
  (header_at g 5 1 rsv atyp m inp hg hm hpre ht).2.2

theorem field_unique (atyp : UInt8) (a b inp : Bytes) (ha : AddressField atyp a)
    (hb : AddressField atyp b) (h : a <+: inp) (h' : b <+: inp) : a = b := by
  cases ha with
  | ipv4 a hla =>
    cases hb with
    | ipv4 b hlb => exact prefix_agree _ _ inp h h' (hla.trans hlb.symm)
  | ipv6 a hla =>
    cases hb with
    | ipv6 b hlb => exact prefix_agree _ _ inp h h' (hla.trans hlb.symm)
  | domainname len a hla =>
    cases hb with
    | domainname len' b hlb =>
      have heq := prefix_agree [len] [len'] inp (List.IsPrefix.trans (by simp) h)
        (List.IsPrefix.trans (by simp) h') rfl
      simp only [List.cons.injEq, and_true] at heq
      subst heq
      exact prefix_agree _ _ inp h h' (by simp [hla, hlb])

/-- The first octets of a field tell how long it is, whatever has come of the rest. -/
theorem field_length (atyp : UInt8) (head pre a inp : Bytes) (n : ℕ)
    (hf : ∀ b : Bytes, b.length = n → AddressField atyp (pre ++ b)) (ha : AddressField atyp a)
    (hpre : head ++ pre <+: inp) (h : head ++ a <+: inp) : a.length = pre.length+n := by
  obtain ⟨r,rfl⟩ := hpre
  rw [List.append_assoc, List.prefix_append_right_inj] at h
  -- what is missing is made up
  have hb : ((r ++ List.replicate n 0).take n).length = n := by simp
  have hin : a <+: pre ++ (r ++ List.replicate n 0) :=
    h.trans (by rw [← List.append_assoc]; exact List.prefix_append _ _)
  rw [field_unique atyp a _ _ ha (hf _ hb) hin
    ((List.prefix_append_right_inj pre).mpr (List.take_prefix n _)), List.length_append, hb]

/-- A stream begins with at most one complete request. -/
theorem complete_unique (m m' inp : Bytes) (hm : Complete m) (hm' : Complete m')
    (h : m <+: inp) (h' : m' <+: inp) : m = m' := by
  cases hm with
  | mk g rsv atyp field hg hf =>
    obtain ⟨field',hf',rfl⟩ := complete_at g rsv atyp m' inp hg hm' h'
      ((List.prefix_append _ _).trans h)
    obtain ⟨rest,rfl⟩ := h
    have hfield : field' <+: field ++ rest := by simpa using h'
    rw [field_unique atyp field' field _ hf' hf hfield (List.prefix_append field rest)]

end ProxySwiss.Socks5
