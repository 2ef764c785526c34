import ProxySwiss.Ipv6Text

/-!
# Text from addresses

The loop writes one group a round, and the first run of zeros as a gap. Its
text is a text form of the address, so the address is read back from it.
-/

set_option autoImplicit false

namespace ProxySwiss.InetNtop
open Memory Text InetPton

/-- `%x`. -/
def hexText (w : ℕ) : Bytes := (Nat.toDigits 16 w).map fun c => UInt8.ofNat c.toNat

def words : Bytes → List ℕ
  | hi::lo::bs => (256*hi.toNat+lo.toNat)::words bs
  | _ => []

/-- The loop over the words; `skip` is what remains of a run of zeros, `first`
says that no word has been passed, and `z` that a run has been. -/
def ntopLoop : ℕ → Bool → Bool → List ℕ → Bytes
  | _, _, _, [] => []
  | skip+1, first, z, _::ws => ntopLoop skip first z ws
  | 0, first, z, w::ws =>
    if w = 0 ∧ z = false then
      let run := (ws.takeWhile (· = 0)).length
      0x3a::((if run < ws.length then [] else [0x3a]) ++ ntopLoop run false true ws)
    else (if first then [] else [0x3a]) ++ hexText w ++ ntopLoop 0 false z ws

def inetNtop (scopeId : ℕ) : IpAddress → Bytes
  | .v4 addr => strFromUint (byte32 addr 0).toNat ++ ascii "." ++
      strFromUint (byte32 addr 1).toNat ++ ascii "." ++
      strFromUint (byte32 addr 2).toNat ++ ascii "." ++ strFromUint (byte32 addr 3).toNat
  | .v6 a => ntopLoop 0 true false (words a.bytes) ++
      if scopeId = 0 then [] else ascii "%" ++ strFromUint scopeId

theorem hexDigit_digitChar :
    ∀ d < 16, hexDigit (UInt8.ofNat (Nat.digitChar d).toNat) = some d := by decide

theorem hexText_numeral (w : ℕ) : numeral hexDigit 16 0 (hexText w) = some w := by
  induction w using Nat.strong_induction_on with
  | _ w ih =>
    unfold hexText
    rw [Nat.toDigits_eq_if (by decide)]
    split_ifs with h
    · simp [numeral, hexDigit_digitChar w h]
    · have hrec := ih (w / 16) (by omega)
      unfold hexText at hrec
      rw [List.map_append, numeral_append, hrec]
      simp only [Option.bind_some, List.map_cons, List.map_nil, numeral,
        hexDigit_digitChar (w % 16) (Nat.mod_lt _ (by decide))]
      exact congrArg some (by omega)

theorem hexText_group (w : ℕ) (h : w ≤ 0xffff) : HexGroup (hexText w) w := by
  refine ⟨by simp [hexText],?_,hexText_numeral w⟩
  rw [hexText, List.length_map, Nat.length_toDigits_le_iff (by decide) (by decide)]
  omega

/-- Groups with a colon in front of each. -/
def seps (ws : List ℕ) : Bytes := ws.flatMap fun w => 0x3a::hexText w

theorem joined_seps (w : ℕ) (ws : List ℕ) :
    joined ((w::ws).map hexText) = hexText w ++ seps ws := by
  induction ws generalizing w with
  | nil => simp [joined, seps]
  | cons v vs ih =>
    have hv := ih v
    simp only [List.map_cons] at hv
    simp only [List.map_cons, joined, hv]
    simp [seps]

theorem ntopLoop_skip (skip : ℕ) (first z : Bool) (ws : List ℕ) :
    ntopLoop skip first z ws = ntopLoop 0 first z (ws.drop skip) := by
  induction skip generalizing ws with
  | zero => rfl
  | succ skip ih =>
    cases ws with
    | nil => rfl
    | cons w ws => exact ih ws

theorem ntopLoop_after (ws : List ℕ) : ntopLoop 0 false true ws = seps ws := by
  induction ws with
  | nil => rfl
  | cons w ws ih => simp [ntopLoop, ih, seps]

/-- Groups that are not zero are written one by one. -/
theorem ntopLoop_front (us rest : List ℕ) (h : 0 ∉ us) :
    ntopLoop 0 false false (us ++ rest) = seps us ++ ntopLoop 0 false false rest := by
  induction us with
  | nil => rfl
  | cons u us ih =>
    have hu : u ≠ 0 := fun h0 => h (by simp [h0])
    have hrec := ih fun h0 => h (by simp [h0])
    simp [ntopLoop, hu, hrec, seps]

/-- The first run of zeros, and all that follows it. -/
theorem ntopLoop_gap (first : Bool) (rest : List ℕ) : ntopLoop 0 first false (0::rest) =
    0x3a::0x3a::joined ((rest.dropWhile (· = 0)).map hexText) := by
  have hrest : rest.takeWhile (· = 0) ++ rest.dropWhile (· = 0) = rest :=
    List.takeWhile_append_dropWhile
  have hlen := congrArg List.length hrest
  rw [List.length_append] at hlen
  have hdrop : rest.drop (rest.takeWhile (· = 0)).length = rest.dropWhile (· = 0) := by
    nth_rewrite 2 [← hrest]
    exact List.drop_left
  simp only [ntopLoop, and_self, if_true, ntopLoop_skip _ _ _ rest, hdrop, ntopLoop_after]
  generalize rest.dropWhile (· = 0) = vs at hlen
  cases vs with
  | nil =>
    rw [if_neg (by simp at hlen; omega)]
    rfl
  | cons v vs =>
    rw [if_pos (by simp at hlen; omega), joined_seps]
    simp [seps]

theorem ntopLoop_first (us rest : List ℕ) (h : 0 ∉ us) (hne : us ≠ []) :
    ntopLoop 0 true false (us ++ rest) =
      joined (us.map hexText) ++ ntopLoop 0 false false rest := by
  obtain ⟨u,us,rfl⟩ := List.exists_cons_of_ne_nil hne
  have hu : u ≠ 0 := fun h0 => h (by simp [h0])
  have hfront := ntopLoop_front us rest fun h0 => h (by simp [h0])
  rw [joined_seps, List.cons_append, ntopLoop, if_neg (by simp [hu]), hfront]
  simp

theorem words_spec (n : ℕ) (bs : Bytes) (h : bs.length = 2*n) :
    (words bs).length = n ∧ (words bs).flatMap octets = bs ∧ ∀ w ∈ words bs, w ≤ 0xffff := by
  induction n generalizing bs with
  | zero =>
    obtain rfl := List.length_eq_zero_iff.mp h
    exact ⟨rfl,rfl,by simp [words]⟩
  | succ n ih =>
    obtain ⟨hi,t,rfl⟩ : ∃ hi t, bs = hi::t := List.exists_cons_of_length_pos (by omega)
    rw [List.length_cons] at h
    obtain ⟨lo,t,rfl⟩ : ∃ lo u, t = lo::u := List.exists_cons_of_length_pos (by omega)
    rw [List.length_cons] at h
    obtain ⟨hlen,hbytes,hle⟩ := ih t (by omega)
    have hhi := hi.toNat_lt
    have hlo := lo.toNat_lt
    have hoctets : octets (256*hi.toNat+lo.toNat) = [hi,lo] := by
      have h1 : (256*hi.toNat+lo.toNat) / 256 = hi.toNat := by omega
      have h2 : UInt8.ofNat (256*hi.toNat+lo.toNat) = lo := by
        apply UInt8.toNat_inj.mp
        rw [UInt8.toNat_ofNat']
        omega
      rw [octets, h1, h2, UInt8.ofNat_toNat]
    refine ⟨by simp [words, hlen],by simp [words, hoctets, hbytes],?_⟩
    intro w hw
    rcases List.mem_cons.mp hw with rfl | hw
    · omega
    · exact hle w hw

theorem hexText_groups (ws : List ℕ) (h : ∀ w ∈ ws, w ≤ 0xffff) :
    List.Forall₂ HexGroup (ws.map hexText) ws := by
  induction ws with
  | nil => exact .nil
  | cons w ws ih =>
    exact .cons (hexText_group w (h w (by simp))) (ih fun x hx => h x (by simp [hx]))

theorem zero_octets (n : ℕ) : (List.replicate n 0).flatMap octets = List.replicate (2*n) 0 := by
  induction n with
  | zero => rfl
  | succ n ih =>
    rw [List.replicate_succ, List.flatMap_cons, ih, Nat.mul_succ, List.replicate_succ,
      List.replicate_succ]
    rfl

/-- The loop writes a text form of the address. -/
theorem inetNtop6_text (a : Buffer 16) : Ipv6Text (inetNtop 0 (.v6 a)) a.bytes := by
  obtain ⟨hlen,hbytes,hle⟩ := words_spec 8 a.bytes a.size
  rw [inetNtop, if_pos rfl, List.append_nil]
  generalize words a.bytes = ws at hlen hbytes hle
  rw [← hbytes]
  by_cases h0 : 0 ∈ ws
  · obtain ⟨us,rest,rfl,hus⟩ := List.eq_append_cons_of_mem h0
    have hrest : rest.takeWhile (· = 0) ++ rest.dropWhile (· = 0) = rest :=
      List.takeWhile_append_dropWhile
    have hzero : rest.takeWhile (· = 0) = List.replicate (rest.takeWhile (· = 0)).length 0 :=
      List.eq_replicate_iff.mpr ⟨rfl,fun w hw => by simpa using List.mem_takeWhile_imp hw⟩
    have htext : ntopLoop 0 true false (us ++ 0::rest) = joined (us.map hexText) ++
        0x3a::0x3a::joined ((rest.dropWhile (· = 0)).map hexText) := by
      by_cases hne : us = []
      · subst hne
        exact ntopLoop_gap true rest
      · rw [ntopLoop_first us _ hus hne, ntopLoop_gap]
    have hoctets : (us ++ 0::rest).flatMap octets = us.flatMap octets ++
        List.replicate (2*((rest.takeWhile (· = 0)).length+1)) 0 ++
          (rest.dropWhile (· = 0)).flatMap octets := by
      nth_rewrite 1 [← hrest]
      rw [hzero, ← zero_octets, List.replicate_succ]
      simp
    have hl := congrArg List.length hrest
    simp only [List.length_append, List.length_cons] at hl hlen
    rw [htext, hoctets]
    refine .gap _ _ us _ _ (hexText_groups us fun w hw => hle w (by simp [hw]))
      (hexText_groups _ fun w hw => hle w ?_) (by omega) (by omega)
    have := List.dropWhile_subset _ hw
    simp [this]
  · have hne : ws ≠ [] := by
      rintro rfl
      exact absurd hlen (by decide)
    have htext := ntopLoop_first ws [] h0 hne
    rw [List.append_nil] at htext
    rw [htext, ntopLoop, List.append_nil]
    exact .full _ ws (hexText_groups ws hle) hlen

/-- An address that is written is read back. -/
theorem inetNtop6_taken {T : Type} [CharT T] (a : Buffer 16) : ∃ N, ∀ fuel, N ≤ fuel →
    fromStringIpv6 fuel (strToTstr (inetNtop 0 (.v6 a)) : List T) = some (some (.v6 a)) :=
  ipv6Text_taken _ a (inetNtop6_text a)

end ProxySwiss.InetNtop
