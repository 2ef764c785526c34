import ProxySwiss.Checked
import ProxySwiss.InetPtonLoop
import Mathlib.Algebra.Group.Even
import Mathlib.Data.List.TakeWhile

/-!
# The accesses of the loop over an IPv6 address

The loop once more, with the position in the text, the two arrays and the two
counters as the source has them, and with every access and every sum checked.
The invariant holds after every round, also in the loop that is never left, and
the automaton on texts makes the same rounds.
-/

set_option autoImplicit false

namespace ProxySwiss.InetPtonBounds
open Memory Text InetPton Checked

structure Registers where
  state : State := .fword
  p : ℕ := 0
  currentWord : ℕ := 0
  bytes : Bytes := List.replicate 16 0
  backBytes : Bytes := List.replicate 16 0
  numFrontBytes : ℕ := 0
  numBackBytes : ℕ := 0
  deriving DecidableEq

/-- `current_word * base + *p++ - first + plus`, summand by summand. -/
def shiftIn (base first plus : ℕ) (c : UInt8) (m : Registers) : Outcome Registers := do
  let w ← word 32 (m.currentWord*base)
  let w ← word 32 (w+c.toNat)
  let w ← sub w first
  let w ← word 32 (w+plus)
  return { m with currentWord := w, p := m.p+1 }

def high (v : ℕ) : UInt8 := UInt8.ofNat (v >>> 8 &&& 0xff)
def low (v : ℕ) : UInt8 := UInt8.ofNat (v &&& 0xff)

def pushFront (m : Registers) : Outcome Registers :=
  if m.numFrontBytes = 16 then .rejected
  else do
    let bytes ← store m.bytes m.numFrontBytes (high m.currentWord)
    let bytes ← store bytes (m.numFrontBytes+1) (low m.currentWord)
    return { m with bytes := bytes, numFrontBytes := m.numFrontBytes+2, currentWord := 0 }

def pushBack (m : Registers) : Outcome Registers :=
  if m.numFrontBytes+m.numBackBytes = 16 then .rejected
  else do
    let backBytes ← store m.backBytes m.numBackBytes (high m.currentWord)
    let backBytes ← store backBytes (m.numBackBytes+1) (low m.currentWord)
    return { m with backBytes := backBytes, numBackBytes := m.numBackBytes+2, currentWord := 0 }

section Rounds

variable (text : Bytes)

/-- The end of the text is read as the octet zero. -/
def read (m : Registers) : Outcome UInt8 := index text 0 m.p

def wordRound (push : Registers → Outcome Registers) (colon : State) (m : Registers) :
    Outcome Registers := do
  let c ← read text m
  if 48 ≤ c.toNat ∧ c.toNat ≤ 57 then shiftIn 16 48 0 c m
  else if 97 ≤ c.toNat ∧ c.toNat ≤ 102 then shiftIn 16 97 10 c m
  else if 65 ≤ c.toNat ∧ c.toNat ≤ 70 then shiftIn 16 65 10 c m
  else do
    let m ← push m
    if c = 0x3a then return { m with state := colon, p := m.p+1 }
    else if c = 0x25 then return { m with state := .scope, p := m.p+1 }
    else if c = 0 then return { m with state := .done }
    else .rejected

def colonRound (m : Registers) : Outcome Registers := do
  if (← read text m) = 0x3a then return { m with state := .bword, p := m.p+1 }
  else return { m with state := .fword }

def scopeRound (m : Registers) : Outcome Registers := do
  let c ← read text m
  if 48 ≤ c.toNat ∧ c.toNat ≤ 57 then shiftIn 10 48 0 c m
  else if c = 0 then return m
  else .rejected

/-- One iteration of the loop. -/
def iteration (m : Registers) : Outcome Registers :=
  if m.currentWord > 0xffff then .rejected
  else match m.state with
  | .fword => wordRound text pushFront .fcolon m
  | .fcolon => colonRound text m
  | .bword => wordRound text pushBack .bword m
  | .scope => scopeRound text m
  | .done => return m

/-- The copy of the first octets from the back, up to a number of them. -/
def copyBack (m : Registers) : ℕ → Outcome Bytes
  | 0 => .done m.bytes
  | i+1 => do
    let bytes ← copyBack m i
    let off ← sub 16 m.numBackBytes
    store bytes (off+i) (← load m.backBytes i)

/-- The loop with what follows it. -/
def round (m : Registers) : Registers ⊕ Outcome Bytes :=
  if m.state = .done then .inr (copyBack m m.numBackBytes)
  else match iteration text m with
  | .done m => .inl m
  | .rejected => .inr .rejected
  | .fault f => .inr (.fault f)

end Rounds

/-- The invariant of the loop. Nothing is at the back as long as the front is filled: only
one of the two tests for sixteen octets looks at both counters. -/
structure Bounds (text : Bytes) (m : Registers) : Prop where
  position : m.p ≤ text.length
  frontFirst : m.state = .fword ∨ m.state = .fcolon → m.numBackBytes = 0
  frontEven : Even m.numFrontBytes
  backEven : Even m.numBackBytes
  room : m.numFrontBytes+m.numBackBytes ≤ 16
  word : m.currentWord < 2^20
  bytesSize : m.bytes.length = 16
  backSize : m.backBytes.length = 16

/-- An array that has been filled up to some number of its octets. -/
def filled (data : Bytes) : Bytes := data ++ List.replicate (16-data.length) 0

/-- The automaton on texts in the same place. -/
structure Simulates (text : Bytes) (m : Registers) (s : Scan) : Prop where
  state : m.state = s.state
  p : text.drop m.p = s.p
  current : m.currentWord = s.currentWord
  bytes : m.bytes = filled s.front
  backBytes : m.backBytes = filled s.back
  numFront : m.numFrontBytes = s.front.length
  numBack : m.numBackBytes = s.back.length

structure Tracks (text : Bytes) (m : Registers) (s : Scan) : Prop
    extends Bounds text m, Simulates text m s

theorem high_low (s : Scan) : [high s.currentWord,low s.currentWord] = wordBytes s := by
  have hmask : ∀ v, UInt8.ofNat (v &&& 0xff) = UInt8.ofNat v := by
    intro v
    have hand : v &&& 0xff = v % 2^8 := Nat.and_two_pow_sub_one_eq_mod v 8
    apply UInt8.toNat_inj.mp
    rw [UInt8.toNat_ofNat', UInt8.toNat_ofNat', hand]
    omega
  rw [high, low, hmask, hmask, Nat.shiftRight_eq_div_pow, wordBytes]

theorem filled_length (data : Bytes) (h : data.length ≤ 16) : (filled data).length = 16 := by
  rw [filled, List.length_append, List.length_replicate]
  omega

/-- The octet behind those that have been stored. -/
theorem store_filled (data : Bytes) (i : ℕ) (v : UInt8) (hi : i = data.length) (h : i < 16) :
    store (filled data) i v = .done (filled (data ++ [v])) := by
  subst hi
  obtain ⟨k,hk⟩ : ∃ k, 16-data.length = k+1 := ⟨15-data.length,by omega⟩
  have hset : (filled data).set data.length v = filled (data ++ [v]) := by
    have hk' : 16-(data ++ [v]).length = k := by
      rw [List.length_append, List.length_singleton]
      omega
    rw [filled, filled, hk, hk', List.set_append_right _ _ (Nat.le_refl _), Nat.sub_self,
      List.replicate_succ, List.set_cons_zero, List.append_assoc]
    rfl
  rw [store_inside _ _ _ (by rw [filled_length data (by omega)]; exact h), hset]

/-- The two octets of a word, behind those that have been stored. -/
theorem store_word {α : Type} (data : Bytes) (i : ℕ) (s : Scan) (k : Bytes → Outcome α)
    (hi : i = data.length) (h : i+2 ≤ 16) :
    (do
      let bytes ← store (filled data) i (high s.currentWord)
      let bytes ← store bytes (i+1) (low s.currentWord)
      k bytes) = k (filled (data ++ wordBytes s)) := by
  have hi' : i+1 = (data ++ [high s.currentWord]).length := by
    rw [hi, List.length_append, List.length_singleton]
  rw [store_filled _ _ _ hi (by omega), done_bind, store_filled _ _ _ hi' (by omega), done_bind,
    List.append_assoc, List.singleton_append, high_low]

/-- A register of 32 bits holds what a word of sixteen bits becomes with one more digit. -/
theorem shiftIn_inside (base first plus : ℕ) (c : UInt8) (m : Registers)
    (hw : m.currentWord ≤ 0xffff) (hb : base ≤ 16) (hf : first ≤ c.toNat) (hp : plus ≤ 10) :
    shiftIn base first plus c m =
      .done { m with currentWord := m.currentWord*base+(c.toNat-first+plus), p := m.p+1 } := by
  have hc := c.toNat_lt
  have hmul : m.currentWord*base ≤ 0xffff*16 := Nat.mul_le_mul hw hb
  rw [shiftIn, word_inside 32 _ (by omega), done_bind, word_inside 32 _ (by omega), done_bind,
    sub_inside _ _ (by omega), done_bind, word_inside 32 _ (by omega), done_bind, pure_done]
  congr 2
  omega

/-- What is read in the text, or at its end. -/
theorem read_cases (text : Bytes) (m : Registers) (hz : 0 ∉ text) (hp : m.p ≤ text.length) :
    ∃ c, read text m = .done c ∧
      (m.p < text.length ∧ c ≠ 0 ∧ text.drop m.p = c::text.drop (m.p+1) ∨
        c = 0 ∧ text.drop m.p = []) := by
  refine ⟨text.getD m.p 0,index_inside text 0 m.p hp,?_⟩
  rcases Nat.lt_or_ge m.p text.length with h | h
  · have hget : text.getD m.p 0 = text[m.p] := by
      rw [List.getD_eq_getElem?_getD, List.getElem?_eq_getElem h, Option.getD_some]
    refine .inl ⟨h,?_,?_⟩
    · rw [hget]
      exact fun h0 => hz (h0 ▸ List.getElem_mem h)
    · rw [hget, List.drop_eq_getElem_cons h]
  · refine .inr ⟨?_,List.drop_of_length_le h⟩
    rw [List.getD_eq_getElem?_getD, List.getElem?_eq_none h, Option.getD_none]

section Rounds

variable {text : Bytes} {m : Registers} {s : Scan}

/-- A step of the automaton that only reads. -/
theorem Tracks.move (h : Tracks text m s) (state : State) (p : ℕ)
    (hfront : state = .fword ∨ state = .fcolon → m.numBackBytes = 0) (hp : p ≤ text.length) :
    Tracks text { m with state := state, p := p } { s with state := state, p := text.drop p } :=
  { h with
    position := hp
    frontFirst := hfront
    state := rfl
    p := rfl }

/-- The test at the head of the loop comes one round late, but a digit more is no overflow. -/
theorem Tracks.shift (h : Tracks text m s) (base d : ℕ) (hw : m.currentWord ≤ 0xffff)
    (hb : base ≤ 16) (hd : d < 16) (hp : m.p < text.length) :
    Tracks text { m with currentWord := m.currentWord*base+d, p := m.p+1 }
      { s with currentWord := s.currentWord*base+d, p := text.drop (m.p+1) } := by
  have hmul : m.currentWord*base ≤ 0xffff*16 := Nat.mul_le_mul hw hb
  have hword : m.currentWord*base+d < 2^20 := by omega
  exact { h with
    position := hp
    word := hword
    p := rfl
    current := congrArg (fun w => w*base+d) h.current }

/-- The counters are even, so where there is room for an octet there is room for two. -/
theorem pushFront_meets (h : Tracks text m s) (hback : m.numBackBytes = 0) :
    Meets (pushFront m) (InetPton.pushFront s = none) fun m' =>
      m'.p = m.p ∧ m'.numBackBytes = 0 ∧
      ∃ s', InetPton.pushFront s = some s' ∧ s'.p = s.p ∧ Tracks text m' s' := by
  unfold pushFront InetPton.pushFront
  rw [← h.numFront]
  split_ifs with h16
  · rfl
  · obtain ⟨k,hk⟩ := h.frontEven
    have hroom := h.room
    have hlen := h.numFront
    have hlen' : (s.front ++ wordBytes s).length = m.numFrontBytes+2 := by
      rw [List.length_append, hlen]
      rfl
    rw [h.bytes, h.current, store_word _ _ s _ hlen (by omega)]
    refine ⟨rfl,hback,_,rfl,rfl,{ h with
      frontEven := ⟨k+1,by change m.numFrontBytes+2 = _; omega⟩
      room := by change m.numFrontBytes+2+m.numBackBytes ≤ 16; omega
      word := Nat.two_pow_pos 20
      bytesSize := filled_length _ (by omega)
      current := rfl
      bytes := rfl
      numFront := hlen'.symm }⟩

theorem pushBack_meets (h : Tracks text m s) (hst : m.state = .bword) :
    Meets (pushBack m) (InetPton.pushBack s = none) fun m' =>
      m'.p = m.p ∧ ∃ s', InetPton.pushBack s = some s' ∧ s'.p = s.p ∧ Tracks text m' s' := by
  unfold pushBack InetPton.pushBack
  rw [← h.numFront, ← h.numBack]
  split_ifs with h16
  · rfl
  · obtain ⟨i,hi⟩ := h.frontEven
    obtain ⟨j,hj⟩ := h.backEven
    have hroom := h.room
    have hlen := h.numBack
    have hlen' : (s.back ++ wordBytes s).length = m.numBackBytes+2 := by
      rw [List.length_append, hlen]
      rfl
    rw [h.backBytes, h.current, store_word _ _ s _ hlen (by omega)]
    refine ⟨rfl,_,rfl,rfl,{ h with
      frontFirst := fun hfront => by simp [hst] at hfront
      backEven := ⟨j+1,by change m.numBackBytes+2 = _; omega⟩
      room := by change m.numFrontBytes+(m.numBackBytes+2) ≤ 16; omega
      word := Nat.two_pow_pos 20
      backSize := filled_length _ (by omega)
      current := rfl
      backBytes := rfl
      numBack := hlen'.symm }⟩

theorem wordRound_digit (push : Registers → Outcome Registers) (colon : State) (c : UInt8)
    (d : ℕ) (hread : read text m = .done c) (hd : hexDigit c = some d)
    (hw : m.currentWord ≤ 0xffff) :
    d < 16 ∧ wordRound text push colon m =
      .done { m with currentWord := m.currentWord*16+d, p := m.p+1 } := by
  unfold hexDigit at hd
  rw [wordRound, hread, done_bind]
  split_ifs at hd ⊢ with h1 h2 h3 <;> obtain rfl := Option.some.inj hd
  · exact ⟨by omega,shiftIn_inside 16 48 0 c m hw (by decide) h1.1 (by decide)⟩
  · exact ⟨by omega,shiftIn_inside 16 97 10 c m hw (by decide) h2.1 (by decide)⟩
  · exact ⟨by omega,shiftIn_inside 16 65 10 c m hw (by decide) h3.1 (by decide)⟩

theorem wordRound_other (push : Registers → Outcome Registers) (colon : State) (c : UInt8)
    (hread : read text m = .done c) (hd : hexDigit c = none) :
    wordRound text push colon m = (do
      let m ← push m
      if c = 0x3a then return { m with state := colon, p := m.p+1 }
      else if c = 0x25 then return { m with state := .scope, p := m.p+1 }
      else if c = 0 then return { m with state := .done }
      else .rejected) := by
  unfold hexDigit at hd
  rw [wordRound, hread, done_bind]
  split_ifs at hd with h1 h2 h3
  rw [if_neg h1, if_neg h2, if_neg h3]

/-- A round in a word, with what the octets of the word are pushed to. -/
theorem word_meets (push : Registers → Outcome Registers) (push' : Scan → Option Scan)
    (colon : State) (hz : 0 ∉ text) (h : Tracks text m s) (hw : m.currentWord ≤ 0xffff)
    (hpush : Meets (push m) (push' s = none) fun m' =>
      m'.p = m.p ∧ (colon = .fword ∨ colon = .fcolon → m'.numBackBytes = 0) ∧
      ∃ s', push' s = some s' ∧ s'.p = s.p ∧ Tracks text m' s') :
    Meets (wordRound text push colon m) (InetPton.word push' colon s = .inr none) fun m' =>
      ∃ s', InetPton.word push' colon s = .inl s' ∧ Tracks text m' s' := by
  obtain ⟨c,hread,⟨hlt,h0,hdrop⟩ | ⟨rfl,hdrop⟩⟩ := read_cases text m hz h.position
  · rw [InetPton.word, ← h.p, hdrop]
    dsimp only
    cases hd : hexDigit c with
    | some d =>
      obtain ⟨hd16,hround⟩ := wordRound_digit push colon c d hread hd hw
      rw [hround]
      exact ⟨_,rfl,h.shift 16 d hw (by decide) hd16 hlt⟩
    | none =>
      rw [wordRound_other push colon c hread hd]
      refine hpush.bind ?_ ?_
      · intro hnone
        rw [hnone]
      · rintro m' ⟨hp,hback,s',hs',-,ht⟩
        rw [hs', ← hp]
        have hpos : m'.p+1 ≤ text.length := by omega
        dsimp only
        split_ifs with hc hc'
        · exact ⟨_,rfl,ht.move colon (m'.p+1) hback hpos⟩
        · exact ⟨_,rfl,ht.move .scope (m'.p+1) (by simp) hpos⟩
        · rfl
  · rw [InetPton.word, ← h.p, hdrop, wordRound_other push colon 0 hread (by decide)]
    dsimp only
    refine hpush.bind ?_ ?_
    · intro hnone
      rw [hnone]
    · rintro m' ⟨hp,-,s',hs',hsp,ht⟩
      rw [hs']
      have hmove := ht.move .done m'.p (by simp) ht.position
      rw [ht.p] at hmove
      exact ⟨_,rfl,hmove⟩

theorem colon_meets (hz : 0 ∉ text) (h : Tracks text m s) (hst : m.state = .fcolon)
    (hw : m.currentWord ≤ 0xffff) :
    Meets (colonRound text m) (InetPton.round s = .inr none) fun m' =>
      ∃ s', InetPton.round s = .inl s' ∧ Tracks text m' s' := by
  have hs : s.state = .fcolon := h.state.symm.trans hst
  have hw' : ¬ s.currentWord > 0xffff := Nat.not_lt.mpr (h.current ▸ hw)
  have hstay := h.move .fword m.p (fun _ => h.frontFirst (.inr hst)) h.position
  rw [h.p] at hstay
  obtain ⟨c,hread,⟨hlt,h0,hdrop⟩ | ⟨rfl,hdrop⟩⟩ := read_cases text m hz h.position
  · rw [h.p] at hdrop
    rw [colonRound, hread, done_bind]
    split_ifs with hc
    · have hround : InetPton.round s =
          .inl { s with state := .bword, p := text.drop (m.p+1) } := by
        simp [InetPton.round, hs, hw', hdrop, hc]
      exact ⟨_,hround,h.move .bword (m.p+1) (by simp) hlt⟩
    · have hround : InetPton.round s = .inl { s with state := .fword } := by
        simp [InetPton.round, hs, hw', hdrop, hc]
      exact ⟨_,hround,hstay⟩
  · rw [h.p] at hdrop
    rw [colonRound, hread, done_bind, if_neg (by decide)]
    have hround : InetPton.round s = .inl { s with state := .fword } := by
      simp [InetPton.round, hs, hw', hdrop]
    exact ⟨_,hround,hstay⟩

theorem scope_meets (hz : 0 ∉ text) (h : Tracks text m s) (hst : m.state = .scope)
    (hw : m.currentWord ≤ 0xffff) :
    Meets (scopeRound text m) (InetPton.round s = .inr none) fun m' =>
      ∃ s', InetPton.round s = .inl s' ∧ Tracks text m' s' := by
  have hs : s.state = .scope := h.state.symm.trans hst
  have hw' : ¬ s.currentWord > 0xffff := Nat.not_lt.mpr (h.current ▸ hw)
  obtain ⟨c,hread,⟨hlt,h0,hdrop⟩ | ⟨rfl,hdrop⟩⟩ := read_cases text m hz h.position
  · rw [h.p] at hdrop
    rw [scopeRound, hread, done_bind]
    split_ifs with hd
    · have hdigit : decDigit c = some (c.toNat-48) := if_pos hd
      have hround : InetPton.round s = .inl { s with
          currentWord := s.currentWord*10+(c.toNat-48), p := text.drop (m.p+1) } := by
        simp [InetPton.round, hs, hw', hdrop, hdigit]
      rw [shiftIn_inside 10 48 0 c m hw (by decide) hd.1 (by decide)]
      exact ⟨_,hround,h.shift 10 _ hw (by decide) (by omega) hlt⟩
    · have hdigit : decDigit c = none := if_neg hd
      have hround : InetPton.round s = .inr none := by
        simp [InetPton.round, hs, hw', hdrop, hdigit]
      exact hround
  · rw [h.p] at hdrop
    rw [scopeRound, hread, done_bind, if_neg (by decide), if_pos rfl]
    have hround : InetPton.round s = .inl s := by
      simp [InetPton.round, hs, hw', hdrop]
    exact ⟨s,hround,h⟩

/-- No access of an iteration is out of range, and it keeps the invariant. -/
theorem iteration_meets (hz : 0 ∉ text) (h : Tracks text m s) (hst : m.state ≠ .done) :
    Meets (iteration text m) (InetPton.round s = .inr none) fun m' =>
      ∃ s', InetPton.round s = .inl s' ∧ Tracks text m' s' := by
  have hdone : ¬ s.state = .done := h.state ▸ hst
  unfold iteration
  split_ifs with hw
  · exact InetPton.round_large s hdone (h.current ▸ hw)
  · rw [Nat.not_lt] at hw
    have hw' : ¬ s.currentWord > 0xffff := Nat.not_lt.mpr (h.current ▸ hw)
    cases hs : m.state with
    | fword =>
      have hround : InetPton.round s = InetPton.word InetPton.pushFront .fcolon s := by
        simp [InetPton.round, ← h.state, hs, hw']
      rw [hround]
      refine word_meets pushFront _ .fcolon hz h hw
        ((pushFront_meets h (h.frontFirst (.inl hs))).mono id ?_)
      rintro m' ⟨hp,hback',hpushed⟩
      exact ⟨hp,fun _ => hback',hpushed⟩
    | fcolon => exact colon_meets hz h hs hw
    | bword =>
      have hround : InetPton.round s = InetPton.word InetPton.pushBack .bword s := by
        simp [InetPton.round, ← h.state, hs, hw']
      rw [hround]
      refine word_meets pushBack _ .bword hz h hw ((pushBack_meets h hs).mono id ?_)
      rintro m' ⟨hp,hpushed⟩
      exact ⟨hp,by simp,hpushed⟩
    | scope => exact scope_meets hz h hs hw
    | done => exact absurd hs hst

/-- The copy writes the octets at the end of the array. -/
theorem copyBack_inside (h : Bounds text m) (i : ℕ) (hi : i ≤ m.numBackBytes) :
    copyBack m i = .done (m.bytes.take (16-m.numBackBytes) ++ m.backBytes.take i ++
      m.bytes.drop (16-m.numBackBytes+i)) := by
  have hroom := h.room
  have hback := h.backSize
  have hsize := h.bytesSize
  induction i with
  | zero => simp [copyBack]
  | succ i ih =>
    have hget : i < m.backBytes.length := by omega
    have hlen : (m.bytes.take (16-m.numBackBytes) ++ m.backBytes.take i).length =
        16-m.numBackBytes+i := by
      rw [List.length_append, List.length_take, List.length_take]
      omega
    have hcell : m.bytes.drop (16-m.numBackBytes+i) =
        m.bytes[16-m.numBackBytes+i]::m.bytes.drop (16-m.numBackBytes+(i+1)) :=
      List.drop_eq_getElem_cons (by omega)
    rw [copyBack, ih (by omega), done_bind, sub_inside 16 _ (by omega), done_bind,
      load_inside _ _ _ (List.getElem?_eq_getElem hget), done_bind,
      store_inside _ _ _ (by rw [List.length_append, hlen, hcell]; simp),
      List.set_append_right _ _ (by omega), hlen, Nat.sub_self, hcell, List.set_cons_zero,
      List.take_succ_eq_append_getElem hget]
    simp only [List.append_assoc, List.cons_append, List.nil_append]

/-- The octets of the front are where they were. -/
theorem copyBack_front (h : Bounds text m) : ∃ bytes, copyBack m m.numBackBytes = .done bytes ∧
    bytes.take m.numFrontBytes = m.bytes.take m.numFrontBytes := by
  have hroom := h.room
  have hsize := h.bytesSize
  refine ⟨_,copyBack_inside h m.numBackBytes (Nat.le_refl _),?_⟩
  rw [List.append_assoc, List.take_append_of_le_length (by rw [List.length_take]; omega),
    List.take_take, Nat.min_eq_left (by omega)]

theorem fill_filled (data : Bytes) (h : data.length ≤ 16) :
    ((default : Buffer 16).fill data).bytes = filled data := by
  rw [Buffer.fill, Buffer.fillAt_bytes _ _ _ (by omega)]
  change [] ++ data ++ (List.replicate 16 0).drop (0+data.length) = _
  rw [List.nil_append, List.drop_replicate, Nat.zero_add, filled]

theorem copyBack_result (h : Tracks text m s) :
    copyBack m m.numBackBytes = .done (InetPton.result s).bytes := by
  have hroom := h.room
  have hfront := h.numFront
  have hback := h.numBack
  rw [copyBack_inside h.toBounds _ (Nat.le_refl _), InetPton.result,
    Buffer.fillAt_bytes _ _ _ (by omega), fill_filled _ (by omega), h.bytes, h.backBytes, hback]
  simp [filled]

/-- The two loops go round and return together. -/
theorem round_tracks (hz : 0 ∉ text) (h : Tracks text m s) :
    (∃ m' s', round text m = .inl m' ∧ InetPton.round s = .inl s' ∧ Tracks text m' s') ∨
    ∃ r r', round text m = .inr r ∧ InetPton.round s = .inr r' ∧ (∀ f, r ≠ .fault f) ∧
      r.result = r'.map Buffer.bytes := by
  by_cases hst : m.state = .done
  · refine .inr ⟨_,some (InetPton.result s),if_pos hst,if_pos (h.state ▸ hst),?_,?_⟩ <;>
      rw [copyBack_result h]
    · simp
    · rfl
  · have hmeets := iteration_meets hz h hst
    rw [round, if_neg hst]
    cases hm : iteration text m with
    | fault f => exact absurd hm (hmeets.no_fault f)
    | rejected =>
      rw [hm] at hmeets
      exact .inr ⟨.rejected,none,rfl,hmeets,by simp,rfl⟩
    | done m' =>
      rw [hm] at hmeets
      obtain ⟨s',hs',ht⟩ := hmeets
      exact .inl ⟨m',s',rfl,hs',ht⟩

end Rounds

theorem cstr_terminated (src : Bytes) : 0 ∉ cstr src := by
  intro h
  simpa using List.mem_takeWhile_imp h

theorem start_tracks (src : Bytes) : Tracks (cstr src) {} { p := cstr src } where
  position := Nat.zero_le _
  frontFirst := fun _ => rfl
  frontEven := ⟨0,rfl⟩
  backEven := ⟨0,rfl⟩
  room := Nat.zero_le _
  word := Nat.two_pow_pos 20
  bytesSize := rfl
  backSize := rfl
  state := rfl
  p := rfl
  current := rfl
  bytes := rfl
  backBytes := rfl
  numFront := rfl
  numBack := rfl

theorem reached_tracks (src : Bytes) (m : Registers)
    (h : Loop.Reached (round (cstr src)) {} m) : ∃ s, Tracks (cstr src) m s := by
  refine h.invariant _ (fun m => ∃ s, Tracks (cstr src) m s) {} m ⟨_,start_tracks src⟩ ?_
  rintro t u ⟨s,hs⟩ hu
  rcases round_tracks (cstr_terminated src) hs with ⟨m',s',hm,-,ht⟩ | ⟨r,r',hr,-⟩
  · obtain rfl := Sum.inl.inj (hu.symm.trans hm)
    exact ⟨s',ht⟩
  · exact absurd (hu.symm.trans hr) Sum.inl_ne_inr

/-- The invariant holds after every round for every text, also in a loop that never ends. No
round reads behind the end of the text, writes outside of an array or overflows, and neither
does the copy at the end, which leaves the octets of the front as they are. -/
theorem inet_pton_bounds (src : Bytes) (m : Registers)
    (h : Loop.Reached (round (cstr src)) {} m) :
    Bounds (cstr src) m ∧ (∀ f, round (cstr src) m ≠ .inr (.fault f)) ∧
    (∀ i < m.numBackBytes, m.numFrontBytes ≤ 16-m.numBackBytes+i) ∧
    (m.state = .done → ∃ bytes, round (cstr src) m = .inr (.done bytes) ∧
      bytes.take m.numFrontBytes = m.bytes.take m.numFrontBytes) := by
  obtain ⟨s,hs⟩ := reached_tracks src m h
  have hroom := hs.room
  refine ⟨hs.toBounds,fun f hf => ?_,fun i hi => by omega,fun hst => ?_⟩
  · rcases round_tracks (cstr_terminated src) hs with ⟨m',s',hm,-⟩ | ⟨r,r',hr,-,hfault,-⟩
    · exact absurd (hm.symm.trans hf) Sum.inl_ne_inr
    · exact hfault f (Sum.inr.inj (hr.symm.trans hf))
  · obtain ⟨bytes,hcopy,hfront⟩ := copyBack_front hs.toBounds
    refine ⟨bytes,?_,hfront⟩
    rw [round, if_pos hst, hcopy]

/-- Octets stand at the front and at the back of "1::2". -/
theorem inet_pton_bounds_both : ∃ m : Registers, m.numFrontBytes = 2 ∧ m.numBackBytes = 2 ∧
    ∃ bytes, round (cstr (ascii "1::2")) m = .inr (.done bytes) ∧
      bytes.take m.numFrontBytes = m.bytes.take m.numFrontBytes :=
  ⟨_,rfl,rfl,(inet_pton_bounds (ascii "1::2") _ (.round _ _ (.round _ _ (.round _ _ (.round _ _
    (.round _ _ .start rfl) rfl) rfl) rfl) rfl)).2.2.2 rfl⟩

/-- The loop returns what the automaton on texts returns, in as many rounds. -/
theorem eval_round (fuel : ℕ) (src : Bytes) :
    (Loop.eval (round (cstr src)) fuel {}).map Outcome.result =
      (inetPton6 fuel src).map (Option.map Buffer.bytes) := by
  refine Loop.eval_simulation _ _ _ _ (Tracks (cstr src)) ?_ fuel _ _ (start_tracks src)
  intro m s h
  rcases round_tracks (cstr_terminated src) h with hgo | ⟨r,r',hr,hs,-,hresult⟩
  · exact .inl hgo
  · exact .inr ⟨r,r',hr,hs,hresult⟩

end ProxySwiss.InetPtonBounds
