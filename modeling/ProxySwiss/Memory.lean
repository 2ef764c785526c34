import Mathlib.Algebra.Ring.Nat
import Mathlib.Data.List.Basic

/-!
# Fixed arrays and byte order

A buffer is an array whose length is part of its type, overwritten in place.
Integers are laid out little-endian, so `htons` and `htonl` swap bytes.
-/

set_option autoImplicit false

namespace Memory

abbrev Bytes := List UInt8

structure Buffer (n : ℕ) where
  bytes : Bytes
  size : bytes.length = n
  deriving DecidableEq

namespace Buffer

variable {n : ℕ}

def zero (n : ℕ) : Buffer n := ⟨List.replicate n 0,List.length_replicate⟩

instance : Inhabited (Buffer n) := ⟨zero n⟩

/-- Indices in the source are constants below the size; past the end is zero. -/
instance : GetElem (Buffer n) ℕ UInt8 fun _ _ => True where
  getElem b i _ := b.bytes.getD i 0

/-- `data` is written at `off`; what would lie past the end is not stored. -/
def fillAt (b : Buffer n) (off : ℕ) (data : Bytes) : Buffer n where
  bytes := (b.bytes.take off ++ data ++ b.bytes.drop (off+data.length)).take n
  size := by
    have := b.size
    simp only [List.length_take, List.length_append, List.length_drop]
    omega

def fill (b : Buffer n) (data : Bytes) : Buffer n := b.fillAt 0 data

/-- `len` bytes from `off` on. -/
def slice (b : Buffer n) (off len : ℕ) : Bytes := (b.bytes.drop off).take len

theorem fillAt_bytes (b : Buffer n) (off : ℕ) (data : Bytes) (h : off+data.length ≤ n) :
    (b.fillAt off data).bytes =
      b.bytes.take off ++ data ++ b.bytes.drop (off+data.length) := by
  apply List.take_of_length_le
  have := b.size
  simp only [List.length_take, List.length_append, List.length_drop]
  omega

theorem fill_bytes (b : Buffer n) (data : Bytes) (h : data.length = n) :
    (b.fill data).bytes = data := by
  have hd : b.bytes.drop n = [] := List.drop_of_length_le (Nat.le_of_eq b.size)
  rw [fill, fillAt_bytes _ _ _ (by omega)]
  simp [h, hd]

theorem fill_eq (b : Buffer n) (data : Bytes) (h : data.length = n) :
    b.fill data = ⟨data,h⟩ := by
  have hb := fill_bytes b data h
  cases hf : b.fill data with
  | mk bytes size => simpa [hf] using hb

theorem slice_fillAt (b : Buffer n) (off : ℕ) (data : Bytes) (i len : ℕ)
    (h : off+data.length ≤ n) (hi : i+len ≤ data.length) :
    (b.fillAt off data).slice (off+i) len = (data.drop i).take len := by
  have hoff : (b.bytes.take off).length = off := by
    have := b.size
    simp only [List.length_take]
    omega
  rw [slice, fillAt_bytes _ _ _ h, List.append_assoc, List.drop_append, hoff,
    List.drop_of_length_le (by omega), Nat.add_sub_cancel_left, List.nil_append,
    List.drop_append_of_le_length (by omega),
    List.take_append_of_le_length (by simp only [List.length_drop]; omega)]

theorem slice_fill (b : Buffer n) (data : Bytes) (i len : ℕ) (h : data.length ≤ n)
    (hi : i+len ≤ data.length) : (b.fill data).slice i len = (data.drop i).take len := by
  have := slice_fillAt b 0 data i len (by omega) hi
  rwa [Nat.zero_add] at this

theorem fill_first (b : Buffer n) (x : UInt8) (data : Bytes) (h : (x::data).length ≤ n) :
    (b.fill (x::data))[0] = x := by
  change (b.fillAt 0 (x::data)).bytes.getD 0 0 = x
  simp [fillAt_bytes b 0 (x::data) (by omega)]

/-- What is written further on leaves the first byte alone. -/
theorem fillAt_first (b : Buffer n) (off : ℕ) (data : Bytes) (h : off+data.length ≤ n)
    (ho : 0 < off) : (b.fillAt off data)[0] = b[0] := by
  have hb := b.size
  obtain ⟨x,rest,hx⟩ : ∃ x rest, b.bytes = x::rest :=
    List.exists_cons_of_ne_nil (List.ne_nil_of_length_pos (by omega))
  obtain ⟨k,rfl⟩ : ∃ k, off = k+1 := ⟨off-1,by omega⟩
  change (b.fillAt (k+1) data).bytes.getD 0 0 = b.bytes.getD 0 0
  simp [fillAt_bytes b (k+1) data h, hx]

end Buffer

/-! The byte `lo16` is the first of an integer in memory. -/

def lo16 (v : UInt16) : UInt8 := UInt8.ofNat (v.toNat % 256)
def hi16 (v : UInt16) : UInt8 := UInt8.ofNat (v.toNat / 256)
def ofLe16 (a b : UInt8) : UInt16 := UInt16.ofNat (a.toNat+256*b.toNat)
def le16 (v : UInt16) : Bytes := [lo16 v,hi16 v]
def htons (v : UInt16) : UInt16 := ofLe16 (hi16 v) (lo16 v)

@[simp] theorem lo16_ofLe16 (a b : UInt8) : lo16 (ofLe16 a b) = a := by
  have ha := a.toNat_lt
  have hb := b.toNat_lt
  apply UInt8.toNat_inj.mp
  simp only [lo16, ofLe16, UInt8.toNat_ofNat', UInt16.toNat_ofNat']
  omega

@[simp] theorem hi16_ofLe16 (a b : UInt8) : hi16 (ofLe16 a b) = b := by
  have ha := a.toNat_lt
  have hb := b.toNat_lt
  apply UInt8.toNat_inj.mp
  simp only [hi16, ofLe16, UInt8.toNat_ofNat', UInt16.toNat_ofNat']
  omega

@[simp] theorem ofLe16_lo16_hi16 (v : UInt16) : ofLe16 (lo16 v) (hi16 v) = v := by
  have hv := v.toNat_lt
  apply UInt16.toNat_inj.mp
  simp only [lo16, hi16, ofLe16, UInt8.toNat_ofNat', UInt16.toNat_ofNat']
  omega

theorem ofLe16_swap (p q : UInt8) : ofLe16 p q = ofLe16 q p ↔ p = q := by
  constructor
  · intro h
    simpa using congrArg lo16 h
  · rintro rfl
    rfl

theorem le16_htons (v : UInt16) : le16 (htons v) = [hi16 v,lo16 v] := by
  simp [le16, htons]

/-- The port read back as it lies in memory, without conversion, is the port
that was sent only when its two octets agree. -/
theorem swapped_iff (v : UInt16) : ofLe16 (hi16 v) (lo16 v) = v ↔ hi16 v = lo16 v := by
  constructor
  · intro h
    have := congrArg lo16 h
    simpa using this
  · intro h
    rw [h]
    nth_rewrite 2 [← h]
    exact ofLe16_lo16_hi16 v

def byte32 (v : UInt32) (i : ℕ) : UInt8 := UInt8.ofNat (v.toNat / 256^i % 256)
def ofLe32 (a b c d : UInt8) : UInt32 :=
  UInt32.ofNat (a.toNat+256*b.toNat+256^2*c.toNat+256^3*d.toNat)
def le32 (v : UInt32) : Bytes := [byte32 v 0,byte32 v 1,byte32 v 2,byte32 v 3]
def htonl (v : UInt32) : UInt32 := ofLe32 (byte32 v 3) (byte32 v 2) (byte32 v 1) (byte32 v 0)

theorem ofLe32_toNat (a b c d : UInt8) :
    (ofLe32 a b c d).toNat = a.toNat+256*b.toNat+256^2*c.toNat+256^3*d.toNat := by
  have ha := a.toNat_lt
  have hb := b.toNat_lt
  have hc := c.toNat_lt
  have hd := d.toNat_lt
  simp only [ofLe32, UInt32.toNat_ofNat']
  omega

theorem byte32_ofLe32 (a b c d : UInt8) :
    byte32 (ofLe32 a b c d) 0 = a ∧ byte32 (ofLe32 a b c d) 1 = b ∧
      byte32 (ofLe32 a b c d) 2 = c ∧ byte32 (ofLe32 a b c d) 3 = d := by
  have ha := a.toNat_lt
  have hb := b.toNat_lt
  have hc := c.toNat_lt
  have hd := d.toNat_lt
  refine ⟨?_,?_,?_,?_⟩ <;> apply UInt8.toNat_inj.mp <;>
    simp only [byte32, ofLe32_toNat, UInt8.toNat_ofNat'] <;> omega

theorem ofLe32_byte32 (v : UInt32) :
    ofLe32 (byte32 v 0) (byte32 v 1) (byte32 v 2) (byte32 v 3) = v := by
  have hv := v.toNat_lt
  apply UInt32.toNat_inj.mp
  simp only [ofLe32_toNat, byte32, UInt8.toNat_ofNat']
  omega

theorem le32_htonl (v : UInt32) :
    le32 (htonl v) = [byte32 v 3,byte32 v 2,byte32 v 1,byte32 v 0] := by
  obtain ⟨h0,h1,h2,h3⟩ := byte32_ofLe32 (byte32 v 3) (byte32 v 2) (byte32 v 1) (byte32 v 0)
  simp only [le32, htonl, h0, h1, h2, h3]

theorem htons_ofLe16 (a b : UInt8) : htons (ofLe16 a b) = ofLe16 b a := by
  simp [htons]

theorem htonl_ofLe32 (a b c d : UInt8) : htonl (ofLe32 a b c d) = ofLe32 d c b a := by
  obtain ⟨h0,h1,h2,h3⟩ := byte32_ofLe32 a b c d
  rw [htonl, h0, h1, h2, h3]

/-! Integers read at an offset of a buffer, as a pointer to them would. -/

def Buffer.uint16At {n : ℕ} (b : Buffer n) (off : ℕ) : UInt16 :=
  match b.slice off 2 with
  | [x,y] => ofLe16 x y
  | _ => 0

def Buffer.uint32At {n : ℕ} (b : Buffer n) (off : ℕ) : UInt32 :=
  match b.slice off 4 with
  | [x,y,z,w] => ofLe32 x y z w
  | _ => 0

end Memory
