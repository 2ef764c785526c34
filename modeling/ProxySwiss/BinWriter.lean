import ProxySwiss.Memory

/-!
# The bounded binary writer

Every write reports whether there was room for it. A writer built over a
string alone is unlimited, which the source encodes as the largest `size_t`.
-/

set_option autoImplicit false

namespace ProxySwiss
open Memory

def sizeMax : ℕ := 2^64-1

structure BinWriter where
  buf : Bytes
  curPos : ℕ
  maxToWrite : ℕ
  deriving DecidableEq, Repr

namespace BinWriter

def ofString (buf : Bytes) : BinWriter := ⟨buf,0,sizeMax⟩

def spaceLeft (w : BinWriter) : ℕ :=
  if w.maxToWrite = sizeMax then sizeMax else (w.maxToWrite+2^64-w.curPos) % 2^64

/-- `rawLen` bytes at `raw`; the length is a 32-bit argument. -/
def writeRaw (w : BinWriter) (raw : Bytes) (rawLen : UInt32) : Bool × BinWriter :=
  if w.spaceLeft < rawLen.toNat then (false,w)
  else (true,⟨w.buf ++ raw.take rawLen.toNat,(w.curPos+rawLen.toNat) % 2^64,w.maxToWrite⟩)

def writeUint8 (w : BinWriter) (v : UInt8) : Bool × BinWriter := w.writeRaw [v] 1
def writeUint16 (w : BinWriter) (v : UInt16) : Bool × BinWriter := w.writeRaw (le16 v) 2
def writeUint32 (w : BinWriter) (v : UInt32) : Bool × BinWriter := w.writeRaw (le32 v) 4

/-- A writer over a string alone accepts every write and appends all of it. -/
@[simp] theorem writeRaw_string (buf : Bytes) (pos : ℕ) (raw : Bytes) (rawLen : UInt32) :
    writeRaw ⟨buf,pos,sizeMax⟩ raw rawLen =
      (true,⟨buf ++ raw.take rawLen.toNat,(pos+rawLen.toNat) % 2^64,sizeMax⟩) := by
  have hlen := rawLen.toNat_lt
  have hs : ¬ spaceLeft ⟨buf,pos,sizeMax⟩ < rawLen.toNat := by
    simp only [spaceLeft, if_true, sizeMax]
    omega
  rw [writeRaw, if_neg hs]

@[simp] theorem writeUint8_string (buf : Bytes) (pos : ℕ) (v : UInt8) :
    writeUint8 ⟨buf,pos,sizeMax⟩ v = (true,⟨buf ++ [v],(pos+1) % 2^64,sizeMax⟩) :=
  writeRaw_string buf pos [v] 1

@[simp] theorem writeUint16_string (buf : Bytes) (pos : ℕ) (v : UInt16) :
    writeUint16 ⟨buf,pos,sizeMax⟩ v = (true,⟨buf ++ le16 v,(pos+2) % 2^64,sizeMax⟩) :=
  writeRaw_string buf pos (le16 v) 2

@[simp] theorem writeUint32_string (buf : Bytes) (pos : ℕ) (v : UInt32) :
    writeUint32 ⟨buf,pos,sizeMax⟩ v = (true,⟨buf ++ le32 v,(pos+4) % 2^64,sizeMax⟩) :=
  writeRaw_string buf pos (le32 v) 4

end BinWriter
end ProxySwiss
