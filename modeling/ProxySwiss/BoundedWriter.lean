import ProxySwiss.BinWriter
import ProxySwiss.Text

/-!
# The writer with its limit

A writer appends to a string or fills a block of memory. A string refuses to
grow over its largest size with an exception, and a block ends where it ends:
such a step does not come back. A step that does come back has written all of
its encoding or nothing.
-/

set_option autoImplicit false

namespace ProxySwiss.BoundedWriter
open Memory Text

/-- The largest size of a string. -/
def stringMax : ℕ := 2^63-1

inductive Sink where
  | string (content : Bytes) (fits : content.length ≤ stringMax)
  | raw (mem : Bytes) (fits : mem.length < 2^64)

structure Writer where
  sink : Sink
  curPos : ℕ := 0
  maxToWrite : ℕ

/-- The constructor that is given no limit stores the largest number. -/
def start (sink : Sink) (maxToWrite : UInt64) : Writer := ⟨sink,0,maxToWrite.toNat⟩

def Writer.spaceLeft (w : Writer) : ℕ :=
  if w.maxToWrite = sizeMax then sizeMax else (w.maxToWrite+2^64-w.curPos) % 2^64

/-- `none` where the string throws, or where the block has ended. -/
def Sink.store (s : Sink) (pos : ℕ) (raw : Bytes) : Option Sink :=
  match s with
  | .string content _ =>
    if h : (content ++ raw).length ≤ stringMax then some (.string (content ++ raw) h) else none
  | .raw mem fits =>
    if h : pos+raw.length ≤ mem.length then
      some (.raw (mem.take pos ++ raw ++ mem.drop (pos+raw.length)) (by
        simp only [List.length_append, List.length_take, List.length_drop]
        omega))
    else none

def writeRaw (w : Writer) (raw : Bytes) : Option (Bool × Writer) :=
  if w.spaceLeft < raw.length then some (false,w)
  else (w.sink.store w.curPos raw).map fun sink =>
    (true,⟨sink,(w.curPos+raw.length) % 2^64,w.maxToWrite⟩)

/-- The results of the two writes are not looked at. -/
def writeSized (w : Writer) (size x : Bytes) : Option (Bool × Writer) :=
  if w.spaceLeft < x.length+size.length then some (false,w)
  else (writeRaw w size).bind fun r => (writeRaw r.2 x).map fun r => (true,r.2)

/-- Bytes whose number fits in thirty-two bits. -/
structure Chunk where
  bytes : Bytes
  short : bytes.length < 2^32

structure Chunk16 where
  bytes : Bytes
  short : bytes.length < 2^16

def le64 (v : UInt64) : Bytes :=
  (List.range 8).map fun i => UInt8.ofNat (v.toNat / 256^i % 256)

def writeInt8 (w : Writer) (v : UInt8) : Option (Bool × Writer) := writeRaw w [v]
def writeInt16 (w : Writer) (v : UInt16) : Option (Bool × Writer) := writeRaw w (le16 v)
def writeInt32 (w : Writer) (v : UInt32) : Option (Bool × Writer) := writeRaw w (le32 v)
def writeInt64 (w : Writer) (v : UInt64) : Option (Bool × Writer) := writeRaw w (le64 v)

/-- The value by its representation in memory. -/
def writeWithSize (w : Writer) (x : Bytes) : Option (Bool × Writer) :=
  writeSized w (le32 (UInt32.ofNat x.length)) x

def writeByteArray (w : Writer) (x : Bytes) : Option (Bool × Writer) :=
  writeSized w (le32 (UInt32.ofNat x.length)) x

def writeByteArray16 (w : Writer) (x : Bytes) : Option (Bool × Writer) :=
  writeSized w (le16 (UInt16.ofNat x.length)) x

def writeString (w : Writer) (x : Bytes) : Option (Bool × Writer) :=
  writeSized w (le32 (UInt32.ofNat x.length)) x

def writeCString (w : Writer) (x : Bytes) : Option (Bool × Writer) := writeString w (cstr x)

inductive Op where
  | int8 (v : UInt8)
  | int16 (v : UInt16)
  | int32 (v : UInt32)
  | int64 (v : UInt64)
  | raw (x : Chunk)
  | withSize (x : Chunk)
  | byteArray (x : Chunk)
  | byteArray16 (x : Chunk16)
  | string (x : Chunk)
  | cString (x : Chunk)

def step (w : Writer) : Op → Option (Bool × Writer)
  | .int8 v => writeInt8 w v
  | .int16 v => writeInt16 w v
  | .int32 v => writeInt32 w v
  | .int64 v => writeInt64 w v
  | .raw x => writeRaw w x.bytes
  | .withSize x => writeWithSize w x.bytes
  | .byteArray x => writeByteArray w x.bytes
  | .byteArray16 x => writeByteArray16 w x.bytes
  | .string x => writeString w x.bytes
  | .cString x => writeCString w x.bytes

/-- What each operation answers, and the writer after the last. -/
def run (w : Writer) : List Op → Option (List Bool × Writer)
  | [] => some ([],w)
  | op::ops => (step w op).bind fun r => (run r.2 ops).map fun rs => (r.1::rs.1,rs.2)

/-- An encoding: a size, which integers and raw bytes have not, and the bytes. -/
def Op.size : Op → Bytes
  | .withSize x | .byteArray x | .string x => le32 (UInt32.ofNat x.bytes.length)
  | .cString x => le32 (UInt32.ofNat (cstr x.bytes).length)
  | .byteArray16 x => le16 (UInt16.ofNat x.bytes.length)
  | _ => []

def Op.body : Op → Bytes
  | .int8 v => [v]
  | .int16 v => le16 v
  | .int32 v => le32 v
  | .int64 v => le64 v
  | .raw x | .withSize x | .byteArray x | .string x => x.bytes
  | .cString x => cstr x.bytes
  | .byteArray16 x => x.bytes

/-- The encodings of the operations that have answered yes. -/
def accepted : List Op → List Bool → Bytes
  | op::ops, true::rs => op.size ++ op.body ++ accepted ops rs
  | _::ops, false::rs => accepted ops rs
  | _, _ => []

/-- The sink has got just these bytes more. -/
def Sink.After : Sink → Bytes → Sink → Prop
  | .string c _, done, .string c' _ => c' = c ++ done
  | .raw m _, done, .raw m' _ => done.length ≤ m.length ∧ m' = done ++ m.drop done.length
  | _, _, _ => False

structure Written (sink : Sink) (limit : ℕ) (done : Bytes) (w : Writer) : Prop where
  produced : sink.After done w.sink
  pos : w.curPos = done.length
  kept : w.maxToWrite = limit
  bound : limit ≠ sizeMax → done.length ≤ limit

/-- The sink has room for all that the limit allows. -/
def Room (limit : ℕ) : Sink → Prop
  | .string c _ => limit ≠ sizeMax ∧ c.length+limit ≤ stringMax
  | .raw m _ => limit ≠ sizeMax ∧ limit ≤ m.length

/-- What a sink has become. -/
theorem after_cases (sink s : Sink) (done : Bytes) (h : sink.After done s) :
    (∃ c hc hc', sink = .string c hc ∧ s = .string (c ++ done) hc') ∨
      ∃ m hm hm', sink = .raw m hm ∧ s = .raw (done ++ m.drop done.length) hm' ∧
        done.length ≤ m.length := by
  cases sink with
  | string c hc =>
    cases s with
    | string c' hc' =>
      obtain rfl : c' = c ++ done := h
      exact .inl ⟨c,hc,hc',rfl,rfl⟩
    | raw => exact h.elim
  | raw m hm =>
    cases s with
    | string => exact h.elim
    | raw m' hm' =>
      obtain ⟨hlen,rfl⟩ := h
      exact .inr ⟨m,hm,hm',rfl,rfl,hlen⟩

theorem after_length (sink s : Sink) (done : Bytes) (h : sink.After done s) :
    done.length < 2^64 := by
  rcases after_cases sink s done h with ⟨c,hc,hc',rfl,rfl⟩ | ⟨m,hm,hm',rfl,rfl,hlen⟩
  · rw [List.length_append, stringMax] at hc'
    omega
  · exact Nat.lt_of_le_of_lt hlen hm

theorem store_after (sink s t : Sink) (done raw : Bytes) (h : sink.After done s)
    (hstore : s.store done.length raw = some t) : sink.After (done ++ raw) t := by
  rcases after_cases sink s done h with ⟨c,hc,hc',rfl,rfl⟩ | ⟨m,hm,hm',rfl,rfl,hlen⟩
  · simp only [Sink.store] at hstore
    split_ifs at hstore with hfits
    obtain rfl := Option.some.inj hstore
    exact List.append_assoc c done raw
  · simp only [Sink.store] at hstore
    split_ifs at hstore with hfits
    obtain rfl := Option.some.inj hstore
    simp only [List.length_append, List.length_drop] at hfits
    refine ⟨by rw [List.length_append]; omega,?_⟩
    rw [List.take_left, ← List.drop_drop, List.drop_left, List.drop_drop, List.length_append]

theorem store_room (sink s : Sink) (limit : ℕ) (done raw : Bytes) (hroom : Room limit sink)
    (h : sink.After done s) (hfits : done.length+raw.length ≤ limit) :
    ∃ t, s.store done.length raw = some t := by
  rcases after_cases sink s done h with ⟨c,hc,hc',rfl,rfl⟩ | ⟨m,hm,hm',rfl,rfl,hlen⟩
  · have hmax := hroom.2
    have hle : (c ++ done ++ raw).length ≤ stringMax := by
      simp only [List.length_append]
      omega
    exact ⟨_,dif_pos hle⟩
  · have hmax := hroom.2
    have hle : done.length+raw.length ≤ (done ++ m.drop done.length).length := by
      rw [List.length_append, List.length_drop]
      omega
    exact ⟨_,dif_pos hle⟩

theorem written_space (sink : Sink) (limit : ℕ) (done : Bytes) (w : Writer)
    (hlim : limit ≤ sizeMax) (h : Written sink limit done w) :
    w.spaceLeft = if limit = sizeMax then sizeMax else limit-done.length := by
  unfold Writer.spaceLeft
  rw [h.kept, h.pos]
  split_ifs with hl
  · rfl
  · have hbound := h.bound hl
    unfold sizeMax at hlim
    omega

section Steps

variable (sink : Sink) (limit : ℕ) (hlim : limit ≤ sizeMax)

include hlim

/-- A raw write does all or nothing, and there was room for all. -/
theorem raw_written (done raw : Bytes) (w w' : Writer) (b : Bool)
    (h : Written sink limit done w) (hw : writeRaw w raw = some (b,w')) :
    (b = false ∧ w' = w ∧ w.spaceLeft < raw.length) ∨
      (b = true ∧ raw.length ≤ w.spaceLeft ∧ Written sink limit (done ++ raw) w') := by
  unfold writeRaw at hw
  split_ifs at hw with hno
  · obtain ⟨rfl,rfl⟩ := Prod.mk.inj (Option.some.inj hw)
    exact .inl ⟨rfl,rfl,hno⟩
  · obtain ⟨t,ht,hr⟩ := Option.map_eq_some_iff.mp hw
    obtain ⟨rfl,rfl⟩ := Prod.mk.inj hr
    rw [h.pos] at ht
    have hafter := store_after sink w.sink t done raw h.produced ht
    have hlen := after_length sink t _ hafter
    have hspace := written_space sink limit done w hlim h
    rw [List.length_append] at hlen
    refine .inr ⟨rfl,by omega,hafter,?_,h.kept,fun hl => ?_⟩
    · simp only [h.pos, List.length_append]
      omega
    · have hbound := h.bound hl
      rw [if_neg hl] at hspace
      rw [List.length_append]
      omega

/-- So does a write of a size and the bytes behind it. -/
theorem sized_written (done size x : Bytes) (w w' : Writer) (b : Bool)
    (hx : x.length+size.length ≤ sizeMax) (h : Written sink limit done w)
    (hw : writeSized w size x = some (b,w')) :
    (b = false ∧ w' = w ∧ w.spaceLeft < (size ++ x).length) ∨
      (b = true ∧ (size ++ x).length ≤ w.spaceLeft ∧
        Written sink limit (done ++ (size ++ x)) w') := by
  have hboth : (size ++ x).length = x.length+size.length := by
    rw [List.length_append, Nat.add_comm]
  unfold writeSized at hw
  split_ifs at hw with hno
  · obtain ⟨rfl,rfl⟩ := Prod.mk.inj (Option.some.inj hw)
    exact .inl ⟨rfl,rfl,hboth ▸ hno⟩
  · right
    obtain ⟨⟨b1,w1⟩,h1,hw⟩ := Option.bind_eq_some_iff.mp hw
    obtain ⟨⟨b2,w2⟩,h2,hr⟩ := Option.map_eq_some_iff.mp hw
    obtain ⟨rfl,rfl⟩ := Prod.mk.inj hr
    have hspace := written_space sink limit done w hlim h
    rcases raw_written sink limit hlim done size w w1 b1 h h1 with ⟨-,-,hlt⟩ | ⟨-,-,hone⟩
    · omega
    have hspace' := written_space sink limit (done ++ size) w1 hlim hone
    rcases raw_written sink limit hlim _ x w1 w2 b2 hone h2 with ⟨-,-,hlt⟩ | ⟨-,-,htwo⟩
    · rw [List.length_append] at hspace'
      split_ifs at hspace hspace' <;> omega
    · rw [List.append_assoc] at htwo
      exact ⟨rfl,hboth ▸ Nat.le_of_not_lt hno,htwo⟩

theorem raw_total (done raw : Bytes) (w : Writer) (hroom : Room limit sink)
    (h : Written sink limit done w) : ∃ r, writeRaw w raw = some r := by
  have hspace := written_space sink limit done w hlim h
  have hl : limit ≠ sizeMax := by cases sink <;> exact hroom.1
  have hbound := h.bound hl
  rw [if_neg hl] at hspace
  unfold writeRaw
  split_ifs with hno
  · exact ⟨_,rfl⟩
  · obtain ⟨t,ht⟩ := store_room sink w.sink limit done raw hroom h.produced (by omega)
    rw [h.pos, ht]
    exact ⟨_,rfl⟩

theorem sized_total (done size x : Bytes) (w : Writer) (hroom : Room limit sink)
    (h : Written sink limit done w) : ∃ r, writeSized w size x = some r := by
  unfold writeSized
  split_ifs with hno
  · exact ⟨_,rfl⟩
  · obtain ⟨⟨b,w1⟩,h1⟩ := raw_total sink limit hlim done size w hroom h
    rw [h1, Option.bind_some]
    rcases raw_written sink limit hlim done size w w1 b h h1 with ⟨-,rfl,-⟩ | ⟨-,-,hone⟩
    · obtain ⟨r,hr⟩ := raw_total sink limit hlim done x w1 hroom h
      exact ⟨_,by rw [hr]; rfl⟩
    · obtain ⟨r,hr⟩ := raw_total sink limit hlim _ x w1 hroom hone
      exact ⟨_,by rw [hr]; rfl⟩

omit hlim in
/-- Every operation is one of the two kinds of writes. -/
theorem step_cases (w : Writer) (op : Op) :
    (op.size = [] ∧ step w op = writeRaw w op.body) ∨
      step w op = writeSized w op.size op.body := by
  cases op with
  | int8 | int16 | int32 | int64 | raw => exact .inl ⟨rfl,rfl⟩
  | withSize | byteArray | byteArray16 | string | cString => exact .inr rfl

omit hlim in
theorem encoding_length (op : Op) : op.body.length+op.size.length ≤ sizeMax := by
  have hsize : op.size.length ≤ 4 := by
    cases op <;> simp [Op.size, le32, le16]
  have hbody : op.body.length < 2^32 := by
    cases op with
    | int8 | int16 | int32 | int64 => simp [Op.body, le16, le32, le64]
    | raw x => exact x.short
    | withSize x => exact x.short
    | byteArray x => exact x.short
    | byteArray16 x => exact Nat.lt_trans x.short (by decide)
    | string x => exact x.short
    | cString x => exact Nat.lt_of_le_of_lt (List.takeWhile_prefix _).length_le x.short
  unfold sizeMax
  omega

theorem step_written (done : Bytes) (w w' : Writer) (op : Op) (b : Bool)
    (h : Written sink limit done w) (hw : step w op = some (b,w')) :
    (b = false ∧ w' = w ∧ w.spaceLeft < (op.size ++ op.body).length) ∨
      (b = true ∧ (op.size ++ op.body).length ≤ w.spaceLeft ∧
        Written sink limit (done ++ (op.size ++ op.body)) w') := by
  rcases step_cases w op with ⟨hsize,hstep⟩ | hstep
  · rw [hstep] at hw
    rw [hsize, List.nil_append]
    exact raw_written sink limit hlim done _ w w' b h hw
  · rw [hstep] at hw
    exact sized_written sink limit hlim done _ _ w w' b (encoding_length op) h hw

theorem step_total (done : Bytes) (w : Writer) (op : Op) (hroom : Room limit sink)
    (h : Written sink limit done w) : ∃ r, step w op = some r := by
  rcases step_cases w op with ⟨-,hstep⟩ | hstep
  · exact hstep ▸ raw_total sink limit hlim done _ w hroom h
  · exact hstep ▸ sized_total sink limit hlim done _ _ w hroom h

theorem run_written (ops : List Op) (done : Bytes) (w w' : Writer) (rs : List Bool)
    (h : Written sink limit done w) (hr : run w ops = some (rs,w')) :
    rs.length = ops.length ∧ Written sink limit (done ++ accepted ops rs) w' := by
  induction ops generalizing done w rs with
  | nil =>
    obtain ⟨rfl,rfl⟩ := Prod.mk.inj (Option.some.inj hr)
    exact ⟨rfl,by simpa [accepted] using h⟩
  | cons op ops ih =>
    obtain ⟨⟨b,v⟩,hstep,hr⟩ := Option.bind_eq_some_iff.mp hr
    obtain ⟨⟨bs,u⟩,hrest,he⟩ := Option.map_eq_some_iff.mp hr
    obtain ⟨rfl,rfl⟩ := Prod.mk.inj he
    rcases step_written sink limit hlim done w v op b h hstep with ⟨rfl,rfl,-⟩ | ⟨rfl,-,hnext⟩
    · obtain ⟨hlen,hw⟩ := ih done v bs h hrest
      exact ⟨congrArg (·+1) hlen,hw⟩
    · obtain ⟨hlen,hw⟩ := ih _ v bs hnext hrest
      refine ⟨congrArg (·+1) hlen,?_⟩
      simpa [accepted] using hw

theorem run_total (ops : List Op) (done : Bytes) (w : Writer) (hroom : Room limit sink)
    (h : Written sink limit done w) : ∃ r, run w ops = some r := by
  induction ops generalizing done w with
  | nil => exact ⟨_,rfl⟩
  | cons op ops ih =>
    obtain ⟨⟨b,v⟩,hstep⟩ := step_total sink limit hlim done w op hroom h
    have hnext : ∃ done, Written sink limit done v := by
      rcases step_written sink limit hlim done w v op b h hstep with ⟨-,rfl,-⟩ | ⟨-,-,hv⟩
      · exact ⟨done,h⟩
      · exact ⟨_,hv⟩
    obtain ⟨next,hv⟩ := hnext
    obtain ⟨r,hr⟩ := ih next v hv
    exact ⟨_,by simp only [run, hstep, Option.bind_some, hr]; rfl⟩

end Steps

/-- Over a string the writer is the one that the messages are written with. -/
theorem string_writer (content raw : Bytes) (fits : content.length ≤ stringMax) (pos limit : ℕ)
    (b : Bool) (w : Writer) (hraw : raw.length < 2^32)
    (h : writeRaw ⟨.string content fits,pos,limit⟩ raw = some (b,w)) : ∃ content' fits',
      w.sink = .string content' fits' ∧
        BinWriter.writeRaw ⟨content,pos,limit⟩ raw (UInt32.ofNat raw.length) =
          (b,⟨content',w.curPos,w.maxToWrite⟩) := by
  have hlen : (UInt32.ofNat raw.length).toNat = raw.length :=
    UInt32.toNat_ofNat_of_lt' (show raw.length < UInt32.size from hraw)
  unfold writeRaw at h
  unfold BinWriter.writeRaw
  rw [hlen, List.take_length]
  split_ifs at h with hno
  · obtain ⟨rfl,rfl⟩ := Prod.mk.inj (Option.some.inj h)
    exact ⟨content,fits,rfl,if_pos hno⟩
  · obtain ⟨t,ht,hr⟩ := Option.map_eq_some_iff.mp h
    obtain ⟨rfl,rfl⟩ := Prod.mk.inj hr
    simp only [Sink.store] at ht
    split_ifs at ht with hfits
    exact ⟨content ++ raw,hfits,(Option.some.inj ht).symm,if_neg hno⟩

theorem start_written (sink : Sink) (maxToWrite : UInt64) :
    Written sink maxToWrite.toNat [] (start sink maxToWrite) := by
  refine ⟨?_,rfl,rfl,fun _ => Nat.zero_le _⟩
  cases sink with
  | string c hc => exact (List.append_nil c).symm
  | raw m hm => exact ⟨Nat.zero_le _,rfl⟩

/-- What is promised after some operations, and of the next. -/
structure Law (sink : Sink) (limit : ℕ) (ops : List Op) (rs : List Bool) (w : Writer) :
    Prop where
  answers : rs.length = ops.length
  produced : sink.After (accepted ops rs) w.sink
  pos : w.curPos = (accepted ops rs).length
  bound : limit ≠ sizeMax → w.curPos ≤ limit ∧ w.spaceLeft = limit-w.curPos
  refused : ∀ op w', step w op = some (false,w') → w' = w
  fitting : ∀ op b w', step w op = some (b,w') →
    (b = true ↔ (op.size ++ op.body).length ≤ w.spaceLeft)

/-- All or nothing, over every sequence of operations, and all of what fits; they
all come back where there is room for what the limit allows. -/
theorem bounded_writer_law (sink : Sink) (maxToWrite : UInt64) (ops : List Op) :
    (∀ rs w, run (start sink maxToWrite) ops = some (rs,w) →
      Law sink maxToWrite.toNat ops rs w) ∧
    (Room maxToWrite.toNat sink → ∃ r, run (start sink maxToWrite) ops = some r) := by
  have hlim : maxToWrite.toNat ≤ sizeMax := Nat.le_of_lt_succ maxToWrite.toNat_lt
  have hstart := start_written sink maxToWrite
  refine ⟨fun rs w hr => ?_,fun hroom => run_total sink _ hlim ops [] _ hroom hstart⟩
  obtain ⟨hlen,hw⟩ := run_written sink _ hlim ops [] _ w rs hstart hr
  rw [List.nil_append] at hw
  refine ⟨hlen,hw.produced,hw.pos,fun hl => ⟨hw.pos ▸ hw.bound hl,?_⟩,fun op w' hstep => ?_,
    fun op b w' hstep => ?_⟩
  · rw [written_space sink _ _ w hlim hw, if_neg hl, hw.pos]
  · rcases step_written sink _ hlim _ w w' op false hw hstep with ⟨-,hsame,-⟩ | ⟨hb,-⟩
    · exact hsame
    · exact absurd hb (by decide)
  · rcases step_written sink _ hlim _ w w' op b hw hstep with ⟨rfl,-,hno⟩ | ⟨rfl,hfits,-⟩
    · exact iff_of_false (by decide) (Nat.not_le_of_lt hno)
    · exact iff_of_true rfl hfits

/-- A block of five bytes, and a byte array that does not fit into its rest. -/
theorem bounded_writer_law_block :
    let sink := Sink.raw [0,0,0,0,0] (by decide)
    let ops := [Op.int8 7,.byteArray ⟨[1,2],by decide⟩,.int16 9]
    ∃ rs w, run (start sink 5) ops = some (rs,w) ∧ Law sink 5 ops rs w := by
  intro sink ops
  obtain ⟨⟨rs,w⟩,hr⟩ := (bounded_writer_law sink 5 ops).2 ⟨by decide,by decide⟩
  exact ⟨rs,w,hr,(bounded_writer_law sink 5 ops).1 rs w hr⟩

end ProxySwiss.BoundedWriter
