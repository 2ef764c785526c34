import ProxySwiss.Session
import ProxySwiss.TransitionSystem
import Mathlib.Logic.Function.Basic

/-!
# The tunnel

Two loops share two sockets: what is read from the one socket into its buffer
is written to the other, and then the buffer is read into again. Operations
name the buffer they work on, and a write takes its bytes from the buffer as
it is when they leave, so nothing is assumed about a buffer staying as it was.
-/

set_option autoImplicit false

namespace ProxySwiss.SessionTunnel
open Memory TransitionSystem CallbackObject
open Session (Session)

inductive Side where
  | input
  | output
  deriving DecidableEq, Repr

def Side.other : Side → Side
  | .input => .output
  | .output => .input

@[simp] theorem other_ne (a : Side) : a.other ≠ a := by cases a <;> decide

@[simp] theorem other_inj (a b : Side) : a.other = b.other ↔ a = b := by
  cases a <;> cases b <;> decide

inductive Callback where
  | handleInputRead
  | handleOutputRead
  | handleInputWrite
  | handleOutputWrite
  deriving DecidableEq, Repr

inductive Op where
  | readSome (sock buf : Side) (k : Callback)
  | write (sock buf : Side) (numBytes : ℕ) (k : Callback)
  deriving DecidableEq, Repr

def Op.buf : Op → Side
  | .readSome _ buf _ => buf
  | .write _ buf _ _ => buf

inductive Event where
  | shutdownSend (sock : Side)
  deriving DecidableEq, Repr

abbrev Effect := Session × List (Action Op Event)

/-! The two pointers and what a read does to the vector behind one of them. -/

def readBuf (s : Session) : Side → Option (Buffer 4096)
  | .input => s.inputReadBuf
  | .output => s.outputReadBuf

def fillBuf (s : Session) (side : Side) (data : Bytes) : Session :=
  match side with
  | .input => { s with inputReadBuf := s.inputReadBuf.map (·.fill data) }
  | .output => { s with outputReadBuf := s.outputReadBuf.map (·.fill data) }

def sliceBuf (s : Session) (side : Side) (off len : ℕ) : Bytes :=
  match readBuf s side with
  | some b => b.slice off len
  | none => []

def beginInputRead (s : Session) : Effect :=
  (s,[.start (.readSome .input .input .handleInputRead)])

def beginOutputRead (s : Session) : Effect :=
  (s,[.start (.readSome .output .output .handleOutputRead)])

def beginInputWrite (s : Session) (numBytes : ℕ) : Effect :=
  (s,[.start (.write .input .output numBytes .handleInputWrite)])

def beginOutputWrite (s : Session) (numBytes : ℕ) : Effect :=
  (s,[.start (.write .output .input numBytes .handleOutputWrite)])

def makeTunnel (s : Session) : Effect :=
  let s := Session.allocReadBuffers s
  let (s,reads) := beginInputRead s
  let (s,reads') := beginOutputRead s
  (s,reads ++ reads')

/-- The error of a `shutdown` is ignored. -/
def handleRead (beginWrite : Session → ℕ → Effect) (sock : Side) (s : Session) (err : ErrorCode)
    (numBytes : ℕ) : Effect :=
  if ¬ err.failed then beginWrite s numBytes
  else if err = .eof then (s,[.emit (.shutdownSend sock)])
  else (Session.closeAll s,[])

def handleInputRead := handleRead beginOutputWrite .output
def handleOutputRead := handleRead beginInputWrite .input

def handleWrite (beginRead : Session → Effect) (s : Session) (err : ErrorCode) (_ : ℕ) : Effect :=
  if err.failed then (Session.closeAll s,[])
  else beginRead s

def handleInputWrite := handleWrite beginOutputRead
def handleOutputWrite := handleWrite beginInputRead

def run : Callback → Session → ErrorCode → ℕ → Effect
  | .handleInputRead => handleInputRead
  | .handleOutputRead => handleOutputRead
  | .handleInputWrite => handleInputWrite
  | .handleOutputWrite => handleOutputWrite

/-- A session reports the two reads that are started here. -/
theorem makeTunnel_session (s : Session) :
    (Session.makeTunnel s).1 = (makeTunnel s).1 ∧
      emitted (Session.makeTunnel s).2 = [.beginInputRead,.beginOutputRead] ∧
      started (makeTunnel s).2 = started (beginInputRead s).2 ++ started (beginOutputRead s).2 :=
  ⟨rfl,rfl,rfl⟩

/-! The same by direction: `src` is the side that is read from. -/

def readCallback : Side → Callback
  | .input => .handleInputRead
  | .output => .handleOutputRead

def writeCallback : Side → Callback
  | .input => .handleOutputWrite
  | .output => .handleInputWrite

def readOp (src : Side) : Op := .readSome src src (readCallback src)
def writeOp (src : Side) (numBytes : ℕ) : Op :=
  .write src.other src numBytes (writeCallback src)

theorem run_read (src : Side) (s : Session) (err : ErrorCode) (n : ℕ) :
    run (readCallback src) s err n =
      if ¬ err.failed then (s,[.start (writeOp src n)])
      else if err = .eof then (s,[.emit (.shutdownSend src.other)])
      else (Session.closeAll s,[]) := by
  cases src <;> rfl

theorem run_write (src : Side) (s : Session) (err : ErrorCode) (n : ℕ) :
    run (writeCallback src) s err n =
      if err.failed then (Session.closeAll s,[]) else (s,[.start (readOp src)]) := by
  cases src <;> rfl

@[simp] theorem buf_readOp (src : Side) : (readOp src).buf = src := rfl
@[simp] theorem buf_writeOp (src : Side) (n : ℕ) : (writeOp src n).buf = src := rfl

@[simp] theorem readBuf_closeAll (s : Session) (a : Side) :
    readBuf (Session.closeAll s) a = readBuf s a := by
  cases a <;> rfl

/-- Both sockets are closed. -/
def Closed (s : Session) : Prop := s.inputSock = false ∧ s.outputSock = false

theorem closed_fill (s : Session) (a : Side) (data : Bytes) (h : Closed s) :
    Closed (fillBuf s a data) := by
  cases a <;> exact h

theorem readBuf_fill (s : Session) (a b : Side) (data : Bytes) (h : b ≠ a) :
    readBuf (fillBuf s a data) b = readBuf s b := by
  cases a <;> cases b <;> first | rfl | exact absurd rfl h

theorem readBuf_filled (s : Session) (a : Side) (data : Bytes) :
    readBuf (fillBuf s a data) a = (readBuf s a).map (·.fill data) := by
  cases a <;> rfl

theorem sliceBuf_filled (s : Session) (a : Side) (data : Bytes) (hb : readBuf s a ≠ none)
    (h : data.length ≤ 4096) : sliceBuf (fillBuf s a data) a 0 data.length = data := by
  obtain ⟨b,hb⟩ := Option.ne_none_iff_exists'.mp hb
  rw [sliceBuf, readBuf_filled, hb]
  exact (Buffer.slice_fill b data 0 data.length h (by simp)).trans (by simp)

@[simp] theorem sliceBuf_zero (s : Session) (a : Side) (off : ℕ) : sliceBuf s a off 0 = [] := by
  unfold sliceBuf
  cases readBuf s a with
  | none => rfl
  | some b => exact List.take_zero

theorem sliceBuf_split (s : Session) (a : Side) (off m n : ℕ) (h : off+m ≤ n) :
    sliceBuf s a off m ++ sliceBuf s a (off+m) (n-(off+m)) = sliceBuf s a off (n-off) := by
  unfold sliceBuf
  cases readBuf s a with
  | none => rfl
  | some b =>
    simp only [Buffer.slice]
    rw [← List.drop_drop, ← List.take_add, Nat.sub_add_eq, Nat.add_sub_cancel' (by omega)]

/-- The session with its sockets. An outstanding write is paired with the number
of its bytes that have left; the histories begin with the tunnel. -/
structure Tunnel where
  obj : Session
  active : List (Op × ℕ)
  unread : Side → Bytes
  fromSock : Side → Bytes
  toSock : Side → Bytes
  events : List Event

namespace Tunnel

def begun (s : Session) (unread : Side → Bytes) : Tunnel :=
  ⟨(makeTunnel s).1,(started (makeTunnel s).2).map (·,0),unread,fun _ => [],fun _ => [],
    emitted (makeTunnel s).2⟩

/-- An operation has been removed, and its callback has returned `r`. -/
def settle (t : Tunnel) (before after : List (Op × ℕ)) (r : Effect) : Tunnel :=
  { t with
    obj := r.1
    active := before ++ after ++ (started r.2).map (·,0)
    events := t.events ++ emitted r.2 }

def arrive (t : Tunnel) (sock : Side) (chunk : Bytes) : Tunnel :=
  { t with unread := Function.update t.unread sock (t.unread sock ++ chunk) }

def gain (t : Tunnel) (sock buf : Side) (chunk rest : Bytes) : Tunnel :=
  { t with
    obj := fillBuf t.obj buf chunk
    unread := Function.update t.unread sock rest
    fromSock := Function.update t.fromSock sock (t.fromSock sock ++ chunk) }

def transfer (t : Tunnel) (before after : List (Op × ℕ)) (sock buf : Side) (numBytes : ℕ)
    (k : Callback) (off m : ℕ) : Tunnel :=
  { t with
    active := before ++ (.write sock buf numBytes k,off+m)::after
    toSock := Function.update t.toSock sock (t.toSock sock ++ sliceBuf t.obj buf off m) }

end Tunnel

/-- Any outstanding operation may proceed, complete or fail at any time, also
after the sockets have been closed. -/
inductive Step : Tunnel → Tunnel → Prop
  | arrive (t : Tunnel) (sock : Side) (chunk : Bytes) : Step t (t.arrive sock chunk)
  | read (t : Tunnel) (before after : List (Op × ℕ)) (sock buf : Side) (k : Callback)
      (chunk rest : Bytes) (ha : t.active = before ++ (.readSome sock buf k,0)::after)
      (hc : 1 ≤ chunk.length) (hn : chunk.length ≤ 4096) (hi : t.unread sock = chunk ++ rest) :
      Step t ((t.gain sock buf chunk rest).settle before after
        (run k (fillBuf t.obj buf chunk) .noError chunk.length))
  | readFail (t : Tunnel) (before after : List (Op × ℕ)) (sock buf : Side) (k : Callback)
      (err : ErrorCode) (ha : t.active = before ++ (.readSome sock buf k,0)::after)
      (he : err.failed) : Step t (t.settle before after (run k t.obj err 0))
  | transfer (t : Tunnel) (before after : List (Op × ℕ)) (sock buf : Side) (numBytes : ℕ)
      (k : Callback) (off m : ℕ) (ha : t.active = before ++ (.write sock buf numBytes k,off)::after)
      (hm : 1 ≤ m) (hn : off+m ≤ numBytes) :
      Step t (t.transfer before after sock buf numBytes k off m)
  | write (t : Tunnel) (before after : List (Op × ℕ)) (sock buf : Side) (numBytes : ℕ)
      (k : Callback) (ha : t.active = before ++ (.write sock buf numBytes k,numBytes)::after) :
      Step t (t.settle before after (run k t.obj .noError numBytes))
  | writeFail (t : Tunnel) (before after : List (Op × ℕ)) (sock buf : Side) (numBytes : ℕ)
      (k : Callback) (off : ℕ) (err : ErrorCode)
      (ha : t.active = before ++ (.write sock buf numBytes k,off)::after) (he : err.failed) :
      Step t (t.settle before after (run k t.obj err off))

end ProxySwiss.SessionTunnel
