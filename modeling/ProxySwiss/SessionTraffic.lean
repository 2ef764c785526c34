import ProxySwiss.StreamLedger
import ProxySwiss.SessionOwners
import ProxySwiss.ServerSocks5Run
import ProxySwiss.HttpsReading

/-!
# The traffic of a session

The hops of the chain and the tunnel use the output socket one after another,
the server session and the tunnel the input socket. Every operation that
completes is written down in a ledger of the two sockets, and what may stand in
that ledger is said here without a word about the objects.
-/

set_option autoImplicit false

namespace ProxySwiss.SessionTraffic
open Memory CallbackObject StreamObject StreamLedger Ownership Socks5 SessionLife SessionOwners
open SessionTunnel (Side readOp writeOp readBuf sliceBuf)
open ChainWalk (hops target)
open ChainDialogue (Spoken hopCreds)
open Session (Session)

abbrev Traffic := Ledger Side UInt8

/-- A read of the tunnel that fails has read nothing, and a write of the tunnel
takes its octets from the buffer. -/
def record (s : Session) (op : SessionLife.Op) (res : Completion) (l : Traffic) : Traffic :=
  match op with
  | .output _ => l
  | .hop _ _ op => l.move .output op res.data
  | .socks5 op => l.move .input op res.data
  | .https op => l.move .input op res.data
  | .tunnel (.readSome sock _ _) => if res.err.failed then l else l.take sock res.data
  | .tunnel (.write sock buf _ _) => l.send sock (sliceBuf s buf 0 res.data.length)

/-- A write of the tunnel that does not fail has written all it was given. -/
def Sound (res : Completion) : SessionLife.Op → Prop
  | .tunnel (.write _ _ numBytes _) => ¬ res.err.failed → res.data.length = numBytes
  | _ => True

/-- A session with what has passed its sockets. -/
structure Passage where
  life : Life
  traffic : Traffic := {}

section Steps

variable (addressText : Address → Bytes) (fuel : ℕ)

inductive Step : Passage → Passage → Prop
  | accept (p : Passage) (err : ErrorCode) (h : p.life.state.sessSptr = true) :
      Step p { p with life := handleAccept err p.life }
  | complete (p : Passage) (before after : List SessionLife.Op) (op : SessionLife.Op)
      (res : Completion) (hp : p.life.state.pending = before ++ op::after)
      (ha : SessionLife.Allowed res op) (hs : Sound res op) :
      Step p ⟨done addressText fuel op res
        (p.life.modify fun w => { w with pending := before ++ after }),
        record p.life.state.sess op res p.traffic⟩

def begun (cfg : Config) (printProxyErrors : Bool) (log history : List Bytes) : Passage where
  life := SessionLife.begun cfg printProxyErrors log history

end Steps

/-! What is said on the two sockets before the tunnel. -/

/-- The messages to the first hops, up to the request to each of them. -/
def script (cfg : OutputConfig) (dst : Destination) : ℕ → Bytes
  | 0 => []
  | i+1 => script cfg dst i ++ (preamble (hopCreds cfg i) ++ connectRequest (target cfg dst i))

/-- Nothing but the messages to the first hops was sent. -/
def Scripted (cfg : OutputConfig) (dst : Destination) (t : Bytes) : Prop :=
  ∃ i ≤ hops cfg, Asked cfg dst i ∧ t <+: script cfg dst i

/-- The first hops were told their messages, and each of them has answered with
a success. -/
structure Cleared (cfg : OutputConfig) (dst : Destination) (i : ℕ) (taken sent : Bytes) :
    Prop where
  asked : Asked cfg dst i
  spoken : Spoken cfg i taken
  sent : sent = script cfg dst i

def httpsResponse (httpVer : ServerSessionHttps.HttpVersion) (r : ConnectResponse) : Bytes :=
  (ServerSessionHttps.writeConnectResponse { httpVer := httpVer } r).1.line

/-- The client has asked for `dst` in `asked` and was told `answered` meanwhile;
`response` is what it will be told in the end. -/
inductive Requested (fuel : ℕ) (input : InputConfig) (dst : Destination) :
    Bytes → Bytes → (ConnectResponse → Bytes) → Prop
  | tunnel (h : input = .tunnel dst) : Requested fuel input dst [] [] fun _ => []
  | socks5 (t : Bytes) (h : input = .proxyServer .socks5)
      (ht : ServerSocks5Run.Request {} dst t) :
      Requested fuel input dst t [5,0] ServerSocks5Run.response
  | https (first last : Bytes) (p : ServerSessionHttps.FirstLine) (hs : List Bytes)
      (h : input = .proxyServer .https) (hp : HttpsReading.Accepted fuel {} first p)
      (hhs : ∀ l ∈ hs, HttpsReading.HeaderLine l) (hlast : ServerHttpsRun.EmptyLine last)
      (hd : p.dst = dst) :
      Requested fuel input dst (first ++ hs.flatten ++ last) [] (httpsResponse p.httpVer)

/-! The tunnel. -/

/-- An operation of the direction that reads from `src`. -/
def ofSide (src : Side) : SessionLife.Op → Option SessionTunnel.Op
  | .tunnel op => if op.buf = src then some op else none
  | _ => none

def opsOf (w : World) (src : Side) : List SessionTunnel.Op := w.pending.filterMap (ofSide src)

/-- One direction has read `read` and written `written`: whatever is missing is
in the buffer of the write that is outstanding, unless the direction has ended
and both sockets are closed. -/
inductive Flowing (w : World) (src : Side) (read written : Bytes) : Prop
  | reading (ho : opsOf w src = [readOp src]) (hb : readBuf w.sess src ≠ none)
      (hd : written = read)
  | writing (n : ℕ) (ho : opsOf w src = [writeOp src n]) (hb : readBuf w.sess src ≠ none)
      (hn : n ≤ 4096) (hd : written ++ sliceBuf w.sess src 0 n = read)
  | ended (ho : opsOf w src = []) (hd : written <+: read)
      (hc : written = read ∨ SessionTunnel.Closed w.sess)

/-- What stands in the ledger of a session. -/
inductive Passed (fuel : ℕ) (cfg : Config) (w : World) (l : Traffic) : Prop
  | asking (hi : l.sent .input <+: [5,0]) (ht : l.taken .output = [])
      (ho : l.sent .output = [])
  | connecting (dst : Destination) (asked answered told : Bytes)
      (response : ConnectResponse → Bytes) (r : ConnectResponse)
      (hr : Requested fuel cfg.input dst asked answered response)
      (hi : l.taken .input = asked) (ht : l.sent .input = answered ++ told)
      (htold : told <+: response r)
      (ho : Scripted cfg.output dst (l.sent .output))
      (hs : r.major = .succeeded →
        Cleared cfg.output dst (hops cfg.output) (l.taken .output) (l.sent .output))
  | relaying (dst : Destination) (asked answered heard told up up' down down' : Bytes)
      (response : ConnectResponse → Bytes)
      (hr : Requested fuel cfg.input dst asked answered response)
      (hc : Cleared cfg.output dst (hops cfg.output) heard told)
      (hi : l.taken .input = asked ++ up)
      (ho : l.sent .output = told ++ up')
      (ht : l.taken .output = heard ++ down)
      (hs : l.sent .input = answered ++ response ⟨.succeeded⟩ ++ down')
      (hup : Flowing w .input up up') (hdown : Flowing w .output down down')

end ProxySwiss.SessionTraffic
