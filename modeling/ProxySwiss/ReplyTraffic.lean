import ProxySwiss.RequestTraffic
import ProxySwiss.SessionPhases
import ProxySwiss.TunnelLoops

/-!
# The traffic of a response and of the tunnel

The output calls its handler once, and the client is told what has come of the
chain. After a success the tunnel begins, and each of its directions writes what
it has read; after a failure nothing is read or written any more.
-/

set_option autoImplicit false

namespace ProxySwiss.ReplyTraffic
open Memory CallbackObject StreamObject StreamLedger Ownership SessionLife SessionOwners
  RequestOwners SessionPhases SessionTraffic RequestTraffic
open SessionTunnel (Side readOp writeOp readCallback writeCallback readBuf fillBuf sliceBuf)
open ChainWalk (hops)
open ChainDialogue (Spoken)
open Session (Session)

/-! The directions of the tunnel. -/

structure Flows (w : World) (l : Traffic) (heard told read written : Side → Bytes) : Prop where
  tunnels : Relaying w
  taken : ∀ src, l.taken src = heard src ++ read src
  sent : ∀ src, l.sent (Side.other src) = told (Side.other src) ++ written src
  flow : ∀ src, Flowing w src (read src) (written src)

/-- The callback of a direction has returned `r`. -/
def settle (w : World) (before after : List SessionLife.Op) (r : SessionTunnel.Effect) : World :=
  { w with sess := r.1, pending := before ++ after ++ (started r.2).map .tunnel }

theorem ofSide_tunnels (src a : Side) (ts : List SessionTunnel.Op) (h : ∀ t ∈ ts, t.buf = src) :
    (ts.map SessionLife.Op.tunnel).filterMap (ofSide a) = if a = src then ts else [] := by
  induction ts with
  | nil => split_ifs <;> rfl
  | cons t ts ih =>
    rw [List.map_cons, List.filterMap_cons, ofSide, h t (by simp),
      ih fun t ht => h t (List.mem_cons_of_mem _ ht)]
    by_cases ha : a = src
    · simp [ha]
    · simp [ha, Ne.symm ha]

theorem ofSide_self (op : SessionTunnel.Op) : ofSide op.buf (.tunnel op) = some op := if_pos rfl

theorem ofSide_other (op : SessionTunnel.Op) (a : Side) (h : a ≠ op.buf) :
    ofSide a (.tunnel op) = none := if_neg (Ne.symm h)

section Settle

variable (w : World) (before after : List SessionLife.Op) (op : SessionTunnel.Op)
  (r : SessionTunnel.Effect)

theorem only_op (x : SessionTunnel.Op) (hp : w.pending = before ++ .tunnel op::after)
    (hx : opsOf w op.buf = [x]) : before.filterMap (ofSide op.buf) = [] ∧
      after.filterMap (ofSide op.buf) = [] ∧ op = x := by
  rw [opsOf, hp, List.filterMap_append, List.filterMap_cons, ofSide_self] at hx
  rcases List.append_eq_singleton_iff.mp hx with ⟨hb,ha⟩ | ⟨hb,ha⟩
  · obtain ⟨hop,ha⟩ := List.cons.inj ha
    exact ⟨hb,ha,hop⟩
  · exact absurd ha (List.cons_ne_nil _ _)

theorem settle_self (hb : before.filterMap (ofSide op.buf) = [])
    (ha : after.filterMap (ofSide op.buf) = []) (hr : ∀ t ∈ started r.2, t.buf = op.buf) :
    opsOf (settle w before after r) op.buf = started r.2 := by
  rw [opsOf, settle, List.filterMap_append, List.filterMap_append, hb, ha,
    ofSide_tunnels op.buf op.buf _ hr, if_pos rfl]
  rfl

theorem settle_other (a : Side) (hp : w.pending = before ++ .tunnel op::after)
    (hr : ∀ t ∈ started r.2, t.buf = op.buf) (h : a ≠ op.buf) :
    opsOf (settle w before after r) a = opsOf w a := by
  rw [opsOf, opsOf, settle, hp, List.filterMap_append, List.filterMap_append,
    List.filterMap_append, List.filterMap_cons, ofSide_other op a h,
    ofSide_tunnels op.buf a _ hr, if_neg h, List.append_nil]

theorem settle_tunnels (hp : w.pending = before ++ .tunnel op::after) (h : Relaying w) :
    Relaying (settle w before after r) := by
  intro x hx
  rcases List.mem_append.mp hx with hx | hx
  · refine h x ?_
    rw [hp]
    rcases List.mem_append.mp hx with hx | hx
    · exact List.mem_append_left _ hx
    · exact List.mem_append_right _ (List.mem_cons_of_mem _ hx)
  · obtain ⟨t,-,rfl⟩ := List.mem_map.mp hx
    exact ⟨t,rfl⟩

end Settle

/-- A direction is not touched by what the other does. -/
theorem flow_frame (w v : World) (src : Side) (read written : Bytes)
    (h : Flowing w src read written) (ho : opsOf v src = opsOf w src)
    (hb : readBuf v.sess src = readBuf w.sess src)
    (hclosed : SessionTunnel.Closed w.sess → SessionTunnel.Closed v.sess) :
    Flowing v src read written := by
  have hslice : ∀ n, sliceBuf v.sess src 0 n = sliceBuf w.sess src 0 n := by
    intro n
    rw [sliceBuf, sliceBuf, hb]
  cases h with
  | reading h hn hd => exact .reading (ho.trans h) (hb ▸ hn) hd
  | writing n h hn hlen hd => exact .writing n (ho.trans h) (hb ▸ hn) hlen (hslice n ▸ hd)
  | ended h hd hc => exact .ended (ho.trans h) hd (hc.imp id hclosed)

/-- The operation of a direction is the one it waits for. -/
theorem flow_op (w : World) (before after : List SessionLife.Op) (op : SessionTunnel.Op)
    (read written : Bytes) (hp : w.pending = before ++ .tunnel op::after)
    (h : Flowing w op.buf read written) :
    before.filterMap (ofSide op.buf) = [] ∧ after.filterMap (ofSide op.buf) = [] ∧
      readBuf w.sess op.buf ≠ none ∧
      (op = readOp op.buf ∧ written = read ∨ ∃ n, op = writeOp op.buf n ∧ n ≤ 4096 ∧
        written ++ sliceBuf w.sess op.buf 0 n = read) := by
  cases h with
  | reading h hn hd =>
    obtain ⟨hb,ha,hop⟩ := only_op w before after op _ hp h
    exact ⟨hb,ha,hn,.inl ⟨hop,hd⟩⟩
  | writing n h hn hlen hd =>
    obtain ⟨hb,ha,hop⟩ := only_op w before after op _ hp h
    exact ⟨hb,ha,hn,.inr ⟨n,hop,hlen,hd⟩⟩
  | ended h hd hc =>
    rw [opsOf, hp, List.filterMap_append, List.filterMap_cons, ofSide_self] at h
    exact absurd (List.append_eq_nil_iff.mp h).2 (List.cons_ne_nil _ _)

theorem run_starts (src : Side) (s : Session) (err : ErrorCode) (n : ℕ) :
    (∀ t ∈ started (SessionTunnel.run (readCallback src) s err n).2, t.buf = src) ∧
      ∀ t ∈ started (SessionTunnel.run (writeCallback src) s err n).2, t.buf = src := by
  rw [SessionTunnel.run_read, SessionTunnel.run_write]
  constructor <;> intro t <;> split_ifs <;> simp <;> rintro rfl <;> rfl

section Completes

variable (w : World) (l : Traffic) (heard told read written : Side → Bytes)
  (before after : List SessionLife.Op) (src : Side) (res : Completion)

/-- The other direction is left as it was. -/
theorem other_flows (op : SessionTunnel.Op) (s : Session) (r : SessionTunnel.Effect) (a : Side)
    (h : Flowing w a (read a) (written a)) (hp : w.pending = before ++ .tunnel op::after)
    (hstart : ∀ t ∈ started r.2, t.buf = op.buf) (hw : SessionTunnel.Within op.buf s r)
    (hbuf : readBuf s a = readBuf w.sess a)
    (hclosed : SessionTunnel.Closed w.sess → SessionTunnel.Closed s) (ha : a ≠ op.buf) :
    Flowing (settle w before after r) a (read a) (written a) :=
  flow_frame w _ a _ _ h (settle_other w before after op _ a hp hstart ha)
    ((hw.buffers a).trans hbuf) fun h => hw.closes (hclosed h)

/-- What was read is in the buffer. -/
theorem read_flows (h : Flows w l heard told read written)
    (hp : w.pending = before ++ .tunnel (readOp src)::after) (hd : res.data.length ≤ 4096)
    (hok : ¬ res.err.failed) :
    Flows (settle w before after (SessionTunnel.run (readCallback src)
        (fillBuf w.sess src res.data) res.err res.data.length)) (l.take src res.data)
      heard told (Function.update read src (read src ++ res.data)) written := by
  have hstart := (run_starts src (fillBuf w.sess src res.data) res.err res.data.length).1
  obtain ⟨hb,ha,hn,hop⟩ := flow_op w before after (readOp src) _ _ hp (h.flow src)
  have heq : written src = read src := by
    rcases hop with ⟨-,hd⟩ | ⟨n,hop,-⟩
    · exact hd
    · exact absurd hop (by simp [readOp, writeOp])
  refine ⟨settle_tunnels w before after (readOp src) _ hp h.tunnels,fun a => ?_,h.sent,
    fun a => ?_⟩
  · by_cases hsrc : a = src
    · subst hsrc
      rw [Ledger.taken_take, h.taken, Function.update_self, List.append_assoc]
    · rw [Ledger.taken_take_other l src a _ hsrc, Function.update_of_ne hsrc, h.taken]
  · by_cases hsrc : a = src
    · subst hsrc
      have hself := settle_self w before after (readOp a) _ hb ha hstart
      rw [Function.update_self]
      rw [SessionTunnel.run_read, if_pos hok] at hself ⊢
      refine .writing _ hself ?_ hd ?_
      · exact fun hnone => hn (by simpa [settle, SessionTunnel.readBuf_filled] using hnone)
      · rw [heq]
        exact congrArg _ (SessionTunnel.sliceBuf_filled w.sess a res.data hn hd)
    · rw [Function.update_of_ne hsrc]
      exact other_flows w read written before after (readOp src) _ _ a (h.flow a) hp hstart
        (SessionTunnel.within_read src _ _ _) (SessionTunnel.readBuf_fill _ _ _ _ hsrc)
        (SessionTunnel.closed_fill _ _ _) hsrc

/-- The direction has ended with all that it had read, or the sockets are closed. -/
theorem unread_flows (h : Flows w l heard told read written)
    (hp : w.pending = before ++ .tunnel (readOp src)::after) (he : res.err.failed) :
    Flows (settle w before after (SessionTunnel.run (readCallback src)
        (fillBuf w.sess src res.data) res.err res.data.length)) l heard told read written := by
  have hstart := (run_starts src (fillBuf w.sess src res.data) res.err res.data.length).1
  obtain ⟨hb,ha,-,hop⟩ := flow_op w before after (readOp src) _ _ hp (h.flow src)
  have heq : written src = read src := by
    rcases hop with ⟨-,hd⟩ | ⟨n,hop,-⟩
    · exact hd
    · exact absurd hop (by simp [readOp, writeOp])
  refine ⟨settle_tunnels w before after (readOp src) _ hp h.tunnels,h.taken,h.sent,fun a => ?_⟩
  by_cases hsrc : a = src
  · subst hsrc
    have hself := settle_self w before after (readOp a) _ hb ha hstart
    rw [SessionTunnel.run_read, if_neg (not_not.mpr he)] at hself ⊢
    split_ifs at hself ⊢ with heof
    · exact .ended hself (heq ▸ List.prefix_refl _) (.inl heq)
    · exact .ended hself (heq ▸ List.prefix_refl _) (.inr ⟨rfl,rfl⟩)
  · exact other_flows w read written before after (readOp src) _ _ a (h.flow a) hp hstart
      (SessionTunnel.within_read src _ _ _) (SessionTunnel.readBuf_fill _ _ _ _ hsrc)
      (SessionTunnel.closed_fill _ _ _) hsrc

/-- What was written has left the buffer. -/
theorem write_flows (n : ℕ) (h : Flows w l heard told read written)
    (hp : w.pending = before ++ .tunnel (writeOp src n)::after) (hd : res.data.length ≤ n)
    (hall : ¬ res.err.failed → res.data.length = n) :
    Flows (settle w before after (SessionTunnel.run (writeCallback src) w.sess res.err
        res.data.length)) (l.send src.other (sliceBuf w.sess src 0 res.data.length))
      heard told read
      (Function.update written src (written src ++ sliceBuf w.sess src 0 res.data.length)) := by
  have hstart := (run_starts src w.sess res.err res.data.length).2
  obtain ⟨hb,ha,hn,hop⟩ := flow_op w before after (writeOp src n) _ _ hp (h.flow src)
  have heq : written src ++ sliceBuf w.sess src 0 n = read src := by
    rcases hop with ⟨hop,-⟩ | ⟨m,hop,-,heq⟩
    · exact absurd hop (by simp [readOp, writeOp])
    · obtain rfl : n = m := (SessionTunnel.Op.write.inj hop).2.2.1
      exact heq
  refine ⟨settle_tunnels w before after (writeOp src n) _ hp h.tunnels,h.taken,fun a => ?_,
    fun a => ?_⟩
  · by_cases hsrc : a = src
    · subst hsrc
      rw [Ledger.sent_send, h.sent, Function.update_self, List.append_assoc]
    · rw [Ledger.sent_send_other l _ _ _ (by simpa using hsrc), Function.update_of_ne hsrc, h.sent]
  · by_cases hsrc : a = src
    · subst hsrc
      have hself := settle_self w before after (writeOp a n) _ hb ha hstart
      rw [Function.update_self]
      rw [SessionTunnel.run_write] at hself ⊢
      split_ifs at hself ⊢ with he
      · have hsplit := SessionTunnel.sliceBuf_split w.sess a 0 res.data.length n (by simpa using hd)
        refine .ended hself ⟨sliceBuf w.sess a (0+res.data.length) (n-(0+res.data.length)),?_⟩
          (.inr ⟨rfl,rfl⟩)
        rw [List.append_assoc, hsplit]
        exact heq
      · rw [hall he]
        exact .reading hself hn heq
    · rw [Function.update_of_ne hsrc]
      exact other_flows w read written before after (writeOp src n) _ _ a (h.flow a) hp hstart
        (SessionTunnel.within_write src _ _ _) rfl id hsrc

end Completes

def sides {α : Type*} (input output : α) : Side → α
  | .input => input
  | .output => output

/-! What is known when the output calls its handler. -/

/-- The chain was told what it has to be told and has let the session through,
or the client gets a response that is not a success. -/
structure Concluded (fuel : ℕ) (cfg : Config) (l : Traffic) (dst : Destination)
    (asked answered : Bytes) (response : ConnectResponse → Bytes) (r : ConnectResponse) :
    Prop where
  requested : Requested fuel cfg.input dst asked answered response
  taken : l.taken .input = asked
  told : Scripted cfg.output dst (l.sent .output)
  through : r.major = .succeeded →
    Cleared cfg.output dst (hops cfg.output) (l.taken .output) (l.sent .output)

theorem concluded_frame (fuel : ℕ) (cfg : Config) (l k : Traffic) (dst : Destination)
    (asked answered : Bytes) (response : ConnectResponse → Bytes) (r : ConnectResponse)
    (h : Concluded fuel cfg l dst asked answered response r)
    (hi : k.taken .input = l.taken .input) (hs : k.sent .output = l.sent .output)
    (ht : k.taken .output = l.taken .output) :
    Concluded fuel cfg k dst asked answered response r :=
  ⟨h.requested,hi.trans h.taken,hs ▸ h.told,fun hr => hs ▸ ht ▸ h.through hr⟩

/-- The operation that writes the response is outstanding. -/
inductive Writing (w : World) (msg : Bytes) : Prop
  | socks5 (s : ServerSessionSocks5.Session) (hs : w.srvSess = some (.socks5 s))
      (hread : s.userReadReqHandler = false) (hwrite : s.userWriteRespHandler = true)
      (hp : w.pending = [.socks5 (.write msg .writeConnectResponseHandler)])
  | https (s : ServerSessionHttps.Session) (hs : w.srvSess = some (.https s))
      (hread : s.userReadReqHandler = false)
      (hp : w.pending = [.https (.write msg .writeConnectResponseHandler)])

structure Replying (fuel : ℕ) (cfg : Config) (w : World) (l : Traffic) (dst : Destination)
    (asked answered : Bytes) (response : ConnectResponse → Bytes) (r : ConnectResponse) :
    Prop where
  wired : Wired cfg false w
  handler : w.sess.output.userConnectHandler = false
  success : w.sess.outputConnRes.success = true ↔ r.major = .succeeded
  concluded : Concluded fuel cfg l dst asked answered response r
  writing : Writing w (response r)
  sent : l.sent .input = answered

/-- The sockets are closed behind what the client was told. -/
structure Over (fuel : ℕ) (cfg : Config) (w : World) (l : Traffic) (dst : Destination)
    (asked answered told : Bytes) (response : ConnectResponse → Bytes) (r : ConnectResponse) :
    Prop where
  gone : Gone cfg false w
  concluded : Concluded fuel cfg l dst asked answered response r
  sent : l.sent .input = answered ++ told
  told : told <+: response r

structure Tunnelled (fuel : ℕ) (cfg : Config) (w : World) (l : Traffic) (dst : Destination)
    (asked answered heard told : Bytes) (response : ConnectResponse → Bytes)
    (read written : Side → Bytes) : Prop where
  wired : Wired cfg false w
  handlers : handlers w = 0
  handler : w.sess.output.userConnectHandler = false
  requested : Requested fuel cfg.input dst asked answered response
  cleared : Cleared cfg.output dst (hops cfg.output) heard told
  flows : Flows w l (sides asked heard) (sides (answered ++ response ⟨.succeeded⟩) told) read
    written

/-- Where the response leaves the session. -/
inductive Settled (fuel : ℕ) (cfg : Config) (w : World) (l : Traffic) : Prop
  | tunnelled (dst : Destination) (asked answered heard told : Bytes)
      (response : ConnectResponse → Bytes) (read written : Side → Bytes)
      (h : Tunnelled fuel cfg w l dst asked answered heard told response read written)
  | ended (dst : Destination) (asked answered told : Bytes) (response : ConnectResponse → Bytes)
      (r : ConnectResponse) (h : Over fuel cfg w l dst asked answered told response r)

/-- Where the call of the handler leaves the session. -/
inductive Replied (fuel : ℕ) (cfg : Config) (w : World) (l : Traffic) : Prop
  | replying (dst : Destination) (asked answered : Bytes) (response : ConnectResponse → Bytes)
      (r : ConnectResponse) (h : Replying fuel cfg w l dst asked answered response r)
  | settled (h : Settled fuel cfg w l)

section Replies

variable (fuel : ℕ) (cfg : Config) (l : Traffic) (dst : Destination)
  (asked answered told : Bytes) (response : ConnectResponse → Bytes) (r : ConnectResponse)

/-- The tunnel begins behind the response. -/
theorem tunnel_begins (m : Life) (hw : Wired cfg false m.state) (hp : m.state.pending = [])
    (hz : handlers m.state = 0) (hh : m.state.sess.output.userConnectHandler = false)
    (hc : Concluded fuel cfg l dst asked answered response r) (hr : r.major = .succeeded)
    (hs : l.sent .input = answered ++ response r) :
    Held.Brings makeTunnel m fun w => Settled fuel cfg w l := by
  obtain ⟨mc⟩ := r
  obtain rfl : mc = .succeeded := hr
  obtain ⟨w,hm,hw',hpend⟩ := tunnelled_brings cfg false m hw hp
  have hstate : w = (makeTunnel m).state := by rw [hm]
  have hsess : w.sess = (SessionTunnel.makeTunnel m.state.sess).1 := by rw [hstate]; rfl
  refine ⟨w,hm,.tunnelled dst asked answered (l.taken .output) (l.sent .output) response
    (fun _ => []) (fun _ => []) ⟨hw',?_,?_,hc.requested,hc.through rfl,
      relaying_tunnels w [_,_] hpend,?_,?_,?_⟩⟩
  · rw [hstate]
    exact hz
  · rw [hsess]
    exact hh
  · intro src
    cases src
    · exact hc.taken.trans (List.append_nil _).symm
    · exact (List.append_nil _).symm
  · intro src
    cases src
    · exact (List.append_nil _).symm
    · exact hs.trans (List.append_nil _).symm
  · intro src
    cases src
    · exact .reading (by rw [opsOf, hpend]; rfl) (by rw [hsess]; exact Option.some_ne_none _) rfl
    · exact .reading (by rw [opsOf, hpend]; rfl) (by rw [hsess]; exact Option.some_ne_none _) rfl

/-- Nothing is outstanding and the sockets are closed. -/
theorem closes_over (m : Life) (hw : Wired cfg false m.state) (hp : m.state.pending = [])
    (hz : handlers m.state = 0) (hh : m.state.sess.output.userConnectHandler = false)
    (hc : Concluded fuel cfg l dst asked answered response r)
    (hs : l.sent .input = answered ++ told) (ht : told <+: response r) :
    Held.Brings closeAll m fun w => Settled fuel cfg w l := by
  refine (closed_brings cfg false m hw).mono fun w h => ?_
  obtain ⟨hwired,hpend,hsrv,hout⟩ := h
  refine .ended dst asked answered told response r ⟨⟨hwired,hpend.trans hp,?_,?_⟩,hc,hs,ht⟩
  · rw [handlers, hsrv]
    exact hz
  · rw [hout]
    exact hh

/-- The response was written, or as much of it as `told`. -/
theorem written_replies (err : ErrorCode) (m : Life) (hw : Wired cfg false m.state)
    (hp : m.state.pending = []) (hz : handlers m.state = 0)
    (hh : m.state.sess.output.userConnectHandler = false)
    (hsucc : m.state.sess.outputConnRes.success = true ↔ r.major = .succeeded)
    (hc : Concluded fuel cfg l dst asked answered response r)
    (hs : l.sent .input = answered ++ told) (ht : told <+: response r)
    (hall : ¬ err.failed → told = response r) :
    Held.Brings (handleWriteConnectResponse err) m fun w => Settled fuel cfg w l := by
  by_cases h : err.failed ∨ m.state.sess.outputConnRes.success = false
  · exact (closes_over fuel cfg l dst asked answered told response r m hw hp hz hh hc hs ht).of_eq
      ((written_eq err m).trans (if_pos h))
  · obtain ⟨he,hno⟩ := not_or.mp h
    have hr := hsucc.mp (by simpa using hno)
    exact (tunnel_begins fuel cfg l dst asked answered response r m hw hp hz hh hc hr
      (hall he ▸ hs)).of_eq ((written_eq err m).trans (if_neg h))

/-- The client is told, by whatever the session has for it. -/
theorem respond_replies (m : Life) (hw : Wired cfg false m.state) (hp : m.state.pending = [])
    (hh : m.state.sess.output.userConnectHandler = false)
    (hsucc : m.state.sess.outputConnRes.success = true ↔ r.major = .succeeded)
    (ha : Answering m.state response) (hc : Concluded fuel cfg l dst asked answered response r)
    (hs : l.sent .input = answered) :
    Held.Brings (writeConnectResponse r) m fun w => Replied fuel cfg w l := by
  have hz := answering_handlers m.state response ha
  cases hcfg : cfg.input with
  | tunnel d =>
    have hnone := hw.tunnel d hcfg
    have hresp : response = fun _ => [] := by
      cases ha with
      | tunnel hs hr => exact hr
      | socks5 s hs hread hwrite hr => exact absurd (hnone.symm.trans hs) (by simp)
      | https s hs hread hr => exact absurd (hnone.symm.trans hs) (by simp)
    subst hresp
    refine ((written_replies fuel cfg l dst asked answered [] _ r .noError m hw hp hz hh hsucc hc
      (hs.trans (List.append_nil _).symm) List.nil_prefix fun _ => rfl).mono
        fun _ => .settled).of_eq ?_
    simp only [writeConnectResponse, hw.input, hcfg]
  | proxyServer t =>
    have hinput : m.state.sess.input.cfgInput = .proxyServer t := hw.input.trans hcfg
    cases ha with
    | tunnel hnone hr =>
      obtain ⟨srv,hsrv⟩ := hw.server t hcfg
      exact absurd (hnone.symm.trans hsrv) (by simp)
    | socks5 s hsrv hread hwrite hr =>
      refine (Held.brings_modify _ m _ (.replying dst asked answered response r
        ⟨?_,hh,hsucc,hc,
          .socks5 (ServerSessionSocks5.writeConnectResponse s r).1 rfl hread rfl ?_,hs⟩)).of_eq
        (by simp only [writeConnectResponse, hinput, hsrv]; rfl)
      · exact wired_served cfg false t _ _ _ _ hcfg hw rfl
      · rw [hp, hr]
        rfl
    | https s hsrv hread hr =>
      refine (Held.brings_modify _ m _ (.replying dst asked answered response r
        ⟨?_,hh,hsucc,hc,
          .https (ServerSessionHttps.writeConnectResponse s r).1 rfl hread ?_,hs⟩)).of_eq
        (by simp only [writeConnectResponse, hinput, hsrv]; rfl)
      · exact wired_served cfg false t _ _ _ _ hcfg hw rfl
      · rw [hp, hr]
        rfl

end Replies

/-! The outcome of the chain is told in a response. -/

def reply (cr : Output.ConnectResult) : ConnectResponse :=
  if cr.success then ⟨.succeeded⟩ else Session.failureResponse cr

/-- A failure is never told as a success. -/
theorem failure_refuses (cr : Output.ConnectResult)
    (h : ¬ cr.err.failed → cr.connResp.major ≠ .succeeded) :
    (Session.failureResponse cr).major ≠ .succeeded := by
  unfold Session.failureResponse
  split_ifs with he
  · cases hm : ConnectResponse.errorCodeToMajor cr.err with
    | none => simp
    | some mc => exact fun h => errorCodeToMajor_refuses cr.err (hm.trans (congrArg some h))
  · exact h he

theorem reply_succeeds (cr : Output.ConnectResult)
    (h : cr.success = false → ¬ cr.err.failed → cr.connResp.major ≠ .succeeded) :
    cr.success = true ↔ (reply cr).major = .succeeded := by
  unfold reply
  cases hs : cr.success with
  | true => simp
  | false => simpa using failure_refuses cr (h hs)

section AddressText

variable (addressText : Address → Bytes) (fuel : ℕ) (cfg : Config) (l : Traffic)
  (dst : Destination) (asked answered : Bytes) (response : ConnectResponse → Bytes)

theorem reported_replies (r : ConnectResponse) (m : Life) (s : Session)
    (hw : Wired cfg false m.state) (hp : m.state.pending = [])
    (hh : m.state.sess.output.userConnectHandler = false) (hi : s.input = m.state.sess.input)
    (ho : s.output = m.state.sess.output)
    (hsucc : s.outputConnRes.success = true ↔ r.major = .succeeded)
    (ha : Answering m.state response) (hc : Concluded fuel cfg l dst asked answered response r)
    (hs : l.sent .input = answered) :
    Held.Brings (Held.hold (writeConnectResponse r)) (m.modify (·.setSess s))
      fun w => Replied fuel cfg w l := by
  apply Held.brings_hold
  exact respond_replies fuel cfg l dst asked answered response r _ (wired_sess cfg false _ s hw hi)
    hp ((congrArg Output.userConnectHandler ho).trans hh) hsucc
    (answering_frame m.state _ response ha rfl) hc hs

/-- What is printed and logged is not told. -/
theorem connected_replies (cr : Output.ConnectResult) (m : Life) (hw : Wired cfg false m.state)
    (hp : m.state.pending = []) (hh : m.state.sess.output.userConnectHandler = false)
    (hcr : cr.success = false → ¬ cr.err.failed → cr.connResp.major ≠ .succeeded)
    (ha : Answering m.state response)
    (hc : Concluded fuel cfg l dst asked answered response (reply cr))
    (hs : l.sent .input = answered) :
    Held.Brings (handleConnectOutput addressText cr) m fun w => Replied fuel cfg w l := by
  have hsucc := reply_succeeds cr hcr
  by_cases hok : cr.success = true
  · have hr : reply cr = ⟨.succeeded⟩ := if_pos hok
    obtain ⟨hi,ho,hres⟩ := remember_frame addressText { m.state.sess with outputConnRes := cr }
    have h := reported_replies fuel cfg l dst asked answered response _ m _ hw hp hh hi ho
      (hres ▸ hsucc) ha hc hs
    rw [hr] at h
    exact h.after _ (if_pos hok)
  · have hr : reply cr = Session.failureResponse cr := if_neg hok
    by_cases he : cr.err.failed
    · obtain ⟨hi,ho,hres⟩ := printed_frame { m.state.sess with outputConnRes := cr } cr
      have h := reported_replies fuel cfg l dst asked answered response _ m _ hw hp hh hi ho
        (hres ▸ hsucc) ha hc hs
      rw [hr] at h
      refine h.after _ ((if_neg hok).trans ?_)
      rw [if_pos he]
    · have h := reported_replies fuel cfg l dst asked answered response _ m
        { m.state.sess with outputConnRes := cr } hw hp hh rfl rfl hsucc ha hc hs
      rw [hr] at h
      refine h.after _ ((if_neg hok).trans ?_)
      rw [if_neg he]

/-- The output calls its handler, and has none afterwards. -/
theorem called_replies (cr : Output.ConnectResult) (m : Life) (hw : Wired cfg false m.state)
    (hp : m.state.pending = []) (hh : m.state.sess.output.userConnectHandler = true)
    (hcr : cr.success = false → ¬ cr.err.failed → cr.connResp.major ≠ .succeeded)
    (ha : Answering m.state response)
    (hc : Concluded fuel cfg l dst asked answered response (reply cr))
    (hs : l.sent .input = answered) :
    Held.Brings (callAndClearHandler addressText cr) m fun w => Replied fuel cfg w l := by
  refine (Held.brings_hold _ m _ ?_).of_eq (if_pos hh)
  refine (connected_replies addressText fuel cfg l dst asked answered response cr
    (Held.modify (fun w => w.setOutput { w.sess.output with userConnectHandler := false })
      { m with locals := m.locals+1 }) ?_ hp rfl hcr
    (answering_frame m.state _ response ha rfl) hc hs).after _ rfl
  exact wired_sess cfg false _ _ hw rfl

end AddressText

/-! The response has been written. -/

section Written

variable (fuel : ℕ) (cfg : Config) (w : World) (l : Traffic) (dst : Destination)
  (asked answered : Bytes) (response : ConnectResponse → Bytes) (r : ConnectResponse)
  (res : Completion)

/-- The server session has called its user behind the response. -/
theorem served_replies (srv : ServerSession) (err : ErrorCode) (data : Bytes) (m : Life)
    (h : Replying fuel cfg w l dst asked answered response r)
    (hm : m.state = { w with pending := [] }) (ht : ∃ t, cfg.input = .proxyServer t)
    (hz : srv.handlers = 0) (hd : data <+: response r) (hall : ¬ err.failed → data = response r)
    (k : Traffic) (hsent : k.sent .input = answered ++ data)
    (htaken : k.taken .input = l.taken .input)
    (hsilent : k.taken .output = l.taken .output ∧ k.sent .output = l.sent .output) :
    Held.Brings (serverDoes srv [.emit (.writeResp err)]) m fun v => Settled fuel cfg v k := by
  obtain ⟨t,ht⟩ := ht
  have heq : serverDoes srv [.emit (.writeResp err)] m = Held.hold (fun m =>
      handleWriteConnectResponse err (m.modify (·.setServer srv))) m := by
    rw [← List.nil_append [_], show [] = failures 0 from rfl, serve_eq]
    rfl
  have hwired : Wired cfg false m.state := hm ▸ wired_pending cfg false w [] h.wired
  refine (Held.brings_hold _ m _ ?_).of_eq heq
  refine (written_replies fuel cfg k dst asked answered data response r err
    (Held.modify (·.setServer srv) { m with locals := m.locals+1 }) ?_ ?_ hz ?_ ?_ ?_ hsent hd
    hall).after _ rfl
  · exact wired_served cfg false t _ _ srv _ ht hwired rfl
  · exact congrArg World.pending hm
  · exact (congrArg (·.sess.output.userConnectHandler) hm).trans h.handler
  · have hres : m.state.sess.outputConnRes = w.sess.outputConnRes :=
      congrArg (·.sess.outputConnRes) hm
    exact hres ▸ h.success
  · exact concluded_frame fuel cfg l k dst asked answered response r h.concluded htaken
      hsilent.2 hsilent.1

theorem moved_sent {κ : Type*} (msg data : Bytes) (k : κ)
    (h : l.sent .input = answered) :
    (l.move .input (.write msg k) data).sent .input = answered ++ data ∧
      (l.move .input (StreamObject.Op.write msg k) data).taken .input = l.taken .input ∧
      (l.move .input (StreamObject.Op.write msg k) data).taken .output = l.taken .output ∧
      (l.move .input (StreamObject.Op.write msg k) data).sent .output = l.sent .output := by
  refine ⟨?_,?_,Ledger.move_other l .input .output _ data (by decide)⟩
  · rw [Ledger.sent_move, h]
    rfl
  · rw [Ledger.taken_move]
    exact List.append_nil _

/-- What a write has handed over. -/
theorem moved_part {κ : Type*} (msg : Bytes) (k : κ)
    (h : if res.err.failed then (StreamObject.Op.write msg k).Part res.data
      else (StreamObject.Op.write msg k).Whole res.data) :
    res.data <+: msg ∧ (¬ res.err.failed → res.data = msg) := by
  split_ifs at h with he
  · exact ⟨h,fun hno => absurd he hno⟩
  · obtain rfl : res.data = msg := h
    exact ⟨List.prefix_refl _,fun _ => rfl⟩

theorem socks5_replies (msg : Bytes) (s : ServerSessionSocks5.Session) (m : Life)
    (h : Replying fuel cfg w l dst asked answered response r)
    (hm : m.state = { w with pending := [] }) (hmsg : msg = response r)
    (hs : w.srvSess = some (.socks5 s)) (hread : s.userReadReqHandler = false)
    (hwrite : s.userWriteRespHandler = true)
    (ha : SessionLife.Allowed res (.socks5 (.write msg .writeConnectResponseHandler))) :
    Held.Brings (socks5Done (.write msg .writeConnectResponseHandler) res) m fun v =>
      Settled fuel cfg v (l.move .input (StreamObject.Op.write msg
        ServerSessionSocks5.Callback.writeConnectResponseHandler) res.data) := by
  obtain ⟨hsent,htaken,hother⟩ := moved_sent l answered msg res.data
    ServerSessionSocks5.Callback.writeConnectResponseHandler h.sent
  obtain ⟨hpart,hall⟩ := moved_part res msg _ ha
  have hserver : m.state.server = some (.socks5 { s with userDst := m.state.sess.dst }) := by
    rw [hm]
    simp [World.server, hs]
  have hrun : ∀ x : ServerSessionSocks5.Session, x.userWriteRespHandler = true →
      ServerSessionSocks5.run .writeConnectResponseHandler x res.err =
        ({ x with userWriteRespHandler := false },[.emit (.call .writeResp
          (if res.err.failed then res.err else .noError))]) := by
    intro x hx
    by_cases he : res.err.failed
    · rw [if_pos he]
      exact (if_pos he).trans (if_pos hx)
    · rw [if_neg he]
      exact (if_neg he).trans (if_pos hx)
  refine (served_replies fuel cfg w l dst asked answered response r
    (.socks5 { s with userDst := m.state.sess.dst, userWriteRespHandler := false })
    (if res.err.failed then res.err else .noError) res.data m h hm
    (wired_asks cfg false w _ h.wired hs) ?_ ?_ ?_ _ hsent htaken hother).of_eq ?_
  · simp [ServerSession.handlers, hread]
  · exact hmsg ▸ hpart
  · split_ifs with he
    · exact fun hno => absurd he hno
    · exact fun _ => (hall he).trans hmsg
  · simp only [socks5Done, hserver, StreamObject.Op.callback, ServerSessionSocks5.store,
      AfterCall.Socks5.untilCall, AfterCall.Socks5.goesOn, Bool.false_eq_true, if_false]
    rw [hrun { s with userDst := m.state.sess.dst } hwrite]
    rfl

theorem https_replies (msg : Bytes) (s : ServerSessionHttps.Session) (m : Life)
    (h : Replying fuel cfg w l dst asked answered response r)
    (hm : m.state = { w with pending := [] }) (hmsg : msg = response r)
    (hs : w.srvSess = some (.https s)) (hread : s.userReadReqHandler = false)
    (ha : SessionLife.Allowed res (.https (.write msg .writeConnectResponseHandler))) :
    Held.Brings (httpsDone fuel (.write msg .writeConnectResponseHandler) res) m fun v =>
      Settled fuel cfg v (l.move .input (StreamObject.Op.write msg
        ServerSessionHttps.Callback.writeConnectResponseHandler) res.data) := by
  obtain ⟨hsent,htaken,hother⟩ := moved_sent l answered msg res.data
    ServerSessionHttps.Callback.writeConnectResponseHandler h.sent
  obtain ⟨hpart,hall⟩ := moved_part res msg _ ha
  have hserver : m.state.server = some (.https { s with userDst := m.state.sess.dst }) := by
    rw [hm]
    simp [World.server, hs]
  refine (served_replies fuel cfg w l dst asked answered response r
    (.https { s with userDst := m.state.sess.dst }) res.err res.data m h hm
    (wired_asks cfg false w _ h.wired hs) ?_ (hmsg ▸ hpart) (fun he => (hall he).trans hmsg) _
    hsent htaken hother).of_eq ?_
  · simp [ServerSession.handlers, hread]
  · simp only [httpsDone, hserver, StreamObject.Op.callback, ServerSessionHttps.store,
      AfterCall.Https.untilCall, AfterCall.Https.goesOn, Bool.false_eq_true, if_false]
    rfl

end Written

/-! The tunnel goes on. -/

theorem run_output (k : SessionTunnel.Callback) (s : Session) (err : ErrorCode) (n : ℕ) :
    (SessionTunnel.run k s err n).1.output = s.output := by
  cases k <;>
    simp only [SessionTunnel.run, SessionTunnel.handleInputRead, SessionTunnel.handleOutputRead,
      SessionTunnel.handleInputWrite, SessionTunnel.handleOutputWrite, SessionTunnel.handleRead,
      SessionTunnel.handleWrite] <;>
    split_ifs <;> rfl

theorem fillBuf_output (s : Session) (side : Side) (data : Bytes) :
    (fillBuf s side data).output = s.output := by
  cases side <;> rfl

/-- One operation of the tunnel, of whichever direction. -/
theorem tunnel_replies (fuel : ℕ) (cfg : Config) (w : World) (l : Traffic) (dst : Destination)
    (asked answered heard told : Bytes) (response : ConnectResponse → Bytes)
    (read written : Side → Bytes) (before after : List SessionLife.Op) (op : SessionTunnel.Op)
    (res : Completion) (m : Life)
    (h : Tunnelled fuel cfg w l dst asked answered heard told response read written)
    (hp : w.pending = before ++ .tunnel op::after)
    (hm : m.state = { w with pending := before ++ after })
    (ha : SessionLife.Allowed res (.tunnel op)) (hs : Sound res (.tunnel op)) :
    Held.Brings (tunnelDone op res) m
      fun v => Settled fuel cfg v (record w.sess (.tunnel op) res l) := by
  have hkeeps : ∀ (r : SessionTunnel.Effect) (k : Traffic) (read' written' : Side → Bytes),
      r.1.input = w.sess.input → r.1.output = w.sess.output →
      Flows (settle w before after r) k (sides asked heard)
        (sides (answered ++ response ⟨.succeeded⟩) told) read' written' →
      Settled fuel cfg (settle w before after r) k := by
    intro r k read' written' hin hout hflows
    exact .tunnelled dst asked answered heard told response read' written'
      ⟨⟨h.wired.sptr,(congrArg Input.cfgInput hin).trans h.wired.input,h.wired.tunnel,
        h.wired.server⟩,h.handlers,(congrArg Output.userConnectHandler hout).trans h.handler,
        h.requested,h.cleared,hflows⟩
  have hdoes : ∀ (r : SessionTunnel.Effect), Held.Brings (tunnelDoes r)
      { m with locals := m.locals+1 } (· = settle w before after r) := by
    intro r
    refine Held.brings_modify _ _ _ ?_
    change World.mk _ m.state.srvSess m.state.sessSptr (m.state.pending ++ _) = _
    rw [hm]
    rfl
  have hsess : m.state.sess = w.sess := by rw [hm]
  obtain ⟨-,-,-,hop⟩ := flow_op w before after op _ _ hp (h.flows.flow op.buf)
  rcases hop with ⟨hop,-⟩ | ⟨n,hop,-⟩
  · generalize op.buf = src at hop
    subst hop
    have hsettled := fun k read' hflows => hkeeps (SessionTunnel.run (readCallback src)
      (fillBuf w.sess src res.data) res.err res.data.length) k read' written
      ((run_input _ _ _ _).trans (fillBuf_input _ _ _))
      ((run_output _ _ _ _).trans (fillBuf_output _ _ _)) hflows
    apply Held.brings_hold
    refine ((hdoes _).mono fun v hv => ?_).of_eq rfl
    rw [hv, hsess]
    by_cases he : res.err.failed
    · have hrec : record w.sess (.tunnel (readOp src)) res l = l := if_pos he
      rw [hrec]
      exact hsettled _ _ (unread_flows w l _ _ read written before after src res h.flows hp he)
    · have hrec : record w.sess (.tunnel (readOp src)) res l = l.take src res.data := if_neg he
      rw [hrec]
      exact hsettled _ _ (read_flows w l _ _ read written before after src res h.flows hp ha he)
  · generalize op.buf = src at hop
    subst hop
    have hflows := write_flows w l _ _ read written before after src res n h.flows hp ha hs
    apply Held.brings_hold
    refine ((hdoes _).mono fun v hv => ?_).of_eq rfl
    rw [hv, hsess]
    exact hkeeps _ _ _ _ (run_input _ _ _ _) (run_output _ _ _ _) hflows

end ProxySwiss.ReplyTraffic
