import ProxySwiss.SessionTunnel

/-!
# The two loops of the tunnel

Each direction is a loop of its own over the buffer of its source. A loop reads
or writes or has ended, a step of the one does not touch the other, and in each
of its phases it has relayed what it has read up to what it is writing. A loop that has
ended without a shutdown leaves both sockets closed.
-/

set_option autoImplicit false

namespace ProxySwiss.SessionTunnel
open Memory TransitionSystem CallbackObject
open Session (Session)

/-- The operations of one direction: those on the buffer of its source. -/
def opsOf (active : List (Op × ℕ)) (src : Side) : List (Op × ℕ) :=
  active.filter fun p => p.1.buf = src

def Tunnel.ops (t : Tunnel) (src : Side) : List (Op × ℕ) := opsOf t.active src

/-- One direction of the tunnel. What was read and has not left is what remains
in the buffer of the outstanding write. -/
inductive Loop (t : Tunnel) (src : Side) : Prop
  | reading (ha : t.ops src = [(readOp src,0)]) (hd : t.toSock src.other = t.fromSock src)
      (he : .shutdownSend src.other ∉ t.events) (hb : readBuf t.obj src ≠ none)
  | writing (n off : ℕ) (ha : t.ops src = [(writeOp src n,off)])
      (hd : t.toSock src.other ++ sliceBuf t.obj src off (n-off) = t.fromSock src)
      (he : .shutdownSend src.other ∉ t.events) (hb : readBuf t.obj src ≠ none)
  | ended (ha : t.ops src = []) (hd : t.toSock src.other <+: t.fromSock src)
      (he : .shutdownSend src.other ∈ t.events → t.toSock src.other = t.fromSock src)
      (hc : .shutdownSend src.other ∉ t.events → Closed t.obj)

theorem opsOf_append (xs ys : List (Op × ℕ)) (src : Side) :
    opsOf (xs ++ ys) src = opsOf xs src ++ opsOf ys src := List.filter_append ..

theorem opsOf_here (op : Op) (off : ℕ) (xs : List (Op × ℕ)) (src : Side) (h : src = op.buf) :
    opsOf ((op,off)::xs) src = (op,off)::opsOf xs src := by
  simp [opsOf, h]

theorem opsOf_there (op : Op) (off : ℕ) (xs : List (Op × ℕ)) (src : Side) (h : src ≠ op.buf) :
    opsOf ((op,off)::xs) src = opsOf xs src := by
  simp [opsOf, h.symm]

/-- A loop is not touched by what the other loop does. -/
theorem loop_frame (t v : Tunnel) (src : Side) (h : Loop t src) (hops : v.ops src = t.ops src)
    (hto : v.toSock src.other = t.toSock src.other) (hfrom : v.fromSock src = t.fromSock src)
    (hbuf : readBuf v.obj src = readBuf t.obj src)
    (hev : .shutdownSend src.other ∈ v.events ↔ .shutdownSend src.other ∈ t.events)
    (hclosed : Closed t.obj → Closed v.obj) : Loop v src := by
  have hslice : ∀ off len, sliceBuf v.obj src off len = sliceBuf t.obj src off len := by
    intro off len
    rw [sliceBuf, sliceBuf, hbuf]
  cases h with
  | reading ha hd he hb =>
    exact .reading (hops.trans ha) (by rw [hto, hfrom, hd]) (hev.not.mpr he) (hbuf ▸ hb)
  | writing n off ha hd he hb =>
    exact .writing n off (hops.trans ha) (by rw [hto, hfrom, hslice, hd]) (hev.not.mpr he)
      (hbuf ▸ hb)
  | ended ha hd he hc =>
    exact .ended (hops.trans ha) (by rwa [hto, hfrom]) (fun h => by rw [hto, hfrom, he (hev.mp h)])
      fun h => hclosed (hc (hev.not.mp h))

/-- A callback that keeps to the loop of `src`. -/
structure Within (src : Side) (s : Session) (r : Effect) : Prop where
  starts : ∀ a, a ≠ src → opsOf ((started r.2).map (·,0)) a = []
  buffers : ∀ a, readBuf r.1 a = readBuf s a
  shuts : ∀ a, a ≠ src → .shutdownSend a.other ∉ emitted r.2
  closes : Closed s → Closed r.1

theorem within_closed (src : Side) (s : Session) : Within src s (Session.closeAll s,[]) :=
  ⟨fun _ _ => rfl,fun a => readBuf_closeAll s a,fun _ _ => by simp,fun _ => ⟨rfl,rfl⟩⟩

theorem within_start (src : Side) (s : Session) (op : Op) (h : op.buf = src) :
    Within src s (s,[.start op]) :=
  ⟨fun a ha => by simp [opsOf, h, ha.symm],fun _ => rfl,fun _ _ => by simp,id⟩

theorem within_read (src : Side) (s : Session) (err : ErrorCode) (n : ℕ) :
    Within src s (run (readCallback src) s err n) := by
  rw [run_read]
  split_ifs with hok heof
  · refine ⟨fun _ _ => rfl,fun _ => rfl,fun a ha => ?_,id⟩
    cases a <;> cases src <;> simp [Side.other] at ha ⊢
  · exact within_closed src s
  · exact within_start src s _ rfl

theorem within_write (src : Side) (s : Session) (err : ErrorCode) (n : ℕ) :
    Within src s (run (writeCallback src) s err n) := by
  rw [run_write]
  split_ifs with hok
  · exact within_closed src s
  · exact within_start src s _ rfl

/-- The loop that the operation does not belong to. -/
theorem settle_there (t u : Tunnel) (before after : List (Op × ℕ)) (op : Op) (off : ℕ)
    (r : Effect) (src : Side) (ha : t.active = before ++ (op,off)::after) (hne : src ≠ op.buf)
    (hr : Within op.buf u.obj r) (hto : u.toSock = t.toSock)
    (hfrom : u.fromSock src = t.fromSock src) (hbuf : readBuf u.obj src = readBuf t.obj src)
    (hev : u.events = t.events) (hclosed : Closed t.obj → Closed u.obj) (h : Loop t src) :
    Loop (u.settle before after r) src := by
  apply loop_frame t _ src h
  · simp only [Tunnel.ops, Tunnel.settle, opsOf_append, hr.starts src hne, ha,
      opsOf_there op off _ src hne, List.append_nil]
  · exact congrFun hto src.other
  · exact hfrom
  · exact (hr.buffers src).trans hbuf
  · simp [Tunnel.settle, hev, hr.shuts src hne]
  · exact fun h => hr.closes (hclosed h)

theorem settle_here (t : Tunnel) (before after : List (Op × ℕ)) (r : Effect) (src : Side)
    (hb : opsOf before src = []) (ha : opsOf after src = []) :
    (t.settle before after r).ops src = opsOf ((started r.2).map (·,0)) src := by
  simp [Tunnel.ops, Tunnel.settle, opsOf_append, hb, ha]

theorem only_op (t : Tunnel) (before after : List (Op × ℕ)) (op : Op) (off : ℕ)
    (x : Op × ℕ) (ha : t.active = before ++ (op,off)::after) (hx : t.ops op.buf = [x]) :
    opsOf before op.buf = [] ∧ opsOf after op.buf = [] ∧ x = (op,off) := by
  rw [Tunnel.ops, ha, opsOf_append, opsOf_here _ _ _ _ rfl] at hx
  obtain ⟨hb,hx⟩ | ⟨-,hx⟩ := List.append_eq_singleton_iff.mp hx
  · simp only [List.cons.injEq] at hx
    exact ⟨hb,hx.2,hx.1.symm⟩
  · simp at hx

/-- An outstanding read belongs to its loop, and everything read has left. -/
theorem active_read (t : Tunnel) (before after : List (Op × ℕ)) (sock buf : Side) (k : Callback)
    (off : ℕ) (h : Loop t buf) (ha : t.active = before ++ (.readSome sock buf k,off)::after) :
    (sock = buf ∧ k = readCallback buf) ∧ (opsOf before buf = [] ∧ opsOf after buf = []) ∧
      t.toSock buf.other = t.fromSock buf ∧ .shutdownSend buf.other ∉ t.events ∧
      readBuf t.obj buf ≠ none := by
  cases h with
  | reading hops hd he hb =>
    obtain ⟨hbef,haft,heq⟩ := only_op t before after _ _ _ ha hops
    simp only [readOp, Prod.mk.injEq, Op.readSome.injEq] at heq
    exact ⟨⟨heq.1.1.symm,heq.1.2.2.symm⟩,⟨hbef,haft⟩,hd,he,hb⟩
  | writing n off' hops hd he hb =>
    obtain ⟨-,-,heq⟩ := only_op t before after _ _ _ ha hops
    simp [writeOp] at heq
  | ended hops hd he hc =>
    rw [Tunnel.ops, ha, opsOf_append] at hops
    simp [opsOf, Op.buf] at hops

/-- An outstanding write belongs to its loop, and its buffer holds what remains. -/
theorem active_write (t : Tunnel) (before after : List (Op × ℕ)) (sock buf : Side) (n : ℕ)
    (k : Callback) (off : ℕ) (h : Loop t buf)
    (ha : t.active = before ++ (.write sock buf n k,off)::after) :
    (sock = buf.other ∧ k = writeCallback buf) ∧ (opsOf before buf = [] ∧ opsOf after buf = []) ∧
      t.toSock buf.other ++ sliceBuf t.obj buf off (n-off) = t.fromSock buf ∧
      .shutdownSend buf.other ∉ t.events ∧ readBuf t.obj buf ≠ none := by
  cases h with
  | writing n' off' hops hd he hb =>
    obtain ⟨hbef,haft,heq⟩ := only_op t before after _ _ _ ha hops
    simp only [writeOp, Prod.mk.injEq, Op.write.injEq] at heq
    obtain ⟨⟨rfl,-,rfl,rfl⟩,rfl⟩ := heq
    exact ⟨⟨rfl,rfl⟩,⟨hbef,haft⟩,hd,he,hb⟩
  | reading hops hd he hb =>
    obtain ⟨-,-,heq⟩ := only_op t before after _ _ _ ha hops
    simp [readOp] at heq
  | ended hops hd he hc =>
    rw [Tunnel.ops, ha, opsOf_append] at hops
    simp [opsOf, Op.buf] at hops

/-- Both sockets are closed and the loop starts nothing more. -/
theorem loop_closed (t : Tunnel) (before after : List (Op × ℕ)) (src : Side)
    (hb : opsOf before src = []) (ha : opsOf after src = [])
    (hd : t.toSock src.other <+: t.fromSock src) (he : .shutdownSend src.other ∉ t.events) :
    Loop (t.settle before after (Session.closeAll t.obj,[])) src :=
  .ended (settle_here t _ _ _ src hb ha) hd (fun h => absurd h (by simpa [Tunnel.settle] using he))
    fun _ => ⟨rfl,rfl⟩

/-! What each kind of step makes of the loop that it belongs to. -/

theorem loop_gained (t : Tunnel) (before after : List (Op × ℕ)) (src : Side)
    (chunk rest : Bytes) (hbef : opsOf before src = []) (haft : opsOf after src = [])
    (hd : t.toSock src.other = t.fromSock src) (he : .shutdownSend src.other ∉ t.events)
    (hb : readBuf t.obj src ≠ none) (hn : chunk.length ≤ 4096) :
    Loop ((t.gain src src chunk rest).settle before after
      (run (readCallback src) (fillBuf t.obj src chunk) .noError chunk.length)) src := by
  rw [run_read, if_pos ErrorCode.noError_failed]
  apply Loop.writing chunk.length 0
  · rw [settle_here _ _ _ _ _ hbef haft]
    simp [opsOf]
  · simp [Tunnel.settle, Tunnel.gain, hd, sliceBuf_filled _ _ _ hb hn]
  · simpa [Tunnel.settle, Tunnel.gain] using he
  · simpa [Tunnel.settle, Tunnel.gain, readBuf_filled] using hb

theorem loop_unread (t : Tunnel) (before after : List (Op × ℕ)) (src : Side) (err : ErrorCode)
    (herr : err.failed) (hbef : opsOf before src = []) (haft : opsOf after src = [])
    (hd : t.toSock src.other = t.fromSock src) (he : .shutdownSend src.other ∉ t.events) :
    Loop (t.settle before after (run (readCallback src) t.obj err 0)) src := by
  rw [run_read, if_neg (not_not.mpr herr)]
  split_ifs with heof
  · exact .ended (settle_here t _ _ _ src hbef haft) (hd ▸ List.prefix_refl _) (fun _ => hd)
      fun h => absurd (List.mem_append_right _ (List.mem_singleton_self _)) h
  · exact loop_closed t _ _ src hbef haft (hd ▸ List.prefix_refl _) he

theorem loop_transferred (t : Tunnel) (before after : List (Op × ℕ)) (src : Side) (n off m : ℕ)
    (hn : off+m ≤ n) (hbef : opsOf before src = []) (haft : opsOf after src = [])
    (hd : t.toSock src.other ++ sliceBuf t.obj src off (n-off) = t.fromSock src)
    (he : .shutdownSend src.other ∉ t.events) (hb : readBuf t.obj src ≠ none) :
    Loop (t.transfer before after src.other src n (writeCallback src) off m) src := by
  apply Loop.writing n (off+m)
  · simp only [Tunnel.ops, Tunnel.transfer, opsOf_append, hbef]
    rw [opsOf_here _ _ _ src rfl, haft]
    rfl
  · simp only [Tunnel.transfer, Function.update_self, List.append_assoc]
    rw [sliceBuf_split _ _ _ _ _ hn, hd]
  · exact he
  · exact hb

/-- A transfer for one loop is not seen by the other. -/
theorem transfer_there (t : Tunnel) (before after : List (Op × ℕ)) (buf src : Side) (n off m : ℕ)
    (ha : t.active = before ++ (writeOp buf n,off)::after) (hsrc : src ≠ buf) (h : Loop t src) :
    Loop (t.transfer before after buf.other buf n (writeCallback buf) off m) src := by
  apply loop_frame t _ src h
  · have hthere := fun x => opsOf_there (writeOp buf n) x after src hsrc
    simp only [Tunnel.ops, Tunnel.transfer, ha, opsOf_append]
    exact congrArg (_ ++ ·) ((hthere _).trans (hthere _).symm)
  · simp [Tunnel.transfer, other_inj, hsrc]
  · rfl
  · rfl
  · exact Iff.rfl
  · exact id

theorem loop_written (t : Tunnel) (before after : List (Op × ℕ)) (src : Side) (n : ℕ)
    (hbef : opsOf before src = []) (haft : opsOf after src = [])
    (hd : t.toSock src.other ++ sliceBuf t.obj src n (n-n) = t.fromSock src)
    (he : .shutdownSend src.other ∉ t.events) (hb : readBuf t.obj src ≠ none) :
    Loop (t.settle before after (run (writeCallback src) t.obj .noError n)) src := by
  rw [run_write, if_neg ErrorCode.noError_failed]
  apply Loop.reading
  · rw [settle_here _ _ _ _ _ hbef haft]
    simp [opsOf]
  · rw [Nat.sub_self, sliceBuf_zero, List.append_nil] at hd
    exact hd
  · simpa [Tunnel.settle] using he
  · exact hb

theorem step_loop (t v : Tunnel) (h : ∀ a, Loop t a) (hs : Step t v) (src : Side) :
    Loop v src := by
  cases hs with
  | arrive sock chunk => exact loop_frame t _ src (h src) rfl rfl rfl rfl Iff.rfl id
  | read before after sock buf k chunk rest ha hc hn hi =>
    obtain ⟨⟨rfl,rfl⟩,⟨hbef,haft⟩,hd,he,hb⟩ := active_read t before after _ _ _ _ (h buf) ha
    by_cases hsrc : src = sock
    · subst hsrc
      exact loop_gained t before after src chunk rest hbef haft hd he hb hn
    · have hw := within_read sock (fillBuf t.obj sock chunk) .noError chunk.length
      apply settle_there t (t.gain sock sock chunk rest) before after _ 0 _ src ha hsrc hw rfl
      · simp [Tunnel.gain, hsrc]
      · exact readBuf_fill _ _ _ _ hsrc
      · rfl
      · exact closed_fill t.obj sock chunk
      · exact h src
  | readFail before after sock buf k err ha herr =>
    obtain ⟨⟨rfl,rfl⟩,⟨hbef,haft⟩,hd,he,-⟩ := active_read t before after _ _ _ _ (h buf) ha
    by_cases hsrc : src = sock
    · subst hsrc
      exact loop_unread t before after src err herr hbef haft hd he
    · exact settle_there t t before after _ 0 _ src ha hsrc (within_read sock t.obj err 0) rfl rfl
        rfl rfl id (h src)
  | transfer before after sock buf n k off m ha hm hn =>
    obtain ⟨⟨rfl,rfl⟩,⟨hbef,haft⟩,hd,he,hb⟩ := active_write t before after _ _ _ _ _ (h buf) ha
    by_cases hsrc : src = buf
    · subst hsrc
      exact loop_transferred t before after src n off m hn hbef haft hd he hb
    · exact transfer_there t before after buf src n off m ha hsrc (h src)
  | write before after sock buf n k ha =>
    obtain ⟨⟨rfl,rfl⟩,⟨hbef,haft⟩,hd,he,hb⟩ := active_write t before after _ _ _ _ _ (h buf) ha
    by_cases hsrc : src = buf
    · subst hsrc
      exact loop_written t before after src n hbef haft hd he hb
    · exact settle_there t t before after _ n _ src ha hsrc (within_write buf t.obj _ n) rfl rfl
        rfl rfl id (h src)
  | writeFail before after sock buf n k off err ha herr =>
    obtain ⟨⟨rfl,rfl⟩,⟨hbef,haft⟩,hd,he,-⟩ := active_write t before after _ _ _ _ _ (h buf) ha
    by_cases hsrc : src = buf
    · subst hsrc
      rw [run_write, if_pos herr]
      exact loop_closed t _ _ src hbef haft (hd ▸ List.prefix_append _ _) he
    · exact settle_there t t before after _ off _ src ha hsrc (within_write buf t.obj err off) rfl
        rfl rfl rfl id (h src)

theorem loop_begun (s : Session) (unread : Side → Bytes) (src : Side) :
    Loop (Tunnel.begun s unread) src := by
  cases src
  · exact .reading rfl rfl (by simp [Tunnel.begun, makeTunnel, beginInputRead, beginOutputRead])
      (by simp [Tunnel.begun, makeTunnel, beginInputRead, beginOutputRead, readBuf,
        Session.allocReadBuffers])
  · exact .reading rfl rfl (by simp [Tunnel.begun, makeTunnel, beginInputRead, beginOutputRead])
      (by simp [Tunnel.begun, makeTunnel, beginInputRead, beginOutputRead, readBuf,
        Session.allocReadBuffers])

theorem run_loop (s : Session) (unread : Side → Bytes) (t : Tunnel)
    (hr : Run Step (Tunnel.begun s unread) t) (src : Side) : Loop t src :=
  run_invariant (fun t => ∀ a, Loop t a) (fun t v h hs a => step_loop t v h hs a) hr
    (loop_begun s unread) src

theorem loop_prefix (t : Tunnel) (src : Side) (h : Loop t src) :
    t.toSock src.other <+: t.fromSock src := by
  cases h with
  | reading ha hd he hb => exact hd ▸ List.prefix_refl _
  | writing n off ha hd he hb => exact hd ▸ List.prefix_append _ _
  | ended ha hd he hc => exact hd

theorem loop_single (t : Tunnel) (src : Side) (h : Loop t src) : (t.ops src).length ≤ 1 := by
  cases h with
  | reading ha | writing _ _ ha | ended ha => simp [ha]

theorem loop_stopped (t : Tunnel) (src : Side) (h : Loop t src) (hops : t.ops src = [])
    (hev : .shutdownSend src.other ∉ t.events) : Closed t.obj := by
  cases h with
  | reading ha hd he hb => exact absurd (hops.symm.trans ha) (by simp)
  | writing n off ha hd he hb => exact absurd (hops.symm.trans ha) (by simp)
  | ended ha hd he hc => exact hc hev

theorem loop_shut (t : Tunnel) (src : Side) (h : Loop t src)
    (hev : .shutdownSend src.other ∈ t.events) : t.toSock src.other = t.fromSock src := by
  cases h with
  | reading ha hd he hb => exact absurd hev he
  | writing n off ha hd he hb => exact absurd hev he
  | ended ha hd he hc => exact he hev

/-- What is read comes off the front of what has arrived, and nothing is dropped. -/
theorem step_stream (t v : Tunnel) (hs : Step t v) (a : Side) :
    t.fromSock a ++ t.unread a <+: v.fromSock a ++ v.unread a := by
  cases hs with
  | arrive sock chunk =>
    by_cases h : a = sock
    · subst h
      simp [Tunnel.arrive, ← List.append_assoc]
    · simp [Tunnel.arrive, h]
  | read before after sock buf k chunk rest ha hc hn hi =>
    by_cases h : a = sock
    · subst h
      simp [Tunnel.settle, Tunnel.gain, hi]
    · simp [Tunnel.settle, Tunnel.gain, h]
  | readFail => exact List.prefix_refl _
  | transfer => exact List.prefix_refl _
  | write => exact List.prefix_refl _
  | writeFail => exact List.prefix_refl _

theorem run_stream (s : Session) (unread : Side → Bytes) (t : Tunnel)
    (hr : Run Step (Tunnel.begun s unread) t) (a : Side) :
    unread a <+: t.fromSock a ++ t.unread a :=
  run_invariant (fun t => unread a <+: t.fromSock a ++ t.unread a)
    (fun t v h hs => h.trans (step_stream t v hs a)) hr (List.prefix_refl _)

/-- While a write is outstanding its buffer stays as it is. -/
theorem step_buffer (t v : Tunnel) (h : ∀ a, Loop t a) (hs : Step t v) (src : Side) (n off : ℕ)
    (hw : (writeOp src n,off) ∈ t.ops src) : readBuf v.obj src = readBuf t.obj src := by
  cases hs with
  | arrive sock chunk => rfl
  | transfer before after sock buf n k off m ha hm hn => rfl
  | read before after sock buf k chunk rest ha hc hn hi =>
    obtain ⟨⟨rfl,rfl⟩,⟨hbef,haft⟩,-⟩ := active_read t before after _ _ _ _ (h buf) ha
    by_cases hsrc : src = sock
    · -- the loop of this buffer is waiting for a read, not for a write
      subst hsrc
      rw [Tunnel.ops, ha, opsOf_append, opsOf_here _ _ _ src rfl, hbef, haft] at hw
      simp [writeOp] at hw
    · exact ((within_read sock (fillBuf t.obj sock chunk) _ _).buffers src).trans
        (readBuf_fill _ _ _ _ hsrc)
  | readFail before after sock buf k err ha herr =>
    obtain ⟨⟨rfl,rfl⟩,-⟩ := active_read t before after _ _ _ _ (h buf) ha
    exact (within_read sock t.obj err 0).buffers src
  | write before after sock buf n k ha =>
    obtain ⟨⟨rfl,rfl⟩,-⟩ := active_write t before after _ _ _ _ _ (h buf) ha
    exact (within_write buf t.obj _ n).buffers src
  | writeFail before after sock buf n k off err ha herr =>
    obtain ⟨⟨rfl,rfl⟩,-⟩ := active_write t before after _ _ _ _ _ (h buf) ha
    exact (within_write buf t.obj err off).buffers src

/-- A step that shuts down a send side does nothing else than end its loop. -/
theorem step_shutdown (t v : Tunnel) (h : ∀ a, Loop t a) (hs : Step t v) (src : Side)
    (he : v.events = t.events ++ [.shutdownSend src.other]) :
    ∃ before after, t.active = before ++ (readOp src,0)::after ∧
      v = t.settle before after (t.obj,[.emit (.shutdownSend src.other)]) := by
  have hquiet : ∀ u : Tunnel, ∀ before after r, u.events = t.events → emitted r.2 = [] →
      (u.settle before after r).events ≠ t.events ++ [.shutdownSend src.other] := by
    intro u before after r hu hr
    simp [Tunnel.settle, hu, hr]
  cases hs with
  | arrive sock chunk => simp [Tunnel.arrive] at he
  | transfer before after sock buf n k off m ha hm hn => simp [Tunnel.transfer] at he
  | read before after sock buf k chunk rest ha hc hn hi =>
    obtain ⟨⟨rfl,rfl⟩,-⟩ := active_read t before after _ _ _ _ (h buf) ha
    refine absurd he (hquiet _ _ _ _ rfl ?_)
    rw [run_read, if_pos ErrorCode.noError_failed]
    rfl
  | readFail before after sock buf k err ha herr =>
    obtain ⟨⟨rfl,rfl⟩,-⟩ := active_read t before after _ _ _ _ (h buf) ha
    rw [run_read, if_neg (not_not.mpr herr)] at he ⊢
    split_ifs at he ⊢ with heof
    · have hsrc : sock = src := by simpa [Tunnel.settle] using he
      subst hsrc
      exact ⟨before,after,ha,rfl⟩
    · exact absurd he (hquiet _ _ _ _ rfl rfl)
  | write before after sock buf n k ha =>
    obtain ⟨⟨rfl,rfl⟩,-⟩ := active_write t before after _ _ _ _ _ (h buf) ha
    refine absurd he (hquiet _ _ _ _ rfl ?_)
    rw [run_write, if_neg ErrorCode.noError_failed]
    rfl
  | writeFail before after sock buf n k off err ha herr =>
    obtain ⟨⟨rfl,rfl⟩,-⟩ := active_write t before after _ _ _ _ _ (h buf) ha
    refine absurd he (hquiet _ _ _ _ rfl ?_)
    rw [run_write, if_pos herr]
    rfl

/-- What holds of the direction that reads from `src` in every state of a tunnel. -/
structure Relays (t : Tunnel) (src : Side) : Prop where
  ordered : t.toSock src.other <+: t.fromSock src
  single : (t.ops src).length ≤ 1
  active : ∀ op off, (op,off) ∈ t.ops src →
    (op = readOp src ∧ t.toSock src.other = t.fromSock src) ∨
      ∃ n, op = writeOp src n ∧
        t.toSock src.other ++ sliceBuf t.obj src off (n-off) = t.fromSock src
  buffer : ∀ v n off, Step t v → (writeOp src n,off) ∈ t.ops src →
    readBuf v.obj src = readBuf t.obj src
  complete : .shutdownSend src.other ∈ t.events → t.toSock src.other = t.fromSock src
  stopped : t.ops src = [] → .shutdownSend src.other ∉ t.events → Closed t.obj
  /-- The session, its sockets and buffers included, is left as it was. -/
  shutdown : ∀ v, Step t v → v.events = t.events ++ [.shutdownSend src.other] →
    v.obj = t.obj ∧ v.ops src = [] ∧ v.ops src.other = t.ops src.other ∧
      v.toSock = t.toSock ∧ v.fromSock = t.fromSock ∧ v.unread = t.unread

/-- Both directions relay, whatever completes when. -/
theorem tunnel_relays (s : Session) (unread : Side → Bytes) (t : Tunnel)
    (hr : Run Step (Tunnel.begun s unread) t) (src : Side) : Relays t src := by
  have hall := run_loop s unread t hr
  have h := hall src
  constructor
  · exact loop_prefix t src h
  · exact loop_single t src h
  · intro op off hin
    cases h with
    | reading ha hd he hb =>
      obtain ⟨rfl,rfl⟩ : op = readOp src ∧ off = 0 := by simpa [ha] using hin
      exact .inl ⟨rfl,hd⟩
    | writing n off' ha hd he hb =>
      obtain ⟨rfl,rfl⟩ : op = writeOp src n ∧ off = off' := by simpa [ha] using hin
      exact .inr ⟨n,rfl,hd⟩
    | ended ha hd he hc => simp [ha] at hin
  · exact fun v n off hs hw => step_buffer t v hall hs src n off hw
  · exact loop_shut t src h
  · exact loop_stopped t src h
  · intro v hs he
    obtain ⟨before,after,ha,rfl⟩ := step_shutdown t v hall hs src he
    obtain ⟨-,⟨hbef,haft⟩,-⟩ := active_read t before after _ _ _ _ h ha
    refine ⟨rfl,settle_here t _ _ _ src hbef haft,?_,rfl,rfl,rfl⟩
    simp [Tunnel.ops, Tunnel.settle, ha, opsOf_append,
      opsOf_there (readOp src) _ _ src.other (other_ne src)]

def twoBytes : Tunnel :=
  Tunnel.begun (Session.create ⟨.tunnel {},.direct⟩) fun _ => [1,2]

def gained : Tunnel :=
  (twoBytes.gain .input .input [1,2] []).settle [] [(readOp .output,0)]
    (run .handleInputRead (fillBuf twoBytes.obj .input [1,2]) .noError 2)

/-- Two bytes were read from the input, and one of them has left. -/
def relayed : Tunnel :=
  gained.transfer [(readOp .output,0)] [] .output .input 2 .handleOutputWrite 0 1

theorem tunnel_relays_one :
    Relays relayed .input ∧ relayed.fromSock .input = [1,2] ∧ relayed.toSock .output = [1] := by
  have hread : Step twoBytes gained :=
    .read twoBytes [] [(readOp .output,0)] .input .input _ [1,2] [] rfl (by decide) (by decide) rfl
  have htransfer : Step gained relayed :=
    .transfer gained [(readOp .output,0)] [] .output .input 2 _ 0 1 rfl (by decide) (by decide)
  exact ⟨tunnel_relays _ _ relayed ((Relation.ReflTransGen.single hread).tail htransfer) .input,
    rfl,rfl⟩

end ProxySwiss.SessionTunnel
