import ProxySwiss.StreamRun
import ProxySwiss.ServerSessionHttps

/-!
# Reading up to a delimiter

The buffer grows by one octet before every read, and its end is compared with
the delimiter before it grows again. What has been read is therefore the
shortest beginning of the stream that ends with the delimiter or is as long as
allowed, also when the delimiter overlaps itself.
-/

set_option autoImplicit false

namespace ProxySwiss.ReadUntil
open Memory Text TransitionSystem CallbackObject StreamObject

structure ReadUntilOp where
  buf : Bytes
  delim : Bytes
  maxChars : ℕ
  deriving DecidableEq, Repr

inductive Callback where
  | handleRead
  deriving DecidableEq, Repr

inductive Event where
  | handler (err : ErrorCode)
  deriving DecidableEq, Repr

abbrev Effect := ReadUntilOp × List (Action (Op UInt8 Callback) Event)

def readNext (s : ReadUntilOp) : Effect :=
  if s.buf.length = s.maxChars then (s,[.emit (.handler .noError)])
  else if s.buf.length ≥ s.delim.length ∧ s.buf.drop (s.buf.length-s.delim.length) = s.delim then
    (s,[.emit (.handler .noError)])
  else ({ s with buf := s.buf ++ [0] },[.start (.read 1 .handleRead)])

def startOp (s : ReadUntilOp) : Effect := readNext { s with buf := [] }

def handleRead (s : ReadUntilOp) (err : ErrorCode) : Effect :=
  if err.failed then (s,[.emit (.handler err)]) else readNext s

def readUntil (buf delim : Bytes) (maxChars : ℕ) : Effect := startOp ⟨buf,delim,maxChars⟩

/-- The octet is read into the last place of the buffer. -/
def store (s : ReadUntilOp) (data : Bytes) : ReadUntilOp :=
  if data = [] then s else { s with buf := s.buf.dropLast ++ data }

theorem readNext_single (s : ReadUntilOp) : (started (readNext s).2).length ≤ 1 := by
  unfold readNext
  split_ifs <;> simp

theorem handleRead_single (s : ReadUntilOp) (err : ErrorCode) :
    (started (handleRead s err).2).length ≤ 1 := by
  unfold handleRead
  split_ifs
  · exact Nat.zero_le _
  · exact readNext_single s

def reader : Object ReadUntilOp Callback UInt8 ErrorCode Event where
  done op res s := match op.callback with
    | .handleRead => handleRead (store s res.data) (res.code .noError)
  single _ _ _ := handleRead_single _ _

abbrev ReaderState := State ReadUntilOp Callback UInt8 ErrorCode Event
abbrev ReaderWire := Wire ReadUntilOp Callback UInt8 Event

def start (buf delim : Bytes) (maxChars : ℕ) : ReaderWire := .begun (readUntil buf delim maxChars)

/-- Where reading stops. -/
def Complete (delim : Bytes) (maxChars : ℕ) (p : Bytes) : Prop :=
  delim <:+ p ∨ p.length = maxChars

/-- `p` is the shortest beginning of `inp` at which reading stops. -/
structure Shortest (delim : Bytes) (maxChars : ℕ) (inp p : Bytes) : Prop where
  start : p <+: inp
  complete : Complete delim maxChars p
  least : ∀ q, q <+: inp → Complete delim maxChars q → p.length ≤ q.length

theorem shortest_unique (delim : Bytes) (maxChars : ℕ) (inp p q : Bytes)
    (hp : Shortest delim maxChars inp p) (hq : Shortest delim maxChars inp q) : p = q := by
  have hlen : p.length = q.length :=
    Nat.le_antisymm (hp.least q hq.start hq.complete) (hq.least p hp.start hp.complete)
  exact (List.prefix_of_prefix_length_le hp.start hq.start hlen.le).eq_of_length hlen

/-- The comparison at the end of the buffer. -/
theorem tail_suffix (delim p : Bytes) :
    p.length ≥ delim.length ∧ p.drop (p.length-delim.length) = delim ↔ delim <:+ p := by
  rw [List.suffix_iff_eq_drop]
  constructor
  · rintro ⟨-,h⟩
    exact h.symm
  · intro h
    exact ⟨(List.suffix_iff_eq_drop.mpr h).length_le,h.symm⟩

theorem readNext_stop (s : ReadUntilOp) (h : Complete s.delim s.maxChars s.buf) :
    readNext s = (s,[.emit (.handler .noError)]) := by
  simp only [readNext, tail_suffix]
  rcases h with h | h
  · simp [h]
  · simp [h]

theorem readNext_more (s : ReadUntilOp) (h : ¬ Complete s.delim s.maxChars s.buf) :
    readNext s = ({ s with buf := s.buf ++ [0] },[.start (.read 1 .handleRead)]) := by
  rw [Complete, not_or] at h
  simp only [readNext, tail_suffix]
  rw [if_neg h.2, if_neg h.1]

theorem octet (delim : Bytes) (maxChars : ℕ) (cur : Bytes) (b : UInt8) :
    reader.done (.read 1 .handleRead) (.ok [b]) ⟨cur ++ [0],delim,maxChars⟩ =
      readNext ⟨cur ++ [b],delim,maxChars⟩ := by
  change handleRead (store ⟨cur ++ [0],delim,maxChars⟩ [b]) .noError = _
  simp [handleRead, store]

theorem octet_error (s : ReadUntilOp) (e : ErrorCode) (d : Bytes) (he : e.failed) :
    reader.done (.read 1 .handleRead) (.error e d) s = (store s d,[.emit (.handler e)]) :=
  if_pos he

/-- What was received of the octet is behind what was received before. -/
theorem store_received (delim : Bytes) (maxChars : ℕ) (cur d : Bytes) :
    cur ++ d <+: (store ⟨cur ++ [0],delim,maxChars⟩ d).buf := by
  unfold store
  split_ifs with h
  · subst h
    simp
  · simp

/-- Where a run stands, with what has been taken from the stream. -/
inductive Stage (f : Faults) (delim : Bytes) (maxChars : ℕ) (c : ReaderState) : Prop
  | reading (cur : Bytes) (hq : ∀ q, q <+: cur → ¬ Complete delim maxChars q)
      (ho : c.obj = ⟨cur ++ [0],delim,maxChars⟩) (h : At c [.read 1 .handleRead] cur [] [])
  | done (p : Bytes) (hp : Complete delim maxChars p)
      (hq : ∀ q, q <+: p → Complete delim maxChars q → q = p) (ho : c.obj.buf = p)
      (h : At c [] p [] [.handler .noError])
  | failed (e : ErrorCode) (t : Bytes) (he : f.may e) (ho : t <+: c.obj.buf)
      (h : At c [] t [] [.handler e])

/-- One more octet, or the first look at the empty buffer. -/
theorem stage_look (f : Faults) (delim : Bytes) (maxChars : ℕ) (c : ReaderState) (cur : Bytes)
    (hq : ∀ q, q <+: cur → q ≠ cur → ¬ Complete delim maxChars q)
    (ho : c.obj = (readNext ⟨cur,delim,maxChars⟩).1)
    (h : At c (started (readNext ⟨cur,delim,maxChars⟩).2) cur []
      (emitted (readNext ⟨cur,delim,maxChars⟩).2)) : Stage f delim maxChars c := by
  by_cases hc : Complete delim maxChars cur
  · rw [readNext_stop _ hc] at ho h
    refine .done cur hc (fun q hp hcq => ?_) (by rw [ho]) h
    by_contra hne
    exact hq q hp hne hcq
  · rw [readNext_more _ hc] at ho h
    refine .reading cur (fun q hp hcq => ?_) ho h
    by_cases hne : q = cur
    · exact hc (hne ▸ hcq)
    · exact hq q hp hne hcq

theorem stage_begun (f : Faults) (buf delim : Bytes) (maxChars : ℕ) :
    Stage f delim maxChars (Conf.begun (readUntil buf delim maxChars)) := by
  refine stage_look f delim maxChars _ [] ?_ rfl (at_begun _)
  intro q hp hne
  exact absurd (List.prefix_nil.mp hp) hne

theorem stage_next (f : Faults) (delim : Bytes) (maxChars : ℕ) (c : ReaderState)
    (op : Op UInt8 Callback) (res : Result UInt8 ErrorCode) (h : Stage f delim maxChars c)
    (hp : c.pending = [op]) (ha : Allowed f.may op res) :
    Stage f delim maxChars (c.next reader [] [] op res) := by
  cases h with
  | reading cur hq ho h =>
    obtain rfl := List.singleton_inj.mp (hp.symm.trans h.pending)
    cases res with
    | ok d =>
      obtain ⟨b,rfl⟩ := List.length_eq_one_iff.mp ha
      have hd := (congrArg (reader.done _ _) ho).trans (octet delim maxChars cur b)
      have hn := at_next reader c _ cur [] [] (.ok [b]) h
      rw [hd] at hn
      refine stage_look f delim maxChars _ (cur ++ [b]) ?_ (congrArg Prod.fst hd) hn
      -- a proper beginning has been looked at before
      intro q hpre hne
      rcases List.prefix_concat_iff.mp hpre with rfl | hpre
      · exact absurd rfl hne
      · exact hq q hpre
    | error e d =>
      obtain ⟨hobj,hn⟩ := at_emit reader c _ _ _ _ (.error e d) _ _ h
        (octet_error c.obj e d (f.failed e ha.1))
      refine .failed e _ ha.1 ?_ hn
      rw [hobj, ho]
      exact store_received delim maxChars cur d
  | done p hp' hq ho h => exact absurd (hp.symm.trans h.pending) (by simp)
  | failed e t he ho h => exact absurd (hp.symm.trans h.pending) (by simp)

theorem run_stage (f : Faults) (buf delim : Bytes) (maxChars : ℕ) (inp : Bytes) (w : ReaderWire)
    (h : Run (Flow reader f.may inp) (start buf delim maxChars) w) :
    w.taken <+: inp ∧ ∃ c, Tracks w c ∧ Stage f delim maxChars c :=
  flow_tracks reader f.may inp _ (stage_next f delim maxChars) _ (readNext_single _)
    (stage_begun f buf delim maxChars) w h

/-- Until the handler is called, one read of one octet is outstanding. -/
theorem waiting (f : Faults) (buf delim : Bytes) (maxChars : ℕ) (inp : Bytes) (w : ReaderWire)
    (h : Run (Flow reader f.may inp) (start buf delim maxChars) w) (hw : w.events = []) :
    ∃ cur moved, w.active = [(.read 1 .handleRead,moved)] ∧ w.taken = cur ++ moved ∧
      moved.length ≤ 1 ∧ (∀ q, q <+: cur → ¬ Complete delim maxChars q) ∧
      w.obj = ⟨cur ++ [0],delim,maxChars⟩ := by
  obtain ⟨-,c,hc,hstage⟩ := run_stage f buf delim maxChars inp w h
  cases hstage with
  | reading cur hq ho hat =>
    obtain ⟨moved,hact,hpart,ht,-,-⟩ := tracks_at_op w c _ _ _ _ hc hat
    exact ⟨cur,moved,hact,ht,hpart,hq,hc.obj.trans ho⟩
  | done p hp hq ho hat =>
    obtain ⟨-,-,-,hev⟩ := tracks_at_idle w c _ _ _ hc hat
    simp [hw] at hev
  | failed e t he ho hat =>
    obtain ⟨-,-,-,hev⟩ := tracks_at_idle w c _ _ _ hc hat
    simp [hw] at hev

/-- The handler is called with what the stream brings, as soon as it is enough. -/
theorem reader_live (f : Faults) (buf delim : Bytes) (maxChars : ℕ) (inp p : Bytes)
    (w : ReaderWire) (hp : Shortest delim maxChars inp p)
    (h : Run (Flow reader f.may inp) (start buf delim maxChars) w) (hw : w.events = []) :
    ∃ v, Flow reader f.may inp w v := by
  obtain ⟨cur,moved,hact,ht,hle,hq,-⟩ := waiting f buf delim maxChars inp w h hw
  obtain ⟨hinp,-⟩ := run_stage f buf delim maxChars inp w h
  refine flow_live reader f.may inp w _ moved hact hle hinp ?_
  intro n k hop hlt
  obtain ⟨rfl,rfl⟩ := (Op.read.injEq _ _ _ _).mp hop
  obtain rfl : moved = [] := List.length_eq_zero_iff.mp (by omega)
  rw [List.append_nil] at ht
  by_contra hge
  -- all of the stream has been looked at, and `p` with it
  have hall : w.taken = inp := hinp.eq_of_length (Nat.le_antisymm hinp.length_le (by omega))
  exact hq p (ht ▸ hall ▸ hp.start) hp.complete

theorem line_reader_law (f : Faults) (buf delim : Bytes) (maxChars : ℕ) (inp : Bytes)
    (w : ReaderWire) (h : Run (Flow reader f.may inp) (start buf delim maxChars) w) :
    (.handler .noError ∈ w.events →
      Shortest delim maxChars inp w.obj.buf ∧ w.taken = w.obj.buf) ∧
    (∀ e, e.failed → .handler e ∈ w.events → w.taken <+: w.obj.buf) ∧
    (w.events = [] → ∃ moved, w.active = [(.read 1 .handleRead,moved)]) ∧
    (∀ op moved e, w.active = [(op,moved)] → f.may e →
      (w.settle reader [] [] op (.error e moved)).events = [.handler e] ∧
      (w.settle reader [] [] op (.error e moved)).active = [] ∧
      w.taken <+: (w.settle reader [] [] op (.error e moved)).obj.buf) ∧
    (w.events ≠ [] → w.active = [] ∧ w.events.length = 1) := by
  obtain ⟨hinp,c,hc,hstage⟩ := run_stage f buf delim maxChars inp w h
  cases hstage with
  | reading cur hq ho hat =>
    obtain ⟨moved,hact,hpart,ht,-,hev⟩ := tracks_at_op w c _ _ _ _ hc hat
    refine ⟨by simp [hev],by simp [hev],fun _ => ⟨moved,hact⟩,?_,by simp [hev]⟩
    intro op moved' e hop he
    obtain ⟨rfl,rfl⟩ := Prod.mk.inj (List.singleton_inj.mp (hact.symm.trans hop))
    have hd := octet_error w.obj e moved (f.failed e he)
    have hs := store_received delim maxChars cur moved
    rw [← ho, ← hc.obj] at hs
    simp only [Wire.settle, hd, hev]
    exact ⟨rfl,rfl,ht ▸ hs⟩
  | done p hp hq ho hat =>
    obtain ⟨hact,ht,-,hev⟩ := tracks_at_idle w c _ _ _ hc hat
    have hbuf : w.obj.buf = p := (congrArg ReadUntilOp.buf hc.obj).trans ho
    refine ⟨fun _ => ⟨⟨hbuf ▸ ht ▸ hinp,hbuf ▸ hp,?_⟩,ht.trans hbuf.symm⟩,
      fun _ _ _ => hbuf ▸ ht ▸ List.prefix_rfl,by simp [hev],by simp [hact],by simp [hev, hact]⟩
    intro q hpre hcq
    rw [hbuf]
    rcases Nat.le_total p.length q.length with hle | hle
    · exact hle
    · have hqp := List.prefix_of_prefix_length_le hpre (ht ▸ hinp) hle
      exact (congrArg List.length (hq q hqp hcq)).ge
  | failed e t he ho hat =>
    obtain ⟨hact,ht,-,hev⟩ := tracks_at_idle w c _ _ _ hc hat
    refine ⟨?_,fun _ _ _ => hc.obj ▸ ht ▸ ho,by simp [hev],by simp [hact],by simp [hev, hact]⟩
    rintro hin
    rw [hev, List.mem_singleton, Event.handler.injEq] at hin
    exact absurd (f.failed e he) (hin ▸ ErrorCode.noError_failed)

/-- A carriage return before the end of the line is part of the line. -/
theorem line_reader_law_crlf : ∃ w, Run (Flow reader Faults.none.may [0x0d,0x0d,0x0a,0x61])
    (start [] [0x0d,0x0a] 80) w ∧ w.events = [.handler .noError] ∧
    Shortest [0x0d,0x0a] 80 [0x0d,0x0d,0x0a,0x61] w.obj.buf ∧ w.taken = [0x0d,0x0d,0x0a] := by
  obtain ⟨w,hw,hs⟩ := play_flow reader Faults.none.may [0x0d,0x0d,0x0a,0x61]
    [.ok [0x0d],.ok [0x0d],.ok [0x0a]] (start [] [0x0d,0x0a] 80)
    (Conf.begun (readUntil [] [0x0d,0x0a] 80)) (settled_begun _) ⟨rfl,rfl,rfl,trivial⟩
    ⟨[0x61],rfl⟩
  have hev : w.events = [.handler .noError] := hs.events
  have hlaw := line_reader_law Faults.none [] [0x0d,0x0a] 80 _ w hw
  exact ⟨w,hw,hev,(hlaw.1 (by simp [hev])).1,hs.taken⟩

/-- A line of a request is read by this operation. -/
theorem readNext_line (k : ServerSessionHttps.LineHandler)
    (handler : ServerSessionHttps.Session → ServerSessionHttps.Effect)
    (s : ServerSessionHttps.Session) :
    ServerSessionHttps.readNext k handler s =
      match readNext ⟨s.line,[0x0a],ServerSessionHttps.kMaxLineLen⟩ with
      | (_,[.emit _]) => handler s
      | (op,_) => ({ s with line := op.buf },[.start (.read 1 (.handleRead k))]) := by
  have hlast : s.line.getLast? = some 0x0a ↔ [0x0a] <:+ s.line :=
    List.singleton_suffix_iff_getLast?_eq_some.symm
  by_cases hc : Complete [0x0a] ServerSessionHttps.kMaxLineLen s.line
  · rw [readNext_stop _ hc]
    simp only [ServerSessionHttps.readNext, hlast]
    rcases hc with hc | hc
    · simp [hc]
    · simp [hc]
  · rw [readNext_more _ hc]
    rw [Complete, not_or] at hc
    simp only [ServerSessionHttps.readNext, hlast]
    rw [if_neg hc.2, if_neg hc.1]

end ProxySwiss.ReadUntil
