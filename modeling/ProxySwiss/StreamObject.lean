import ProxySwiss.CallbackObject
import Mathlib.Data.List.Infix

/-!
# Objects that talk over byte streams

A read operation asks for an exact number of elements of the incoming stream,
a write operation for a whole message to be handed to the outgoing stream.
Both move elements in chunks chosen by the transport. The chunked run of a
sequential object is simulated by its run over completed operations, so the
properties of an object are proved without mentioning chunks.
-/

set_option autoImplicit false

namespace StreamObject
open TransitionSystem CallbackObject

variable {σ κ β η ε : Type*}

/-- `k` names the callback that the operation completes in. -/
inductive Op (β κ : Type*) where
  | read (n : ℕ) (k : κ)
  | write (msg : List β) (k : κ)
  deriving DecidableEq, Repr

/-- `data` is what was received, or the part of the message that was handed over. -/
inductive Result (β η : Type*) where
  | ok (data : List β)
  | error (e : η) (data : List β)
  deriving DecidableEq, Repr

def Result.data : Result β η → List β
  | .ok d => d
  | .error _ d => d

/-- The code a callback is given: `none` says that the operation did not fail. -/
def Result.code (none : η) : Result β η → η
  | .ok _ => none
  | .error e _ => e

@[simp] theorem data_ok (d : List β) : (Result.ok d : Result β η).data = d := rfl
@[simp] theorem data_error (e : η) (d : List β) : (Result.error e d).data = d := rfl

def Op.callback : Op β κ → κ
  | .read _ k => k
  | .write _ k => k

def Op.size : Op β κ → ℕ
  | .read n _ => n
  | .write msg _ => msg.length

/-- What a completed operation has moved. -/
def Op.Whole : Op β κ → List β → Prop
  | .read n _, d => d.length = n
  | .write msg _, d => d = msg

/-- What an operation may have moved before it completes or fails. -/
def Op.Part : Op β κ → List β → Prop
  | .read n _, d => d.length ≤ n
  | .write msg _, d => d <+: msg

theorem whole_part (op : Op β κ) (d : List β) (h : op.Whole d) : op.Part d := by
  cases op with
  | read n k => exact Nat.le_of_eq h
  | write msg k => exact h ▸ List.prefix_refl _

theorem part_length (op : Op β κ) (d : List β) (h : op.Part d) : d.length ≤ op.size := by
  cases op with
  | read n k => exact h
  | write msg k => exact h.length_le

def Op.received : Op β κ → List β → List β
  | .read _ _, d => d
  | .write _ _, _ => []

def Op.handed : Op β κ → List β → List β
  | .read _ _, _ => []
  | .write _ _, d => d

/-- What an operation was given to hand over. -/
def Op.message : Op β κ → List β
  | .read _ _ => []
  | .write msg _ => msg

@[simp] theorem received_read (n : ℕ) (k : κ) (d : List β) : (Op.read n k).received d = d := rfl
@[simp] theorem received_write (msg : List β) (k : κ) (d : List β) :
    (Op.write msg k).received d = [] := rfl
@[simp] theorem handed_read (n : ℕ) (k : κ) (d : List β) : (Op.read n k).handed d = [] := rfl
@[simp] theorem handed_write (msg : List β) (k : κ) (d : List β) :
    (Op.write msg k).handed d = d := rfl
@[simp] theorem message_read (n : ℕ) (k : κ) : (Op.read n k : Op β κ).message = [] := rfl
@[simp] theorem message_write (msg : List β) (k : κ) : (Op.write msg k).message = msg := rfl

def Allowed (fault : η → Prop) : Op β κ → Result β η → Prop
  | op, .ok d => op.Whole d
  | op, .error e d => fault e ∧ op.Part d

theorem allowed_part (fault : η → Prop) (op : Op β κ) (res : Result β η)
    (h : Allowed fault op res) : op.Part res.data := by
  cases res with
  | ok d => exact whole_part op d h
  | error e d => exact h.2

/-- Where nothing fails an operation completes with all of its data. -/
theorem allowed_ok (fault : η → Prop) (hf : ∀ e, ¬ fault e) (op : Op β κ) (res : Result β η)
    (h : Allowed fault op res) : ∃ d, res = .ok d ∧ op.Whole d := by
  cases res with
  | ok d => exact ⟨d,rfl,h⟩
  | error e d => exact absurd h.1 (hf e)

abbrev Object (σ κ β η ε : Type*) := Sequential σ (Op β κ) (Result β η) ε
abbrev State (σ κ β η ε : Type*) := Conf σ (Op β κ) (Result β η) ε

def taken (c : State σ κ β η ε) : List β :=
  c.completed.flatMap fun p => p.1.received p.2.data

def sent (c : State σ κ β η ε) : List β :=
  c.completed.flatMap fun p => p.1.handed p.2.data

@[simp] theorem taken_begun (r : σ × List (Action (Op β κ) ε)) :
    taken (Conf.begun r : State σ κ β η ε) = [] := rfl

@[simp] theorem sent_begun (r : σ × List (Action (Op β κ) ε)) :
    sent (Conf.begun r : State σ κ β η ε) = [] := rfl

@[simp] theorem taken_next (o : Object σ κ β η ε) (c : State σ κ β η ε)
    (before after : List (Op β κ)) (op : Op β κ) (res : Result β η) :
    taken (c.next o before after op res) = taken c ++ op.received res.data := by
  simp [taken, Conf.next]

@[simp] theorem sent_next (o : Object σ κ β η ε) (c : State σ κ β η ε)
    (before after : List (Op β κ)) (op : Op β κ) (res : Result β η) :
    sent (c.next o before after op res) = sent c ++ op.handed res.data := by
  simp [sent, Conf.next]

@[simp] theorem taken_invoke (c : State σ κ β η ε) (r : σ × List (Action (Op β κ) ε)) :
    taken (c.invoke r) = taken c := rfl

@[simp] theorem sent_invoke (c : State σ κ β η ε) (r : σ × List (Action (Op β κ) ε)) :
    sent (c.invoke r) = sent c := rfl

/-- Where a run stands: what is outstanding, and the histories so far. -/
structure At (c : State σ κ β η ε) (pending : List (Op β κ)) (taken sent : List β)
    (events : List ε) : Prop where
  pending : c.pending = pending
  taken : StreamObject.taken c = taken
  sent : StreamObject.sent c = sent
  events : c.events = events

theorem at_begun (r : σ × List (Action (Op β κ) ε)) :
    At (Conf.begun r : State σ κ β η ε) (started r.2) [] [] (emitted r.2) :=
  ⟨rfl,rfl,rfl,rfl⟩

theorem not_at_rest (c : State σ κ β η ε) (op : Op β κ) (t u : List β) (es : List ε)
    (hp : c.pending = [op]) : ¬ At c [] t u es := fun h =>
  List.cons_ne_nil _ _ (hp.symm.trans h.pending)

/-- What was handed over, with what is being handed over. -/
theorem at_message (c : State σ κ β η ε) (op x : Op β κ) (t u : List β) (es : List ε)
    (h : At c [x] t u es) (hp : c.pending = [op]) : sent c ++ op.message = u ++ x.message := by
  obtain rfl := List.singleton_inj.mp (hp.symm.trans h.pending)
  rw [h.sent]

theorem at_next (o : Object σ κ β η ε) (c : State σ κ β η ε) (op : Op β κ) (t u : List β)
    (es : List ε) (res : Result β η) (h : At c [op] t u es) :
    At (c.next o [] [] op res) (started (o.done op res c.obj).2) (t ++ op.received res.data)
      (u ++ op.handed res.data) (es ++ emitted (o.done op res c.obj).2) :=
  ⟨rfl,by rw [taken_next, h.taken],by rw [sent_next, h.sent],by rw [← h.events]; rfl⟩

theorem at_start (o : Object σ κ β η ε) (c : State σ κ β η ε) (op op' : Op β κ) (t u : List β)
    (es : List ε) (res : Result β η) (s : σ) (h : At c [op] t u es)
    (hd : o.done op res c.obj = (s,[.start op'])) :
    (c.next o [] [] op res).obj = s ∧ At (c.next o [] [] op res) [op']
      (t ++ op.received res.data) (u ++ op.handed res.data) es := by
  have hn := at_next o c op t u es res h
  rw [hd] at hn
  exact ⟨congrArg Prod.fst hd,by simpa using hn⟩

theorem at_emit (o : Object σ κ β η ε) (c : State σ κ β η ε) (op : Op β κ) (t u : List β)
    (es : List ε) (res : Result β η) (s : σ) (e : ε) (h : At c [op] t u es)
    (hd : o.done op res c.obj = (s,[.emit e])) :
    (c.next o [] [] op res).obj = s ∧ At (c.next o [] [] op res) []
      (t ++ op.received res.data) (u ++ op.handed res.data) (es ++ [e]) := by
  have hn := at_next o c op t u es res h
  rw [hd] at hn
  exact ⟨congrArg Prod.fst hd,by simpa using hn⟩

theorem at_invoke (c : State σ κ β η ε) (r : σ × List (Action (Op β κ) ε)) (t u : List β)
    (es : List ε) (h : At c [] t u es) :
    At (c.invoke r) (started r.2) t u (es ++ emitted r.2) :=
  ⟨by simp [Conf.invoke, h.pending],h.taken,h.sent,by simp [Conf.invoke, h.events]⟩

/-- The object on its socket. `active` pairs every outstanding operation with
the elements it has moved so far. -/
structure Wire (σ κ β ε : Type*) where
  obj : σ
  active : List (Op β κ × List β)
  taken : List β
  sent : List β
  events : List ε

def Wire.begun (r : σ × List (Action (Op β κ) ε)) : Wire σ κ β ε :=
  ⟨r.1,(started r.2).map (·,[]),[],[],emitted r.2⟩

def Wire.invoke (w : Wire σ κ β ε) (r : σ × List (Action (Op β κ) ε)) : Wire σ κ β ε :=
  { w with
    obj := r.1
    active := w.active ++ (started r.2).map (·,[])
    events := w.events ++ emitted r.2 }

def Wire.settle (w : Wire σ κ β ε) (o : Object σ κ β η ε)
    (before after : List (Op β κ × List β)) (op : Op β κ) (res : Result β η) : Wire σ κ β ε :=
  { w with
    obj := (o.done op res w.obj).1
    active := before ++ after ++ (started (o.done op res w.obj).2).map (·,[])
    events := w.events ++ emitted (o.done op res w.obj).2 }

/-- `inp` is everything that has arrived at the socket so far. -/
inductive Flow (o : Object σ κ β η ε) (fault : η → Prop) (inp : List β) :
    Wire σ κ β ε → Wire σ κ β ε → Prop
  | receive (w : Wire σ κ β ε) (before after : List (Op β κ × List β)) (n : ℕ) (k : κ)
      (got chunk : List β) (ha : w.active = before ++ (.read n k,got)::after)
      (hc : chunk ≠ []) (hn : got.length+chunk.length ≤ n) (hi : w.taken ++ chunk <+: inp) :
      Flow o fault inp w { w with
        active := before ++ (.read n k,got ++ chunk)::after
        taken := w.taken ++ chunk }
  | transmit (w : Wire σ κ β ε) (before after : List (Op β κ × List β)) (msg : List β) (k : κ)
      (gone chunk : List β) (ha : w.active = before ++ (.write msg k,gone)::after)
      (hc : chunk ≠ []) (hm : gone ++ chunk <+: msg) :
      Flow o fault inp w { w with
        active := before ++ (.write msg k,gone ++ chunk)::after
        sent := w.sent ++ chunk }
  | complete (w : Wire σ κ β ε) (before after : List (Op β κ × List β)) (op : Op β κ)
      (moved : List β) (ha : w.active = before ++ (op,moved)::after) (hw : op.Whole moved) :
      Flow o fault inp w (w.settle o before after op (.ok moved))
  | fail (w : Wire σ κ β ε) (before after : List (Op β κ × List β)) (op : Op β κ)
      (moved : List β) (e : η) (ha : w.active = before ++ (op,moved)::after) (he : fault e) :
      Flow o fault inp w (w.settle o before after op (.error e moved))

/-- The wire is in the middle of the operation that `c` waits for. -/
structure Tracks (w : Wire σ κ β ε) (c : State σ κ β η ε) : Prop where
  obj : w.obj = c.obj
  events : w.events = c.events
  moving : (c.pending = [] ∧ w.active = [] ∧ w.taken = StreamObject.taken c ∧
      w.sent = StreamObject.sent c) ∨
    ∃ op moved, c.pending = [op] ∧ w.active = [(op,moved)] ∧ op.Part moved ∧
      w.taken = StreamObject.taken c ++ op.received moved ∧
      w.sent = StreamObject.sent c ++ op.handed moved

theorem tracks_at_op (w : Wire σ κ β ε) (c : State σ κ β η ε) (op : Op β κ) (t u : List β)
    (es : List ε) (h : Tracks w c) (ha : At c [op] t u es) :
    ∃ moved, w.active = [(op,moved)] ∧ op.Part moved ∧ w.taken = t ++ op.received moved ∧
      w.sent = u ++ op.handed moved ∧ w.events = es := by
  obtain ⟨-,he,⟨hp,-⟩ | ⟨op',moved,hp,hw,hpart,ht,hu⟩⟩ := h
  · exact absurd (hp.symm.trans ha.pending) (by simp)
  · obtain rfl := List.singleton_inj.mp (hp.symm.trans ha.pending)
    exact ⟨moved,hw,hpart,ha.taken ▸ ht,ha.sent ▸ hu,he.trans ha.events⟩

/-- A wire on which nothing is outstanding tracks no state that waits. -/
theorem not_at_op (w : Wire σ κ β ε) (c : State σ κ β η ε) (op : Op β κ) (t u : List β)
    (es : List ε) (h : Tracks w c) (hact : w.active = []) : ¬ At c [op] t u es := by
  intro hat
  obtain ⟨moved,hw,-⟩ := tracks_at_op w c op t u es h hat
  exact List.cons_ne_nil _ _ (hw.symm.trans hact)

theorem tracks_at_idle (w : Wire σ κ β ε) (c : State σ κ β η ε) (t u : List β)
    (es : List ε) (h : Tracks w c) (ha : At c [] t u es) :
    w.active = [] ∧ w.taken = t ∧ w.sent = u ∧ w.events = es := by
  obtain ⟨-,he,⟨-,hw,ht,hu⟩ | ⟨op',moved,hp,-⟩⟩ := h
  · exact ⟨hw,ht.trans ha.taken,hu.trans ha.sent,he.trans ha.events⟩
  · exact absurd (hp.symm.trans ha.pending) (by simp)

theorem part_nil (op : Op β κ) : op.Part [] := by
  cases op with
  | read n k => exact Nat.zero_le _
  | write msg k => exact List.nil_prefix

@[simp] theorem received_nil (op : Op β κ) : op.received [] = [] := by cases op <;> rfl
@[simp] theorem handed_nil (op : Op β κ) : op.handed [] = [] := by cases op <;> rfl

/-- The moment after a callback: whatever it started has moved nothing yet. -/
theorem tracks_fresh (s : σ) (as : List (Action (Op β κ) ε)) (es : List ε) (t u : List β)
    (c : State σ κ β η ε) (hs : (started as).length ≤ 1) (hp : c.pending = started as)
    (ho : c.obj = s) (he : c.events = es) (ht : taken c = t) (hu : sent c = u) :
    Tracks ⟨s,(started as).map (·,[]),t,u,es⟩ c := by
  refine ⟨ho.symm,he.symm,?_⟩
  match hst : started as with
  | [] => exact .inl ⟨hp.trans hst,rfl,ht.symm,hu.symm⟩
  | [op] =>
    exact .inr ⟨op,[],hp.trans hst,rfl,part_nil op,by simp [ht],by simp [hu]⟩
  | _::_::_ => simp [hst] at hs

theorem tracks_begun (r : σ × List (Action (Op β κ) ε)) (hs : (started r.2).length ≤ 1) :
    Tracks (Wire.begun r : Wire σ κ β ε) (Conf.begun r : State σ κ β η ε) :=
  tracks_fresh r.1 r.2 _ [] [] _ hs rfl rfl rfl rfl rfl

theorem tracks_settle (o : Object σ κ β η ε) (w : Wire σ κ β ε) (c : State σ κ β η ε)
    (op : Op β κ) (res : Result β η) (ho : w.obj = c.obj) (he : w.events = c.events)
    (ht : w.taken = taken c ++ op.received res.data)
    (hu : w.sent = sent c ++ op.handed res.data) :
    Tracks (w.settle o [] [] op res) (c.next o [] [] op res) := by
  have h := tracks_fresh (o.done op res w.obj).1 (o.done op res w.obj).2
    (w.events ++ emitted (o.done op res w.obj).2) w.taken w.sent (c.next o [] [] op res)
    (o.single op res _) (by simp [Conf.next, ho]) (by simp [Conf.next, ho])
    (by simp [Conf.next, ho, he]) (by simp [ht]) (by simp [hu])
  simpa [Wire.settle] using h

end StreamObject
