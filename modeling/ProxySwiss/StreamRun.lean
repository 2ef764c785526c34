import ProxySwiss.StreamObject

/-!
# Chunked runs and completed operations

In one direction a chunked run tracks a run over completed operations, so an
invariant needs one case for each callback. In the other direction every
sequence of completions that the incoming stream allows is reached by some
chunked run, so nothing is proved about completions that cannot occur.
-/

set_option autoImplicit false

namespace StreamObject
open TransitionSystem CallbackObject

variable {σ κ β η ε : Type*}

theorem only_active {α : Type*} {x y : α} {before after : List α}
    (h : [x] = before ++ y::after) : before = [] ∧ x = y ∧ after = [] := by
  rw [List.singleton_eq_append_iff] at h
  obtain ⟨rfl,h⟩ | ⟨-,h⟩ := h
  · simpa [eq_comm] using h
  · simp at h

/-- A chunk is invisible to the callbacks; a completion is one of their steps. -/
theorem tracks_flow (o : Object σ κ β η ε) (fault : η → Prop) (inp : List β)
    (w v : Wire σ κ β ε) (c : State σ κ β η ε) (h : Tracks w c) (hf : Flow o fault inp w v) :
    Tracks v c ∨ ∃ op res, c.pending = [op] ∧ Allowed fault op res ∧
      Tracks v (c.next o [] [] op res) := by
  obtain ⟨ho,he,⟨-,hw,-,-⟩ | ⟨op,moved,hp,hw,hpart,ht,hu⟩⟩ := h
  · cases hf <;> simp_all
  · cases hf with
    | receive before after n k got chunk ha hc hn hi =>
      obtain ⟨rfl,h,rfl⟩ := only_active (hw ▸ ha)
      obtain ⟨rfl,rfl⟩ := Prod.mk.inj h
      refine .inl ⟨ho,he,.inr ⟨_,moved ++ chunk,hp,rfl,?_,?_,?_⟩⟩
      · simpa [Op.Part] using hn
      · simp [ht]
      · simpa using hu
    | transmit before after msg k gone chunk ha hc hm =>
      obtain ⟨rfl,h,rfl⟩ := only_active (hw ▸ ha)
      obtain ⟨rfl,rfl⟩ := Prod.mk.inj h
      refine .inl ⟨ho,he,.inr ⟨_,moved ++ chunk,hp,rfl,hm,?_,?_⟩⟩
      · simpa using ht
      · simp [hu]
    | complete before after op' moved' ha hwh =>
      obtain ⟨rfl,h,rfl⟩ := only_active (hw ▸ ha)
      obtain ⟨rfl,rfl⟩ := Prod.mk.inj h
      exact .inr ⟨op,.ok moved,hp,hwh,tracks_settle o w c op _ ho he ht hu⟩
    | fail before after op' moved' e ha hfault =>
      obtain ⟨rfl,h,rfl⟩ := only_active (hw ▸ ha)
      obtain ⟨rfl,rfl⟩ := Prod.mk.inj h
      exact .inr ⟨op,.error e moved,hp,⟨hfault,hpart⟩,tracks_settle o w c op _ ho he ht hu⟩

/-- The wire between two callbacks, with nothing of the next operation moved. -/
structure Settled (w : Wire σ κ β ε) (c : State σ κ β η ε) : Prop where
  obj : w.obj = c.obj
  events : w.events = c.events
  active : w.active = c.pending.map (·,[])
  taken : w.taken = StreamObject.taken c
  sent : w.sent = StreamObject.sent c

theorem settled_begun (r : σ × List (Action (Op β κ) ε)) :
    Settled (Wire.begun r : Wire σ κ β ε) (Conf.begun r : State σ κ β η ε) :=
  ⟨rfl,rfl,rfl,rfl,rfl⟩

/-- The transport may move the data of an operation in a single chunk. -/
theorem move_run (o : Object σ κ β η ε) (fault : η → Prop) (inp : List β) (w : Wire σ κ β ε)
    (op : Op β κ) (d : List β) (ha : w.active = [(op,[])]) (hp : op.Part d)
    (hi : w.taken ++ op.received d <+: inp) :
    Run (Flow o fault inp) w { w with
      active := [(op,d)]
      taken := w.taken ++ op.received d
      sent := w.sent ++ op.handed d } := by
  by_cases hd : d = []
  · subst hd
    have : w = { w with
        active := [(op,[])]
        taken := w.taken ++ op.received []
        sent := w.sent ++ op.handed [] } := by
      rw [← ha]
      simp
    exact this ▸ .refl
  · cases op with
    | read n k =>
      have : Flow o fault inp w _ :=
        .receive w [] [] n k [] d ha hd (by simpa [Op.Part] using hp) hi
      simpa using Relation.ReflTransGen.single this
    | write msg k =>
      have : Flow o fault inp w _ := .transmit w [] [] msg k [] d ha hd hp
      simpa using Relation.ReflTransGen.single this

/-- Every completion that the stream allows is reached by some chunked run. -/
theorem settle_run (o : Object σ κ β η ε) (fault : η → Prop) (inp : List β) (w : Wire σ κ β ε)
    (c : State σ κ β η ε) (op : Op β κ) (res : Result β η) (h : Settled w c)
    (hp : c.pending = [op]) (ha : Allowed fault op res)
    (hi : taken c ++ op.received res.data <+: inp) :
    ∃ v, Run (Flow o fault inp) w v ∧ Settled v (c.next o [] [] op res) := by
  have hact : w.active = [(op,[])] := by rw [h.active, hp]; rfl
  have hmove := move_run o fault inp w op res.data hact (allowed_part fault op res ha)
    (h.taken ▸ hi)
  set v : Wire σ κ β ε := { w with
    active := [(op,res.data)]
    taken := w.taken ++ op.received res.data
    sent := w.sent ++ op.handed res.data } with hv
  have hlast : Flow o fault inp v (v.settle o [] [] op res) := by
    cases res with
    | ok d => exact .complete v [] [] op d rfl ha
    | error e d => exact .fail v [] [] op d e rfl ha.1
  refine ⟨_,hmove.tail hlast,⟨?_,?_,?_,?_,?_⟩⟩
  · simp [Wire.settle, Conf.next, hv, h.obj]
  · simp [Wire.settle, Conf.next, hv, h.obj, h.events]
  · simp [Wire.settle, Conf.next, hv, h.obj]
  · simp [Wire.settle, hv, h.taken]
  · simp [Wire.settle, hv, h.sent]

theorem play_taken (o : Object σ κ β η ε) (rs : List (Result β η)) (c : State σ κ β η ε) :
    taken c <+: taken (play o rs c) := by
  induction rs generalizing c with
  | nil => exact List.prefix_refl _
  | cons res rs ih =>
    simp only [play]
    split
    · refine List.IsPrefix.trans ?_ (ih _)
      rw [taken_next]
      exact List.prefix_append _ _
    · exact List.prefix_refl _

theorem play_flow (o : Object σ κ β η ε) (fault : η → Prop) (inp : List β)
    (rs : List (Result β η)) (w : Wire σ κ β ε) (c : State σ κ β η ε) (h : Settled w c)
    (hp : Playable o (Allowed fault) rs c) (hi : taken (play o rs c) <+: inp) :
    ∃ v, Run (Flow o fault inp) w v ∧ Settled v (play o rs c) := by
  induction rs generalizing w c with
  | nil => exact ⟨w,.refl,h⟩
  | cons res rs ih =>
    match hpend : c.pending with
    | [] => simp [Playable, hpend] at hp
    | _::_::_ => simp [Playable, hpend] at hp
    | [op] =>
      simp only [Playable, hpend] at hp
      simp only [play, hpend] at hi ⊢
      have hnow : taken c ++ op.received res.data <+: inp := by
        have := (play_taken o rs (c.next o [] [] op res)).trans hi
        rwa [taken_next] at this
      obtain ⟨v,hv,hs⟩ := settle_run o fault inp w c op res h hpend hp.1 hnow
      obtain ⟨u,hu,hs'⟩ := ih v _ hs hp.2 hi
      exact ⟨u,hv.trans hu,hs'⟩

/-- The user may call one further method of an idle object, once the events
that were reported to it make the call due. -/
inductive Served (o : Object σ κ β η ε) (fault : η → Prop) (inp : List β)
    (due : List ε → Prop) (method : σ → σ × List (Action (Op β κ) ε)) :
    Wire σ κ β ε → Wire σ κ β ε → Prop
  | io (w v : Wire σ κ β ε) (h : Flow o fault inp w v) : Served o fault inp due method w v
  | call (w : Wire σ κ β ε) (hi : w.active = []) (hd : due w.events) :
      Served o fault inp due method w (w.invoke (method w.obj))

theorem tracks_invoke (w : Wire σ κ β ε) (c : State σ κ β η ε)
    (method : σ → σ × List (Action (Op β κ) ε))
    (hm : ∀ s, (started (method s).2).length ≤ 1) (h : Tracks w c) (hi : w.active = []) :
    c.pending = [] ∧ Tracks (w.invoke (method w.obj)) (c.invoke (method c.obj)) := by
  obtain ⟨ho,he,⟨hp,-,ht,hu⟩ | ⟨op,moved,-,hw,-⟩⟩ := h
  · refine ⟨hp,?_⟩
    have hf := tracks_fresh (method w.obj).1 (method w.obj).2
      (w.events ++ emitted (method w.obj).2) w.taken w.sent (c.invoke (method c.obj))
      (hm _) (by simp [Conf.invoke, ho, hp]) (by simp [Conf.invoke, ho])
      (by simp [Conf.invoke, ho, he]) (by simp [ht]) (by simp [hu])
    simpa [Wire.invoke, hi] using hf
  · simp [hi] at hw

theorem flow_served (o : Object σ κ β η ε) (fault : η → Prop) (inp : List β)
    (due : List ε → Prop) (method : σ → σ × List (Action (Op β κ) ε)) (w v : Wire σ κ β ε)
    (h : Run (Flow o fault inp) w v) : Run (Served o fault inp due method) w v :=
  Relation.ReflTransGen.mono (fun s t ht => Served.io s t ht) w v h

/-- The method runs on a settled wire as it does between two callbacks. -/
theorem settled_invoke (method : σ → σ × List (Action (Op β κ) ε)) (w : Wire σ κ β ε)
    (c : State σ κ β η ε) (h : Settled w c) (hp : c.pending = []) :
    w.active = [] ∧ Settled (w.invoke (method w.obj)) (c.invoke (method c.obj)) := by
  have hact : w.active = [] := by rw [h.active, hp]; rfl
  refine ⟨hact,?_,?_,?_,h.taken,h.sent⟩
  · simp [Wire.invoke, Conf.invoke, h.obj]
  · simp [Wire.invoke, Conf.invoke, h.obj, h.events]
  · simp [Wire.invoke, Conf.invoke, h.obj, hact, hp]

/-- A call that is due is answered by the method. -/
theorem served_call (o : Object σ κ β η ε) (fault : η → Prop) (inp : List β)
    (due : List ε → Prop) (method : σ → σ × List (Action (Op β κ) ε)) (w : Wire σ κ β ε)
    (c : State σ κ β η ε) (h : Settled w c) (hp : c.pending = []) (hd : due c.events) :
    ∃ v, Served o fault inp due method w v ∧ Settled v (c.invoke (method c.obj)) := by
  obtain ⟨hact,hinv⟩ := settled_invoke method w c h hp
  exact ⟨_,.call w hact (h.events ▸ hd),hinv⟩

/-- The same steps, and whether the further method has been called. -/
inductive Recorded (o : Object σ κ β η ε) (fault : η → Prop) (inp : List β)
    (due : List ε → Prop) (method : σ → σ × List (Action (Op β κ) ε)) :
    Wire σ κ β ε × Bool → Wire σ κ β ε × Bool → Prop
  | io (w v : Wire σ κ β ε) (called : Bool) (h : Flow o fault inp w v) :
      Recorded o fault inp due method (w,called) (v,called)
  | call (w : Wire σ κ β ε) (called : Bool) (hi : w.active = []) (hd : due w.events) :
      Recorded o fault inp due method (w,called) (w.invoke (method w.obj),true)

theorem recorded_served (o : Object σ κ β η ε) (fault : η → Prop) (inp : List β)
    (due : List ε → Prop) (method : σ → σ × List (Action (Op β κ) ε))
    (x y : Wire σ κ β ε × Bool) (h : Run (Recorded o fault inp due method) x y) :
    Run (Served o fault inp due method) x.1 y.1 := by
  refine Relation.ReflTransGen.lift Prod.fst ?_ x y h
  intro s t ht
  cases ht with
  | io w v called hf => exact .io w v hf
  | call w called hi hd => exact .call w hi hd

theorem served_recorded (o : Object σ κ β η ε) (fault : η → Prop) (inp : List β)
    (due : List ε → Prop) (method : σ → σ × List (Action (Op β κ) ε)) (w v : Wire σ κ β ε)
    (called : Bool) (h : Run (Served o fault inp due method) w v) :
    ∃ called', Run (Recorded o fault inp due method) (w,called) (v,called') := by
  induction h with
  | refl => exact ⟨called,.refl⟩
  | tail _ hstep ih =>
    obtain ⟨called',hr⟩ := ih
    cases hstep with
    | io _ hf => exact ⟨called',hr.tail (.io _ _ called' hf)⟩
    | call hi hd => exact ⟨true,hr.tail (.call _ called' hi hd)⟩

theorem recorded_tracks (o : Object σ κ β η ε) (fault : η → Prop) (inp : List β)
    (due : List ε → Prop) (method : σ → σ × List (Action (Op β κ) ε))
    (hm : ∀ s, (started (method s).2).length ≤ 1) (I : Bool → State σ κ β η ε → Prop)
    (keep : ∀ b c op res, I b c → c.pending = [op] → Allowed fault op res →
      I b (c.next o [] [] op res))
    (call : ∀ b c, I b c → c.pending = [] → due c.events → I true (c.invoke (method c.obj)))
    (x y : Wire σ κ β ε × Bool) (c : State σ κ β η ε) (h : Tracks x.1 c) (hi : I x.2 c)
    (hr : Run (Recorded o fault inp due method) x y) : ∃ d, Tracks y.1 d ∧ I y.2 d := by
  refine run_invariant (fun y => ∃ d, Tracks y.1 d ∧ I y.2 d) ?_ hr ⟨c,h,hi⟩
  rintro s t ⟨a,hs,ha⟩ ht
  cases ht with
  | io w v called hf =>
    rcases tracks_flow o fault inp w v a hs hf with hk | ⟨op,res,hp,hall,hk⟩
    · exact ⟨a,hk,ha⟩
    · exact ⟨_,hk,keep called a op res ha hp hall⟩
  | call w called hact hd =>
    obtain ⟨hp,hk⟩ := tracks_invoke w a method hm hs hact
    exact ⟨_,hk,call called a ha hp (hs.events ▸ hd)⟩

theorem served_tracks (o : Object σ κ β η ε) (fault : η → Prop) (inp : List β)
    (due : List ε → Prop) (method : σ → σ × List (Action (Op β κ) ε))
    (hm : ∀ s, (started (method s).2).length ≤ 1) (I : State σ κ β η ε → Prop)
    (keep : ∀ c op res, I c → c.pending = [op] → Allowed fault op res → I (c.next o [] [] op res))
    (called : ∀ c, I c → c.pending = [] → due c.events → I (c.invoke (method c.obj)))
    (w v : Wire σ κ β ε) (c : State σ κ β η ε) (h : Tracks w c) (hi : I c)
    (hr : Run (Served o fault inp due method) w v) : ∃ d, Tracks v d ∧ I d := by
  obtain ⟨b,hrec⟩ := served_recorded o fault inp due method w v false hr
  exact recorded_tracks o fault inp due method hm (fun _ => I) (fun _ => keep) (fun _ => called)
    (w,false) (v,b) c h hi hrec

theorem flow_active (o : Object σ κ β η ε) (fault : η → Prop) (inp : List β)
    (w v : Wire σ κ β ε) (h : Flow o fault inp w v) : w.active ≠ [] := by
  rintro hw
  cases h <;> simp_all

theorem flow_taken (o : Object σ κ β η ε) (fault : η → Prop) (inp : List β)
    (w v : Wire σ κ β ε) (h : Flow o fault inp w v) (hw : w.taken <+: inp) :
    v.taken <+: inp := by
  cases h with
  | receive before after n k got chunk ha hc hn hi => exact hi
  | transmit => exact hw
  | complete => exact hw
  | fail => exact hw

theorem served_taken (o : Object σ κ β η ε) (fault : η → Prop) (inp : List β)
    (due : List ε → Prop) (method : σ → σ × List (Action (Op β κ) ε)) (w v : Wire σ κ β ε)
    (h : Run (Served o fault inp due method) w v) (hw : w.taken <+: inp) : v.taken <+: inp := by
  refine run_invariant (fun w => w.taken <+: inp) ?_ h hw
  intro s t hs ht
  cases ht with
  | io _ hf => exact flow_taken o fault inp s t hf hs
  | call hi hd => exact hs

theorem flow_sent (o : Object σ κ β η ε) (fault : η → Prop) (inp : List β)
    (w v : Wire σ κ β ε) (h : Flow o fault inp w v) : w.sent <+: v.sent := by
  cases h with
  | transmit before after msg k gone chunk ha hc hm => exact List.prefix_append _ _
  | receive => exact List.prefix_refl _
  | complete => exact List.prefix_refl _
  | fail => exact List.prefix_refl _

/-- A step stays possible when more has arrived. -/
theorem flow_arrived (o : Object σ κ β η ε) (fault : η → Prop) (inp inp' : List β)
    (hi : inp <+: inp') (w v : Wire σ κ β ε) (h : Flow o fault inp w v) :
    Flow o fault inp' w v := by
  cases h with
  | receive before after n k got chunk ha hc hn ht =>
    exact .receive w before after n k got chunk ha hc hn (ht.trans hi)
  | transmit before after msg k gone chunk ha hc hm =>
    exact .transmit w before after msg k gone chunk ha hc hm
  | complete before after op moved ha hw => exact .complete w before after op moved ha hw
  | fail before after op moved e ha he => exact .fail w before after op moved e ha he

theorem served_arrived (o : Object σ κ β η ε) (fault : η → Prop) (inp inp' : List β)
    (due : List ε → Prop) (method : σ → σ × List (Action (Op β κ) ε)) (hi : inp <+: inp')
    (w v : Wire σ κ β ε) (h : Served o fault inp due method w v) :
    Served o fault inp' due method w v := by
  cases h with
  | io _ hf => exact .io w v (flow_arrived o fault inp inp' hi w v hf)
  | call ha hd => exact .call w ha hd

theorem served_sent (o : Object σ κ β η ε) (fault : η → Prop) (inp : List β)
    (due : List ε → Prop) (method : σ → σ × List (Action (Op β κ) ε)) (w v : Wire σ κ β ε)
    (h : Served o fault inp due method w v) : w.sent <+: v.sent := by
  cases h with
  | io _ hf => exact flow_sent o fault inp w v hf
  | call ha hd => exact List.prefix_refl _

theorem flow_mono (o : Object σ κ β η ε) (fault fault' : η → Prop) (inp : List β)
    (hf : ∀ e, fault e → fault' e) (w v : Wire σ κ β ε) (h : Flow o fault inp w v) :
    Flow o fault' inp w v := by
  cases h with
  | receive before after n k got chunk ha hc hn hi =>
    exact .receive w before after n k got chunk ha hc hn hi
  | transmit before after msg k gone chunk ha hc hm =>
    exact .transmit w before after msg k gone chunk ha hc hm
  | complete before after op moved ha hw => exact .complete w before after op moved ha hw
  | fail before after op moved e ha he => exact .fail w before after op moved e ha (hf e he)

/-- Only an unfinished read whose stream has run dry keeps an operation waiting. -/
theorem flow_live (o : Object σ κ β η ε) (fault : η → Prop) (inp : List β)
    (w : Wire σ κ β ε) (op : Op β κ) (moved : List β) (ha : w.active = [(op,moved)])
    (hp : op.Part moved) (ht : w.taken <+: inp)
    (hav : ∀ n k, op = .read n k → moved.length < n → w.taken.length < inp.length) :
    ∃ v, Flow o fault inp w v := by
  by_cases hw : op.Whole moved
  · exact ⟨_,.complete w [] [] op moved ha hw⟩
  · cases op with
    | read n k =>
      have hlt : moved.length < n := Nat.lt_of_le_of_ne hp hw
      obtain ⟨rest,rfl⟩ := ht
      have hr : rest ≠ [] := by
        have := hav n k rfl hlt
        rintro rfl
        simp at this
      obtain ⟨b,bs,rfl⟩ := List.exists_cons_of_ne_nil hr
      refine ⟨_,.receive w [] [] n k moved [b] ha (by simp)
        (by simpa using Nat.succ_le_of_lt hlt) ?_⟩
      exact ⟨bs,by simp⟩
    | write msg k =>
      obtain ⟨rest,rfl⟩ := hp
      have hr : rest ≠ [] := by
        rintro rfl
        exact hw (by simp [Op.Whole])
      obtain ⟨b,bs,rfl⟩ := List.exists_cons_of_ne_nil hr
      exact ⟨_,.transmit w [] [] _ k moved [b] ha (by simp) ⟨bs,by simp⟩⟩

/-- A rank that pays for the elements an operation moves, and for the operation
that its callback starts, bounds the length of every run. -/
def Ranked (o : Object σ κ β η ε) (fault : η → Prop) (rank : σ → Op β κ → ℕ)
    (c : State σ κ β η ε) : Prop :=
  ∀ op, c.pending = [op] → op.size < rank c.obj op ∧ ∀ res, Allowed fault op res →
    ((started (o.done op res c.obj).2).map (rank (o.done op res c.obj).1)).sum
      + op.size < rank c.obj op

def Wire.rank (r : σ → Op β κ → ℕ) (w : Wire σ κ β ε) : ℕ :=
  (w.active.map fun p => r w.obj p.1-p.2.length).sum

theorem rank_settle (o : Object σ κ β η ε) (r : σ → Op β κ → ℕ) (w : Wire σ κ β ε)
    (op : Op β κ) (res : Result β η) :
    (w.settle o [] [] op res).rank r =
      ((started (o.done op res w.obj).2).map (r (o.done op res w.obj).1)).sum := by
  simp [Wire.rank, Wire.settle, Function.comp_def]

theorem rank_flow (o : Object σ κ β η ε) (fault : η → Prop) (inp : List β)
    (r : σ → Op β κ → ℕ) (w v : Wire σ κ β ε) (c : State σ κ β η ε) (h : Tracks w c)
    (hc : Ranked o fault r c) (hf : Flow o fault inp w v) : v.rank r < w.rank r := by
  obtain ⟨ho,-,⟨-,hw,-,-⟩ | ⟨op,moved,hp,hw,hpart,-,-⟩⟩ := h
  · cases hf <;> simp_all
  have hlen := part_length op moved hpart
  obtain ⟨hbig,hlow⟩ := hc op hp
  rw [← ho] at hbig hlow
  have hr : w.rank r = r w.obj op-moved.length := by simp [Wire.rank, hw]
  cases hf with
  | receive before after n k got chunk ha hch hn hi =>
    obtain ⟨rfl,h,rfl⟩ := only_active (hw ▸ ha)
    obtain ⟨rfl,rfl⟩ := Prod.mk.inj h
    have hpos := List.length_pos_iff.mpr hch
    simp only [Op.size] at hbig
    rw [hr]
    simp only [Wire.rank, List.nil_append, List.map_cons, List.map_nil, List.sum_cons,
      List.sum_nil, List.length_append]
    omega
  | transmit before after msg k gone chunk ha hch hm =>
    obtain ⟨rfl,h,rfl⟩ := only_active (hw ▸ ha)
    obtain ⟨rfl,rfl⟩ := Prod.mk.inj h
    have hpos := List.length_pos_iff.mpr hch
    have hml := hm.length_le
    simp only [Op.size, List.length_append] at hbig hml
    rw [hr]
    simp only [Wire.rank, List.nil_append, List.map_cons, List.map_nil, List.sum_cons,
      List.sum_nil, List.length_append]
    omega
  | complete before after op' moved' ha hwh =>
    obtain ⟨rfl,h,rfl⟩ := only_active (hw ▸ ha)
    obtain ⟨rfl,rfl⟩ := Prod.mk.inj h
    have := hlow (.ok moved) hwh
    rw [rank_settle, hr]
    omega
  | fail before after op' moved' e ha hfault =>
    obtain ⟨rfl,h,rfl⟩ := only_active (hw ▸ ha)
    obtain ⟨rfl,rfl⟩ := Prod.mk.inj h
    have := hlow (.error e moved) ⟨hfault,hpart⟩
    rw [rank_settle, hr]
    omega

/-- What every callback keeps holds between any two of them. -/
theorem flow_tracks (o : Object σ κ β η ε) (fault : η → Prop) (inp : List β)
    (I : State σ κ β η ε → Prop)
    (keep : ∀ c op res, I c → c.pending = [op] → Allowed fault op res → I (c.next o [] [] op res))
    (r : σ × List (Action (Op β κ) ε)) (hr : (started r.2).length ≤ 1) (hi : I (Conf.begun r))
    (w : Wire σ κ β ε) (h : Run (Flow o fault inp) (Wire.begun r) w) :
    w.taken <+: inp ∧ ∃ c, Tracks w c ∧ I c := by
  refine run_invariant (fun w => w.taken <+: inp ∧ ∃ c, Tracks w c ∧ I c) ?_ h
    ⟨List.nil_prefix,_,tracks_begun r hr,hi⟩
  rintro u v ⟨ht,c,hc,hcI⟩ hf
  refine ⟨flow_taken o fault inp u v hf ht,?_⟩
  rcases tracks_flow o fault inp u v c hc hf with hk | ⟨op,res,hp,hall,hk⟩
  · exact ⟨c,hk,hcI⟩
  · exact ⟨_,hk,keep c op res hcI hp hall⟩

/-- Where the stream has enough for every read, nothing is outstanding in the end. -/
theorem ended_inevitable (o : Object σ κ β η ε) (fault : η → Prop) (inp : List β)
    (r : σ → Op β κ → ℕ) (hrank : ∀ c, Ranked o fault r c) (I : State σ κ β η ε → Prop)
    (keep : ∀ c op res, I c → c.pending = [op] → Allowed fault op res → I (c.next o [] [] op res))
    (needs : ∀ c n k, I c → c.pending = [.read n k] → taken c <+: inp →
      (taken c).length+n ≤ inp.length) (w : Wire σ κ β ε) (c : State σ κ β η ε)
    (hc : Tracks w c) (hi : I c) (ht : w.taken <+: inp) :
    Inevitable (Flow o fault inp)
      (fun w => w.active = [] ∧ w.taken <+: inp ∧ ∃ c, Tracks w c ∧ I c) w := by
  refine inevitable_of_measure (fun w => w.taken <+: inp ∧ ∃ c, Tracks w c ∧ I c) (Wire.rank r)
    ?_ ?_ ?_ w ⟨ht,c,hc,hi⟩
  · rintro u v ⟨ht,c,hc,hcI⟩ hf
    refine ⟨flow_taken o fault inp u v hf ht,?_⟩
    rcases tracks_flow o fault inp u v c hc hf with hk | ⟨op,res,hp,hall,hk⟩
    · exact ⟨c,hk,hcI⟩
    · exact ⟨_,hk,keep c op res hcI hp hall⟩
  · rintro u ⟨ht,c,hc,hcI⟩
    obtain ⟨-,-,⟨-,hw,-,-⟩ | ⟨op,moved,hp,hw,hpart,htk,-⟩⟩ := id hc
    · exact .inl ⟨hw,ht,c,hc,hcI⟩
    · right
      apply flow_live o fault inp u op moved hw hpart ht
      rintro n k rfl hlt
      rw [received_read] at htk
      have hneed := needs c n k hcI hp ((htk ▸ List.prefix_append _ _).trans ht)
      rw [htk, List.length_append]
      omega
  · rintro u v ⟨-,c,hc,-⟩ hf
    exact rank_flow o fault inp r u v c hc (hrank c) hf

end StreamObject
