import ProxySwiss.ChainWalk

/-!
# Order, outcome and blame of a walk

Along every run the first stop is the only address connected to, a hop is
asked only when all hops before it have answered with success, and the result
names the hop whose step did not succeed.
-/

set_option autoImplicit false

namespace ProxySwiss.ChainSoundness
open Memory TransitionSystem CallbackObject Output ChainWalk

def issued (c : OutputState) : List Op := c.completed.map Prod.fst ++ c.pending

def Answered (hist : List (Op × Outcome)) (j : ℕ) : Prop :=
  ∃ r, (.readConnectResponse j j,r) ∈ hist ∧ ¬ r.err.failed ∧ r.connResp.major = .succeeded

/-- The operations that belong to the walk once the given ones are complete. -/
def Proper (cfg : OutputConfig) (dst : Destination) (hist : List (Op × Outcome)) : Op → Prop
  | .asyncResolve hostname port _ => (firstStop cfg dst).usingHostname = true ∧
      hostname = (firstStop cfg dst).hostname ∧ port = (firstStop cfg dst).port
  | .asyncConnect a port _ => port = (firstStop cfg dst).port ∧
      ((firstStop cfg dst).usingHostname = false ∧ a = (firstStop cfg dst).ipAddress ∨
        ∃ r, (lookup cfg dst,r) ∈ hist ∧ ¬ r.err.failed ∧ a = r.address)
  | .writeConnectRequest hop d _ =>
      hop < hops cfg ∧ d = target cfg dst hop ∧ ∀ j < hop, Answered hist j
  | .readConnectResponse hop _ => hop < hops cfg

theorem answered_append (hist more : List (Op × Outcome)) (j : ℕ) (h : Answered hist j) :
    Answered (hist ++ more) j := by
  obtain ⟨r,hr,hok⟩ := h
  exact ⟨r,List.mem_append_left _ hr,hok⟩

theorem proper_append (cfg : OutputConfig) (dst : Destination) (hist more : List (Op × Outcome))
    (op : Op) (h : Proper cfg dst hist op) : Proper cfg dst (hist ++ more) op := by
  cases op with
  | asyncResolve hostname port index => exact h
  | readConnectResponse hop index => exact h
  | writeConnectRequest hop d index =>
    exact ⟨h.1,h.2.1,fun j hj => answered_append _ _ _ (h.2.2 j hj)⟩
  | asyncConnect a port index =>
    obtain ⟨hp,hg | ⟨r,hr,hok⟩⟩ := h
    · exact ⟨hp,.inl hg⟩
    · exact ⟨hp,.inr ⟨r,List.mem_append_left _ hr,hok⟩⟩

/-- Every step of a history belonged to the walk and succeeded. -/
def Sound (cfg : OutputConfig) (dst : Destination) (hist : List (Op × Outcome)) : Prop :=
  ∀ p ∈ hist, Proper cfg dst hist p.1 ∧ Succeeded p

theorem sound_snoc (cfg : OutputConfig) (dst : Destination) (hist : List (Op × Outcome))
    (op : Op) (r : Outcome) (h : Sound cfg dst hist) (hp : Proper cfg dst hist op)
    (hr : Succeeded (op,r)) : Sound cfg dst (hist ++ [(op,r)]) := by
  intro p hin
  rcases List.mem_append.mp hin with hin | hin
  · exact ⟨proper_append _ _ _ _ _ (h p hin).1,(h p hin).2⟩
  · obtain rfl := List.mem_singleton.mp hin
    exact ⟨proper_append _ _ _ _ _ hp,hr⟩

theorem located_sound (cfg : OutputConfig) (dst : Destination) (a : Address)
    (hist : List (Op × Outcome)) (h : Located cfg dst a hist) :
    Sound cfg dst hist ∧ Proper cfg dst hist (opening cfg dst a) := by
  cases h with
  | given h => exact ⟨by simp [Sound],rfl,.inl ⟨h,rfl⟩⟩
  | resolved r h hr =>
    constructor
    · exact sound_snoc cfg dst [] (lookup cfg dst) r (by simp [Sound]) ⟨h,rfl,rfl⟩ hr
    · exact ⟨rfl,.inr ⟨r,by simp,hr,rfl⟩⟩

/-- By induction on the hops that were passed. -/
theorem walked_sound (cfg : OutputConfig) (dst : Destination) (i : ℕ)
    (hist : List (Op × Outcome)) (h : Walked cfg dst i hist) (hi : i ≤ hops cfg) :
    Sound cfg dst hist ∧ ∀ j < i, Answered hist j := by
  induction h with
  | connected a hist r h hr =>
    obtain ⟨hs,hp⟩ := located_sound cfg dst a hist h
    exact ⟨sound_snoc _ _ _ _ _ hs hp hr,fun j hj => absurd hj (Nat.not_lt_zero j)⟩
  | hop i hist w r h hw hr ih =>
    obtain ⟨hs,ha⟩ := ih (Nat.le_of_succ_le hi)
    have hask : Sound cfg dst (hist ++ [(request cfg dst i,w)]) :=
      sound_snoc _ _ _ _ _ hs ⟨hi,rfl,ha⟩ hw
    constructor
    · exact sound_snoc _ _ _ _ _ hask hi hr
    · intro j hj
      rcases Nat.lt_succ_iff_lt_or_eq.mp hj with hlt | rfl
      · exact answered_append _ _ _ (answered_append _ _ _ (ha j hlt))
      · exact ⟨r,by simp,hr⟩

theorem ahead_sound (cfg : OutputConfig) (dst : Destination) (hist : List (Op × Outcome))
    (op : Op) (h : Ahead cfg dst hist op) : Sound cfg dst hist ∧ Proper cfg dst hist op := by
  cases h with
  | resolve h => exact ⟨by simp [Sound],h,rfl,rfl⟩
  | connect a _ h => exact located_sound cfg dst a hist h
  | ask i _ hi h =>
    obtain ⟨hs,ha⟩ := walked_sound cfg dst i hist h (Nat.le_of_lt hi)
    exact ⟨hs,hi,rfl,ha⟩
  | await i past w hi h hw =>
    obtain ⟨hs,ha⟩ := walked_sound cfg dst i past h (Nat.le_of_lt hi)
    exact ⟨sound_snoc _ _ _ _ _ hs ⟨hi,rfl,ha⟩ hw,hi⟩

theorem issued_proper (cfg : OutputConfig) (dst : Destination) (c : OutputState)
    (h : Phase cfg dst c) : ∀ op ∈ issued c, Proper cfg dst c.completed op := by
  intro op hin
  rcases List.mem_append.mp hin with hin | hin
  · obtain ⟨p,hp,rfl⟩ := List.mem_map.mp hin
    cases h with
    | walking op' ha => exact ((ahead_sound cfg dst _ _ ha).1 p hp).1
    | failed hist op' r ha hr hc =>
      obtain ⟨hs,hop⟩ := ahead_sound cfg dst _ _ ha
      rw [hc] at hp ⊢
      rcases List.mem_append.mp hp with hp | hp
      · exact proper_append _ _ _ _ _ (hs p hp).1
      · obtain rfl := List.mem_singleton.mp hp
        exact proper_append _ _ _ _ _ hop
    | finished hw => exact ((walked_sound cfg dst _ _ hw (Nat.le_refl _)).1 p hp).1
  · cases h with
    | walking op' ha hs hp =>
      obtain rfl : op = op' := by simpa [hp] using hin
      exact (ahead_sound cfg dst _ _ ha).2
    | failed hist op' r ha hr hc hp => simp [hp] at hin
    | finished hw hp => simp [hp] at hin

/-- Every step of every hop was made, and succeeded. -/
structure AllSucceeded (cfg : OutputConfig) (hist : List (Op × Outcome)) : Prop where
  steps : ∀ p ∈ hist, Succeeded p
  connected : ∃ a port index r, (.asyncConnect a port index,r) ∈ hist
  asked : ∀ i < hops cfg, ∃ d r, (.writeConnectRequest i d i,r) ∈ hist
  answered : ∀ i < hops cfg, Answered hist i

theorem walked_all (cfg : OutputConfig) (dst : Destination) (i : ℕ)
    (hist : List (Op × Outcome)) (h : Walked cfg dst i hist) :
    (∃ a port index r, (.asyncConnect a port index,r) ∈ hist) ∧
      ∀ j < i, ∃ d r, (.writeConnectRequest j d j,r) ∈ hist := by
  induction h with
  | connected a hist r h hr =>
    exact ⟨⟨a,(firstStop cfg dst).port,firstIndex cfg,r,by simp [opening]⟩,
      fun j hj => absurd hj (Nat.not_lt_zero j)⟩
  | hop i hist w r h hw hr ih =>
    obtain ⟨⟨a,port,index,x,hx⟩,hj⟩ := ih
    refine ⟨⟨a,port,index,x,by simp [hx]⟩,fun j hlt => ?_⟩
    rcases Nat.lt_succ_iff_lt_or_eq.mp hlt with hlt | rfl
    · obtain ⟨d,y,hy⟩ := hj j hlt
      exact ⟨d,y,by simp [hy]⟩
    · exact ⟨target cfg dst j,w,by simp [request]⟩

/-- The position that a failure names is one of the chain. -/
theorem blame_index (cfg : OutputConfig) (dst : Destination) (hist : List (Op × Outcome))
    (op : Op) (h : Ahead cfg dst hist op) :
    (blame cfg op = kNoIndex ↔ hops cfg = 0) ∧ (hops cfg ≠ 0 → blame cfg op < hops cfg) := by
  have hfits : hops cfg < 2^64 := cfg.fits
  have hfirst : (firstIndex cfg = kNoIndex ↔ hops cfg = 0) ∧
      (hops cfg ≠ 0 → firstIndex cfg < hops cfg) := by
    by_cases hz : hops cfg = 0
    · simp [firstIndex, hz]
    · simp only [firstIndex, hz, if_false, iff_false]
      exact ⟨by decide,fun _ => Nat.pos_of_ne_zero hz⟩
  have hhop : ∀ i < hops cfg, (i = kNoIndex ↔ hops cfg = 0) ∧ (hops cfg ≠ 0 → i < hops cfg) := by
    intro i hi
    refine ⟨⟨fun hx => ?_,fun hz => absurd hi (by omega)⟩,fun _ => hi⟩
    simp only [kNoIndex] at hx
    omega
  cases h with
  | resolve _ => exact hfirst
  | connect _ _ _ => exact hfirst
  | ask i _ hi _ => exact hhop i hi
  | await i _ _ hi _ _ => exact hhop i hi

theorem failure_fields (cfg : OutputConfig) (op : Op) (r : Outcome) :
    (failureOf cfg op r).success = false ∧ (failureOf cfg op r).chainFailIndex = blame cfg op := by
  unfold failureOf
  split_ifs <;> exact ⟨rfl,rfl⟩

/-- The chain is walked in order, and a failure names the hop it happened at. -/
theorem chain_walk (cfg : OutputConfig) (dst : Destination) (c : OutputState)
    (h : Run OutputStep (Conf.begun (connectThroughChain (create cfg) dst)) c) :
    (∀ a port index, .asyncConnect a port index ∈ issued c →
      port = (firstStop cfg dst).port ∧
        ((firstStop cfg dst).usingHostname = false ∧ a = (firstStop cfg dst).ipAddress ∨
          ∃ r, (lookup cfg dst,r) ∈ c.completed ∧ ¬ r.err.failed ∧ a = r.address)) ∧
    (∀ hop d index, .writeConnectRequest hop d index ∈ issued c →
      hop < hops cfg ∧ d = target cfg dst hop ∧ ∀ j < hop, Answered c.completed j) ∧
    c.events.length ≤ 1 ∧ (c.pending = [] → c.events ≠ []) ∧
    (∀ e ∈ c.events, ∃ cr, e = .connected cr ∧ c.pending = [] ∧
      (cr.success = true ↔ AllSucceeded cfg c.completed)) ∧
    (∀ cr, .connected cr ∈ c.events → cr.success = false →
      ∃ op r, c.completed.getLast? = some (op,r) ∧ ¬ Succeeded (op,r) ∧
        cr.chainFailIndex = blame cfg op ∧ (cr.chainFailIndex = kNoIndex ↔ hops cfg = 0) ∧
        (hops cfg ≠ 0 → cr.chainFailIndex < hops cfg)) := by
  have hph := run_phase cfg dst c h
  have hissued := issued_proper cfg dst c hph
  refine ⟨fun a port index hin => hissued _ hin,fun hop d index hin => hissued _ hin,?_⟩
  cases hph with
  | walking op ha hs hp he =>
    rw [hp, he]
    exact ⟨Nat.zero_le _,by simp,by simp,by simp⟩
  | failed hist op r ha hr hc hp he =>
    obtain ⟨hsucc,hidx⟩ := failure_fields cfg op r
    have hlast : c.completed.getLast? = some (op,r) := by simp [hc]
    have hnot : ¬ AllSucceeded cfg c.completed := fun hall => hr (hall.steps _ (by simp [hc]))
    rw [hp, he]
    refine ⟨Nat.le_refl _,by simp,?_,?_⟩
    · intro e hin
      obtain rfl := List.mem_singleton.mp hin
      exact ⟨_,rfl,rfl,by simp [hsucc, hnot]⟩
    · intro cr hin _
      obtain rfl : cr = failureOf cfg op r := by simpa using hin
      rw [hidx]
      exact ⟨op,r,hlast,hr,rfl,blame_index cfg dst hist op ha⟩
  | finished hw hp he =>
    obtain ⟨hs,hans⟩ := walked_sound cfg dst _ _ hw (Nat.le_refl _)
    obtain ⟨hconn,hask⟩ := walked_all cfg dst _ _ hw
    rw [hp, he]
    refine ⟨Nat.le_refl _,by simp,?_,?_⟩
    · intro e hin
      obtain rfl := List.mem_singleton.mp hin
      exact ⟨_,rfl,rfl,fun _ => ⟨fun p hp => (hs p hp).2,hconn,hask,hans⟩,fun _ => rfl⟩
    · intro cr hin hfail
      obtain rfl : cr = { success := true } := by simpa using hin
      simp at hfail

def twoHops : OutputConfig where
  proxyChain := [⟨.socks5,{ ipAddress := .v4 1, port := 1080 },{}⟩,
    ⟨.socks5,{ hostname := [98], port := 1081 },{}⟩]
  fits := by decide

def secondRefuses : List Outcome :=
  [{},{},{ connResp := ⟨.succeeded⟩ },{},{ connResp := ⟨.connectionRefused⟩ }]

/-- The second of two hops refuses. -/
theorem chain_walk_refused : ∃ c,
    Run OutputStep (Conf.begun (connectThroughChain (create twoHops) { hostname := [99] })) c ∧
    c.events = [.connected ⟨false,.noError,1,⟨.connectionRefused⟩⟩] ∧
    ∀ cr, .connected cr ∈ c.events → cr.success = false → cr.chainFailIndex < 2 := by
  have hrun := play_run output (fun _ _ => True) secondRefuses
    (Conf.begun (connectThroughChain (create twoHops) { hostname := [99] }))
    ⟨trivial,trivial,trivial,trivial,trivial,trivial⟩
  obtain ⟨-,-,-,-,-,hfail⟩ := chain_walk twoHops { hostname := [99] } _ hrun
  refine ⟨_,hrun,rfl,fun cr hin hs => ?_⟩
  obtain ⟨op,r,-,-,-,-,hlt⟩ := hfail cr hin hs
  exact hlt (by decide)

end ProxySwiss.ChainSoundness
