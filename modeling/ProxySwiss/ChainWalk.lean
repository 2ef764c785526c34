import ProxySwiss.Output

/-!
# The walk through the chain

The walk that the output is meant to make is written down as the operations
that succeeded so far and the one that comes next. Every run of the output is
such a walk, up to the first step that does not succeed.
-/

set_option autoImplicit false

namespace ProxySwiss.ChainWalk
open Memory TransitionSystem CallbackObject Output

abbrev OutputState := Conf Output Op Outcome Event

/-- An operation completes with any outcome. -/
abbrev OutputStep : OutputState → OutputState → Prop := Step output fun _ _ => True

def hops (cfg : OutputConfig) : ℕ := cfg.proxyChain.length

def firstStop (cfg : OutputConfig) (dst : Destination) : Destination :=
  if hops cfg = 0 then dst else proxyAddress cfg 0

def firstIndex (cfg : OutputConfig) : ℕ := if hops cfg = 0 then kNoIndex else 0

/-- What a hop is asked for. -/
def target (cfg : OutputConfig) (dst : Destination) (i : ℕ) : Destination :=
  if i+1 < hops cfg then proxyAddress cfg (i+1) else dst

def opening (cfg : OutputConfig) (dst : Destination) (a : Address) : Op :=
  .asyncConnect a (firstStop cfg dst).port (firstIndex cfg)

def lookup (cfg : OutputConfig) (dst : Destination) : Op :=
  .asyncResolve (firstStop cfg dst).hostname (firstStop cfg dst).port (firstIndex cfg)

def request (cfg : OutputConfig) (dst : Destination) (i : ℕ) : Op :=
  .writeConnectRequest i (target cfg dst i) i

/-- A step of the walk succeeds if it reports no error and, where it reads a
response, the response is a success. -/
def Succeeded : Op × Outcome → Prop
  | (.readConnectResponse _ _,r) => ¬ r.err.failed ∧ r.connResp.major = .succeeded
  | (_,r) => ¬ r.err.failed

/-- The address of the first stop, as it is configured or as it was resolved. -/
inductive Located (cfg : OutputConfig) (dst : Destination) :
    Address → List (Op × Outcome) → Prop
  | given (h : (firstStop cfg dst).usingHostname = false) :
      Located cfg dst (firstStop cfg dst).ipAddress []
  | resolved (r : Outcome) (h : (firstStop cfg dst).usingHostname = true)
      (hr : ¬ r.err.failed) : Located cfg dst r.address [(lookup cfg dst,r)]

/-- The successful steps up to and including the first `i` hops. -/
inductive Walked (cfg : OutputConfig) (dst : Destination) : ℕ → List (Op × Outcome) → Prop
  | connected (a : Address) (hist : List (Op × Outcome)) (r : Outcome)
      (h : Located cfg dst a hist) (hr : ¬ r.err.failed) :
      Walked cfg dst 0 (hist ++ [(opening cfg dst a,r)])
  | hop (i : ℕ) (hist : List (Op × Outcome)) (w r : Outcome) (h : Walked cfg dst i hist)
      (hw : ¬ w.err.failed) (hr : Succeeded (.readConnectResponse i i,r)) :
      Walked cfg dst (i+1)
        (hist ++ [(request cfg dst i,w)] ++ [(.readConnectResponse i i,r)])

/-- The step that comes next after the steps of a history. -/
inductive Ahead (cfg : OutputConfig) (dst : Destination) : List (Op × Outcome) → Op → Prop
  | resolve (h : (firstStop cfg dst).usingHostname = true) : Ahead cfg dst [] (lookup cfg dst)
  | connect (a : Address) (hist : List (Op × Outcome)) (h : Located cfg dst a hist) :
      Ahead cfg dst hist (opening cfg dst a)
  | ask (i : ℕ) (hist : List (Op × Outcome)) (hi : i < hops cfg) (h : Walked cfg dst i hist) :
      Ahead cfg dst hist (request cfg dst i)
  | await (i : ℕ) (hist : List (Op × Outcome)) (w : Outcome) (hi : i < hops cfg)
      (h : Walked cfg dst i hist) (hw : ¬ w.err.failed) :
      Ahead cfg dst (hist ++ [(request cfg dst i,w)]) (.readConnectResponse i i)

def hopOf : Op → ℕ
  | .writeConnectRequest hop _ _ => hop
  | .readConnectResponse hop _ => hop
  | _ => 0

/-- The index of the hop whose step it is. -/
def blame (cfg : OutputConfig) : Op → ℕ
  | .writeConnectRequest hop _ _ => hop
  | .readConnectResponse hop _ => hop
  | _ => firstIndex cfg

def failureOf (cfg : OutputConfig) (op : Op) (r : Outcome) : ConnectResult :=
  if r.err.failed then ⟨false,r.err,blame cfg op,{}⟩
  else ⟨false,.noError,blame cfg op,r.connResp⟩

structure Standing (cfg : OutputConfig) (dst : Destination) (i : ℕ) (s : Output) : Prop where
  chain : s.chain.length = hops cfg
  config : s.cfgOutput = cfg
  handler : s.userConnectHandler = true
  dst : s.finalDst = dst
  position : s.curProxy = i

inductive Phase (cfg : OutputConfig) (dst : Destination) (c : OutputState) : Prop
  | walking (op : Op) (ha : Ahead cfg dst c.completed op) (hs : Standing cfg dst (hopOf op) c.obj)
      (hp : c.pending = [op]) (he : c.events = [])
  | failed (hist : List (Op × Outcome)) (op : Op) (r : Outcome) (ha : Ahead cfg dst hist op)
      (hr : ¬ Succeeded (op,r)) (hc : c.completed = hist ++ [(op,r)]) (hp : c.pending = [])
      (he : c.events = [.connected (failureOf cfg op r)])
  | finished (hw : Walked cfg dst (hops cfg) c.completed) (hp : c.pending = [])
      (he : c.events = [.connected { success := true }])

theorem call_eq (s : Output) (cr : ConnectResult) (h : s.userConnectHandler = true) :
    callAndClearHandler s cr =
      ({ s with userConnectHandler := false },[.emit (.connected cr)]) := by
  simp [callAndClearHandler, h]

/-- With `i` hops behind it the output asks the next hop, or has arrived. -/
theorem connectNext_eq (cfg : OutputConfig) (dst : Destination) (i : ℕ) (s : Output)
    (err : ErrorCode) (index : ℕ) (hs : Standing cfg dst i s) (he : ¬ err.failed)
    (hi : i ≤ hops cfg) :
    connectNext s err index =
      if i = hops cfg then
        ({ s with userConnectHandler := false },[.emit (.connected { success := true })])
      else (s,[.start (.writeConnectRequest i (target cfg dst i) index)]) := by
  have hfits : hops cfg < 2^64 := cfg.fits
  have hpos : s.curProxy = s.chain.length ↔ i = hops cfg := by rw [hs.position, hs.chain]
  rw [connectNext, if_neg he]
  by_cases h : i = hops cfg
  · rw [if_pos (hpos.mpr h), if_pos h, call_eq s _ hs.handler]
  · have hlt : i < hops cfg := Nat.lt_of_le_of_ne hi h
    have hmod : (i+1) % 2^64 = i+1 := Nat.mod_eq_of_lt (by omega)
    rw [if_neg (fun hx => h (hpos.mp hx)), if_neg h, hs.position, hs.chain]
    simp only [hlt, hmod, assertThat, target, hs.config, hs.dst, decide_true, if_true]

/-- A request that was written is followed by reading the response to it. -/
theorem asked_done (cfg : OutputConfig) (dst : Destination) (i : ℕ) (s : Output) (r : Outcome)
    (hs : Standing cfg dst i s) (hr : ¬ r.err.failed) :
    done (request cfg dst i) r s = (s,[.start (.readConnectResponse i i)]) := by
  change handleWriteConnectRequest s r.err i = _
  rw [handleWriteConnectRequest, if_neg hr, hs.position]

/-- The output behind the hop whose response is `resp`. -/
def behind (s : Output) (resp : ConnectResponse) : Output :=
  { s with connResp := resp, curProxy := (s.curProxy+1) % 2^64 }

theorem behind_standing (cfg : OutputConfig) (dst : Destination) (i : ℕ) (s : Output)
    (resp : ConnectResponse) (hs : Standing cfg dst i s) (hi : i < hops cfg) :
    Standing cfg dst (i+1) (behind s resp) := by
  have hfits : hops cfg < 2^64 := cfg.fits
  refine ⟨hs.chain,hs.config,hs.handler,hs.dst,?_⟩
  simp only [behind, hs.position]
  exact Nat.mod_eq_of_lt (by omega)

theorem answered_done (i index : ℕ) (s : Output) (r : Outcome) (hr : ¬ r.err.failed) :
    done (.readConnectResponse i index) r s =
      if r.connResp.major = .succeeded then
        connectNext (behind s r.connResp) .noError ((index+1) % 2^64)
      else
        callAndClearHandler { s with connResp := r.connResp }
          ⟨false,.noError,index,r.connResp⟩ := by
  change handleReadConnectResponse (if r.err.failed then _ else _) r.err index = _
  rw [if_neg hr, handleReadConnectResponse, if_neg hr]
  by_cases hm : r.connResp.major = .succeeded
  · rw [if_neg (not_not.mpr hm), if_pos hm]
    rfl
  · rw [if_pos hm, if_neg hm]

theorem chain_length (cfg : OutputConfig) : (create cfg).chain.length = hops cfg := by
  simp [create, createChain, hops]

/-- The output begins with the first stop, which is looked up if it is a name. -/
theorem begun_eq (cfg : OutputConfig) (dst : Destination) : ∃ s : Output,
    Standing cfg dst 0 s ∧ connectThroughChain (create cfg) dst =
      if (firstStop cfg dst).usingHostname then
        ({ s with resolver := true },[.start (lookup cfg dst)])
      else (s,[.start (opening cfg dst (firstStop cfg dst).ipAddress)]) := by
  have hempty : (create cfg).chain.isEmpty = decide (hops cfg = 0) := by
    rw [← chain_length]
    cases (create cfg).chain <;> rfl
  refine ⟨{ create cfg with
    finalDst := dst
    userConnectHandler := true
    curProxy := 0 },⟨chain_length cfg,rfl,rfl,rfl,rfl⟩,?_⟩
  change (if (create cfg).chain.isEmpty then _ else _) = _
  rw [hempty]
  by_cases h : hops cfg = 0
  · simp only [h, lookup, opening, firstStop, firstIndex, decide_true, if_true]
  · simp only [h, lookup, opening, firstStop, firstIndex, decide_false, if_false]
    rfl

theorem phase_begun (cfg : OutputConfig) (dst : Destination) :
    Phase cfg dst (Conf.begun (connectThroughChain (create cfg) dst)) := by
  obtain ⟨s,hs,hdef⟩ := begun_eq cfg dst
  rw [hdef]
  split_ifs with h
  · exact .walking (lookup cfg dst) (.resolve h) ⟨hs.chain,hs.config,hs.handler,hs.dst,hs.position⟩
      rfl rfl
  · exact .walking (opening cfg dst _) (.connect _ _ (.given (by simpa using h))) hs rfl rfl

/-- A callback that starts the next operation of the walk. -/
theorem walking_next (cfg : OutputConfig) (dst : Destination) (c : OutputState) (op op' : Op)
    (r : Outcome) (s : Output) (he : c.events = []) (hd : done op r c.obj = (s,[.start op']))
    (ha : Ahead cfg dst (c.completed ++ [(op,r)]) op')
    (hs : Standing cfg dst (hopOf op') s) : Phase cfg dst (c.next output [] [] op r) := by
  have hobj : (output.done op r c.obj) = (s,[.start op']) := hd
  apply Phase.walking op' ha
  · simpa [Conf.next, hobj] using hs
  · simp [Conf.next, hobj]
  · simp [Conf.next, hobj, he]

/-- A callback that calls the user's handler. -/
theorem called_next (c : OutputState) (op : Op) (r : Outcome) (s : Output) (cr : ConnectResult)
    (he : c.events = []) (hs : s.userConnectHandler = true)
    (hd : done op r c.obj = callAndClearHandler s cr) :
    (c.next output [] [] op r).pending = [] ∧
      (c.next output [] [] op r).events = [.connected cr] := by
  have hobj : output.done op r c.obj = _ := hd.trans (call_eq s cr hs)
  constructor
  · simp [Conf.next, hobj]
  · simp [Conf.next, hobj, he]

theorem failed_next (cfg : OutputConfig) (dst : Destination) (c : OutputState) (op : Op)
    (r : Outcome) (s : Output) (ha : Ahead cfg dst c.completed op) (he : c.events = [])
    (hs : s.userConnectHandler = true) (hr : ¬ Succeeded (op,r))
    (hd : done op r c.obj = callAndClearHandler s (failureOf cfg op r)) :
    Phase cfg dst (c.next output [] [] op r) := by
  obtain ⟨hp,hev⟩ := called_next c op r s _ he hs hd
  exact .failed c.completed op r ha hr rfl hp hev

theorem failed_not_succeeded (op : Op) (r : Outcome) (hf : r.err.failed) :
    ¬ Succeeded (op,r) := by
  intro hok
  cases op with
  | readConnectResponse hop index => exact hok.1 hf
  | asyncResolve _ _ _ => exact hok hf
  | asyncConnect _ _ _ => exact hok hf
  | writeConnectRequest _ _ _ => exact hok hf

/-- A step that itself fails ends the call with its own error. -/
theorem faulted_next (cfg : OutputConfig) (dst : Destination) (c : OutputState) (op : Op)
    (r : Outcome) (s : Output) (ha : Ahead cfg dst c.completed op) (he : c.events = [])
    (hs : s.userConnectHandler = true) (hf : r.err.failed)
    (hd : done op r c.obj = callAndClearHandler s ⟨false,r.err,blame cfg op,{}⟩) :
    Phase cfg dst (c.next output [] [] op r) := by
  have hblamed : failureOf cfg op r = ⟨false,r.err,blame cfg op,{}⟩ := if_pos hf
  exact failed_next cfg dst c op r s ha he hs (failed_not_succeeded op r hf)
    (hd.trans (congrArg (callAndClearHandler s) hblamed.symm))

/-- After a step that leaves `i` hops behind, the next hop is asked or the
walk is over. -/
theorem walked_next (cfg : OutputConfig) (dst : Destination) (c : OutputState) (op : Op)
    (r : Outcome) (i : ℕ) (s : Output) (err : ErrorCode) (index : ℕ) (he : c.events = [])
    (hw : Walked cfg dst i (c.completed ++ [(op,r)])) (hs : Standing cfg dst i s)
    (herr : ¬ err.failed) (hi : i ≤ hops cfg) (hx : i < hops cfg → index = i)
    (hd : done op r c.obj = connectNext s err index) :
    Phase cfg dst (c.next output [] [] op r) := by
  rw [connectNext_eq cfg dst i s err index hs herr hi] at hd
  by_cases h : i = hops cfg
  · rw [if_pos h, ← call_eq s _ hs.handler] at hd
    obtain ⟨hp,hev⟩ := called_next c op r s _ he hs.handler hd
    exact .finished (h ▸ hw) hp hev
  · have hlt : i < hops cfg := Nat.lt_of_le_of_ne hi h
    rw [if_neg h, hx hlt] at hd
    exact walking_next cfg dst c op _ r s he hd (.ask i _ hlt hw) hs

theorem step_next (cfg : OutputConfig) (dst : Destination) (c : OutputState) (op : Op)
    (r : Outcome) (ha : Ahead cfg dst c.completed op) (hs : Standing cfg dst (hopOf op) c.obj)
    (he : c.events = []) : Phase cfg dst (c.next output [] [] op r) := by
  have hclear : Standing cfg dst (hopOf op) { c.obj with resolver := false } :=
    ⟨hs.chain,hs.config,hs.handler,hs.dst,hs.position⟩
  generalize hc : c.completed = past at ha
  cases ha with
  | resolve h =>
    by_cases hf : r.err.failed
    · exact faulted_next cfg dst c _ r _ (hc ▸ .resolve h) he hclear.handler hf (if_pos hf)
    · apply walking_next cfg dst c (lookup cfg dst) (opening cfg dst r.address) r _ he (if_neg hf)
      · rw [hc]
        exact .connect _ _ (.resolved r h hf)
      · exact hclear
  | connect a _ h =>
    by_cases hf : r.err.failed
    · exact faulted_next cfg dst c _ r _ (hc ▸ .connect a _ h) he hs.handler hf (if_pos hf)
    · apply walked_next cfg dst c _ r 0 c.obj r.err (firstIndex cfg) he _ hs hf (Nat.zero_le _)
      · intro hpos
        exact if_neg (by omega)
      · rfl
      · rw [hc]
        exact .connected a past r h hf
  | ask i _ hi h =>
    by_cases hf : r.err.failed
    · exact faulted_next cfg dst c _ r _ (hc ▸ .ask i _ hi h) he hs.handler hf (if_pos hf)
    · apply walking_next cfg dst c _ (.readConnectResponse i i) r c.obj he
        (asked_done cfg dst i c.obj r hs hf)
      · rw [hc]
        exact .await i past r hi h hf
      · exact hs
  | await i hist w hi h hw =>
    by_cases hf : r.err.failed
    · apply faulted_next cfg dst c _ r c.obj (hc ▸ .await i hist w hi h hw) he hs.handler hf
      change handleReadConnectResponse (if r.err.failed then _ else _) r.err i = _
      rw [if_pos hf]
      exact if_pos hf
    · have hdone := answered_done i i c.obj r hf
      by_cases hm : r.connResp.major = .succeeded
      · have hfits : hops cfg < 2^64 := cfg.fits
        rw [if_pos hm] at hdone
        apply walked_next cfg dst c _ r (i+1) (behind c.obj r.connResp) .noError _ he _
          (behind_standing cfg dst i c.obj r.connResp hs hi) ErrorCode.noError_failed hi _ hdone
        · rw [hc]
          exact .hop i hist w r h hw ⟨hf,hm⟩
        · intro hlt
          exact Nat.mod_eq_of_lt (by omega)
      · rw [if_neg hm] at hdone
        apply failed_next cfg dst c (.readConnectResponse i i) r
          { c.obj with connResp := r.connResp }
          (hc ▸ .await i hist w hi h hw) he hs.handler (fun hok => hm hok.2)
        rw [hdone, failureOf, if_neg hf]
        rfl

theorem phase_next (cfg : OutputConfig) (dst : Destination) (c d : OutputState)
    (h : Phase cfg dst c) (ht : OutputStep c d) : Phase cfg dst d := by
  cases h with
  | walking op ha hs hp he =>
    obtain ⟨op',r,hp',-,rfl⟩ := step_cases output _ c d (by simp [hp]) ht
    obtain rfl := List.singleton_inj.mp (hp.symm.trans hp')
    exact step_next cfg dst c op r ha hs he
  | failed hist op r ha hr hc hp he =>
    obtain ⟨op',r,hp',-⟩ := step_cases output _ c d (by simp [hp]) ht
    exact absurd (hp.symm.trans hp') (by simp)
  | finished hw hp he =>
    obtain ⟨op',r,hp',-⟩ := step_cases output _ c d (by simp [hp]) ht
    exact absurd (hp.symm.trans hp') (by simp)

/-- Every state of every run is on the walk. -/
theorem run_phase (cfg : OutputConfig) (dst : Destination) (c : OutputState)
    (h : Run OutputStep (Conf.begun (connectThroughChain (create cfg) dst)) c) :
    Phase cfg dst c :=
  run_invariant (Phase cfg dst) (fun c d => phase_next cfg dst c d) h (phase_begun cfg dst)

end ProxySwiss.ChainWalk
