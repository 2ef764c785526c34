import ProxySwiss.ChainWalk
import ProxySwiss.ClientSocks5Soundness
import Mathlib.Logic.Function.Basic

/-!
# The dialogues of a chain

All hops of an output read from one socket. The output calls a method of a
hop, the hop runs its dialogue, and the handler that it calls at the end is
the next callback of the output. A hop may take whatever comes next on the
socket; that it takes no more than its own answer is what keeps the dialogues
apart.
-/

set_option autoImplicit false

namespace ProxySwiss.ChainDialogue
open Memory TransitionSystem CallbackObject StreamObject Socks5
open ClientSessionSocks5 (UserHandler writeConnectRequest readConnectResponse client)
open ClientSocks5Run (ClientState ClientWire)
open ChainWalk (OutputState Standing hops target request lookup opening hopOf)
open Output (output done)

/-- The output, the hops with what each has taken, and what was taken in all. -/
structure Chain where
  out : OutputState
  talks : ℕ → ClientWire
  taken : Bytes

/-- The call that starts an operation of the output. -/
def call (talks : ℕ → ClientWire) : Output.Op → ℕ → ClientWire
  | .writeConnectRequest hop dst _ =>
    Function.update talks hop
      ((talks hop).invoke (writeConnectRequest (talks hop).obj dst))
  | .readConnectResponse hop _ =>
    Function.update talks hop ((talks hop).invoke (readConnectResponse (talks hop).obj))
  | .asyncResolve _ _ _ | .asyncConnect _ _ _ => talks

/-- A callback of the output, with the calls it makes. -/
def Chain.resume (x : Chain) (op : Output.Op) (res : Output.Outcome) : Chain :=
  { x with
    out := x.out.next output [] [] op res
    talks := (started (done op res x.out.obj).2).foldl call x.talks }

/-- A hop has moved on, and has taken a chunk from the socket. -/
def Chain.talk (x : Chain) (i : ℕ) (v : ClientWire) (chunk : Bytes) : Chain :=
  { x with
    talks := Function.update x.talks i v
    taken := x.taken ++ chunk }

@[simp] theorem talk_self (x : Chain) (i : ℕ) (v : ClientWire) (chunk : Bytes) :
    (x.talk i v chunk).talks i = v := Function.update_self ..

theorem talk_other (x : Chain) (i j : ℕ) (v : ClientWire) (chunk : Bytes) (h : j ≠ i) :
    (x.talk i v chunk).talks j = x.talks j := Function.update_of_ne h ..

/-- The operation is performed by a hop, which calls this handler in the end. -/
inductive Handler : Output.Op → UserHandler → Prop
  | writeReq (hop : ℕ) (dst : Destination) (index : ℕ) :
      Handler (.writeConnectRequest hop dst index) .writeReq
  | readResp (hop index : ℕ) : Handler (.readConnectResponse hop index) .readResp

/-- `inp` is what has arrived at the socket; a hop reads where all hops together
have stopped. -/
inductive Step (f : Faults) (inp : Bytes) : Chain → Chain → Prop
  | connect (x : Chain) (op : Output.Op) (res : Output.Outcome) (hp : x.out.pending = [op])
      (hop : ∀ h, ¬ Handler op h) : Step f inp x (x.resume op res)
  | talk (x : Chain) (i : ℕ) (v : ClientWire) (chunk : Bytes)
      (hf : Flow client f.may ((x.talks i).taken ++ inp.drop x.taken.length) (x.talks i) v)
      (hv : v.taken = (x.talks i).taken ++ chunk) : Step f inp x (x.talk i v chunk)
  | report (x : Chain) (op : Output.Op) (h : UserHandler) (err : ErrorCode)
      (hp : x.out.pending = [op]) (hop : Handler op h)
      (he : (x.talks (hopOf op)).events.getLast? = some (.call h err)) :
      Step f inp x (x.resume op { err := err, connResp := (x.talks (hopOf op)).obj.connResp })

/-- The session of a hop, as the output has created it. -/
def hopSession (cfg : OutputConfig) (i : ℕ) : ClientSessionSocks5.Session :=
  (Output.create cfg).chain.getD i {}

def hopCreds (cfg : OutputConfig) (i : ℕ) : Credentials := (hopSession cfg i).creds

def fresh (cfg : OutputConfig) (i : ℕ) : ClientWire := ⟨hopSession cfg i,[],[],[],[]⟩

def start (cfg : OutputConfig) (dst : Destination) : Chain where
  out := Conf.begun (Output.connectThroughChain (Output.create cfg) dst)
  talks := fresh cfg
  taken := []

/-- What the first hops say when each of them lets the client through. -/
inductive Spoken (cfg : OutputConfig) : ℕ → Bytes → Prop
  | nil : Spoken cfg 0 []
  | hop (i : ℕ) (t m : Bytes) (h : Spoken cfg i t) (hm : Reply 0 m) :
      Spoken cfg (i+1) (t ++ (authAnswer (hopCreds cfg i) ++ m))

/-- One hop at most talks; the hops behind it are silent, those ahead untouched. -/
structure Apart (cfg : OutputConfig) (x : Chain) (i : ℕ) : Prop where
  past : ∀ j, j < i → (x.talks j).active = []
  ahead : ∀ j, i < j → x.talks j = fresh cfg j

/-- The output waits for the hop at its position, whose dialogue began at `base`. -/
structure Turn (cfg : OutputConfig) (dst : Destination) (x : Chain) (op : Output.Op) (i : ℕ)
    (base : Bytes) (c : ClientState) : Prop where
  lower : i < hops cfg
  standing : Standing cfg dst i x.out.obj
  pending : x.out.pending = [op]
  events : x.out.events = []
  spoken : Spoken cfg i base
  taken : x.taken = base ++ (x.talks i).taken
  tracks : Tracks (x.talks i) c
  apart : Apart cfg x i

inductive Phase (f : Faults) (cfg : OutputConfig) (dst : Destination) (x : Chain) : Prop
  | connecting (op : Output.Op) (hop : op = lookup cfg dst ∨ ∃ a, op = opening cfg dst a)
      (hs : Standing cfg dst 0 x.out.obj) (hp : x.out.pending = [op]) (he : x.out.events = [])
      (ht : x.taken = []) (hq : x.talks = fresh cfg)
  | asking (i : ℕ) (base : Bytes) (c : ClientState)
      (h : Turn cfg dst x (request cfg dst i) i base c)
      (ha : ClientSocks5Run.Asking f (hopCreds cfg i) (target cfg dst i) {} c)
      (hacc : Accepted (hopCreds cfg i) (target cfg dst i) ∨ c.pending = [])
  | reading (i : ℕ) (base : Bytes) (c : ClientState)
      (h : Turn cfg dst x (.readConnectResponse i i) i base c)
      (hr : ClientSocks5Run.Reading f {} (authAnswer (hopCreds cfg i))
        (preamble (hopCreds cfg i) ++ connectRequest (target cfg dst i))
        [.call .writeReq .noError] c)
  | failed (cr : Output.ConnectResult) (hcr : cr.success = false) (hp : x.out.pending = [])
      (he : x.out.events = [.connected cr]) (hq : ∀ j, (x.talks j).active = [])
  | finished (hs : Spoken cfg (hops cfg) x.taken) (hp : x.out.pending = [])
      (he : x.out.events = [.connected { success := true }])
      (hq : ∀ j, (x.talks j).active = [])

theorem hopSession_eq (cfg : OutputConfig) (i : ℕ) :
    hopSession cfg i = { creds := hopCreds cfg i } := by
  simp only [hopCreds, hopSession, Output.create, Output.createChain, List.getD_eq_getElem?_getD,
    List.getElem?_map]
  cases cfg.proxyChain[i]? <;> rfl

theorem hopSession_idle (cfg : OutputConfig) (i : ℕ) : ClientSocks5Run.Idle (hopSession cfg i) := by
  rw [hopSession_eq]
  exact ⟨rfl,rfl,rfl⟩

theorem fresh_tracks (cfg : OutputConfig) (dst : Destination) (i : ℕ) :
    Tracks ((fresh cfg i).invoke (writeConnectRequest (hopSession cfg i) dst))
      (Conf.begun (writeConnectRequest (hopSession cfg i) dst) : ClientState) := by
  have h : Tracks (ClientSocks5Run.start (hopSession cfg i) dst)
      (Conf.begun (writeConnectRequest (hopSession cfg i) dst) : ClientState) :=
    tracks_begun _ (ClientSocks5Run.writeConnectRequest_single _ _)
  simpa [ClientSocks5Run.start, Wire.begun, Wire.invoke, fresh] using h

theorem silent_apart (cfg : OutputConfig) (x : Chain) (i : ℕ) (h : Apart cfg x i)
    (hi : (x.talks i).active = []) (j : ℕ) : (x.talks j).active = [] := by
  rcases Nat.lt_trichotomy j i with hj | rfl | hj
  · exact h.past j hj
  · exact hi
  · rw [h.ahead j hj]
    rfl

theorem fail_next (f : Faults) (cfg : OutputConfig) (dst : Destination) (x : Chain)
    (op : Output.Op) (res : Output.Outcome) (s : Output) (cr : Output.ConnectResult)
    (he : x.out.events = []) (hq : ∀ j, (x.talks j).active = [])
    (hs : s.userConnectHandler = true) (hcr : cr.success = false)
    (hd : done op res x.out.obj = Output.callAndClearHandler s cr) :
    Phase f cfg dst (x.resume op res) := by
  obtain ⟨hp,hev⟩ := ChainWalk.called_next x.out op res s cr he hs hd
  have htalks : (x.resume op res).talks = x.talks := by
    rw [ChainWalk.call_eq s cr hs] at hd
    simp [Chain.resume, hd]
  exact .failed cr hcr hp hev fun j => by rw [htalks]; exact hq j

/-- With `i` hops behind it the output calls the next hop, or has arrived. -/
theorem hop_next (f : Faults) (cfg : OutputConfig) (dst : Destination) (x : Chain)
    (op : Output.Op) (res : Output.Outcome) (i index : ℕ) (s : Output) (err : ErrorCode)
    (he : x.out.events = []) (hs : Standing cfg dst i s) (herr : ¬ err.failed)
    (hi : i ≤ hops cfg) (hx : i < hops cfg → index = i) (hsp : Spoken cfg i x.taken)
    (hpast : ∀ j, j < i → (x.talks j).active = []) (hahead : ∀ j, i ≤ j → x.talks j = fresh cfg j)
    (hd : done op res x.out.obj = Output.connectNext s err index) :
    Phase f cfg dst (x.resume op res) := by
  rw [ChainWalk.connectNext_eq cfg dst i s err index hs herr hi] at hd
  by_cases h : i = hops cfg
  · rw [if_pos h, ← ChainWalk.call_eq s _ hs.handler] at hd
    obtain ⟨hp,hev⟩ := ChainWalk.called_next x.out op res s _ he hs.handler hd
    have htalks : (x.resume op res).talks = x.talks := by
      rw [ChainWalk.call_eq s _ hs.handler] at hd
      simp [Chain.resume, hd]
    refine .finished (h ▸ hsp) hp hev fun j => ?_
    rw [htalks]
    rcases Nat.lt_or_ge j i with hj | hj
    · exact hpast j hj
    · rw [hahead j hj]
      rfl
  · have hlt : i < hops cfg := Nat.lt_of_le_of_ne hi h
    rw [if_neg h, hx hlt] at hd
    have hobj : output.done op res x.out.obj = (s,[.start (request cfg dst i)]) := hd
    have htalks : (x.resume op res).talks = Function.update x.talks i
        ((fresh cfg i).invoke (writeConnectRequest (hopSession cfg i) (target cfg dst i))) := by
      simp [Chain.resume, hd, call, hahead i (Nat.le_refl i), fresh]
    have hacc := ClientSocks5Soundness.accepted_or_over (hopSession cfg i) (target cfg dst i)
    have hask := ClientSocks5Run.asking_begun f (hopSession cfg i) (hopSession_idle cfg i)
      (target cfg dst i)
    rw [show (hopSession cfg i).connResp = {} by rw [hopSession_eq]] at hask
    refine .asking i x.taken _ ⟨hlt,?_,?_,?_,hsp,?_,?_,?_,?_⟩ hask (hacc.imp id And.left)
    · simpa [Chain.resume, Conf.next, hobj] using hs
    · simp [Chain.resume, Conf.next, hobj, request]
    · simp [Chain.resume, Conf.next, hobj, he]
    · rw [htalks, Function.update_self]
      exact (List.append_nil _).symm
    · rw [htalks, Function.update_self]
      exact fresh_tracks cfg _ i
    · intro j hj
      rw [htalks, Function.update_of_ne (Nat.ne_of_lt hj)]
      exact hpast j hj
    · intro j hj
      rw [htalks, Function.update_of_ne (Nat.ne_of_gt hj)]
      exact hahead j (Nat.le_of_lt hj)

theorem phase_begun (f : Faults) (cfg : OutputConfig) (dst : Destination) :
    Phase f cfg dst (start cfg dst) := by
  obtain ⟨s,hs,hdef⟩ := ChainWalk.begun_eq cfg dst
  rw [start, hdef]
  split_ifs with h
  · exact .connecting _ (.inl rfl) ⟨hs.chain,hs.config,hs.handler,hs.dst,hs.position⟩
      rfl rfl rfl rfl
  · exact .connecting _ (.inr ⟨_,rfl⟩) hs rfl rfl rfl rfl

theorem connect_next (f : Faults) (cfg : OutputConfig) (dst : Destination) (x : Chain)
    (op : Output.Op) (res : Output.Outcome)
    (hop : op = lookup cfg dst ∨ ∃ a, op = opening cfg dst a)
    (hs : Standing cfg dst 0 x.out.obj) (he : x.out.events = []) (ht : x.taken = [])
    (hq : x.talks = fresh cfg) : Phase f cfg dst (x.resume op res) := by
  have hsilent : ∀ j, (x.talks j).active = [] := fun j => by rw [hq]; rfl
  have hclear : Standing cfg dst 0 { x.out.obj with resolver := false } :=
    ⟨hs.chain,hs.config,hs.handler,hs.dst,hs.position⟩
  obtain rfl | ⟨a,rfl⟩ := hop
  · by_cases hf : res.err.failed
    · exact fail_next f cfg dst x _ res _ _ he hsilent hclear.handler rfl (if_pos hf)
    · have hd : done (lookup cfg dst) res x.out.obj =
          ({ x.out.obj with resolver := false },[.start (opening cfg dst res.address)]) :=
        if_neg hf
      have hobj : output.done (lookup cfg dst) res x.out.obj = _ := hd
      apply Phase.connecting (opening cfg dst res.address) (.inr ⟨_,rfl⟩)
      · simpa [Chain.resume, Conf.next, hobj] using hclear
      · simp [Chain.resume, Conf.next, hobj]
      · simp [Chain.resume, Conf.next, hobj, he]
      · exact ht
      · simp [Chain.resume, hd, call, opening, hq]
  · by_cases hf : res.err.failed
    · exact fail_next f cfg dst x _ res _ _ he hsilent hs.handler rfl (if_pos hf)
    · apply hop_next f cfg dst x _ res 0 (ChainWalk.firstIndex cfg) x.out.obj res.err he hs hf
        (Nat.zero_le _)
      · intro hpos
        exact if_neg (by omega)
      · exact ht ▸ .nil
      · intro j hj
        exact absurd hj (Nat.not_lt_zero j)
      · intro j _
        rw [hq]
      · rfl

/-- Only the hop whose turn it is can talk, and its part of the socket is what
follows the dialogues before. -/
theorem turn_talk (f : Faults) (cfg : OutputConfig) (dst : Destination) (inp : Bytes) (x : Chain)
    (op : Output.Op) (i j : ℕ) (base chunk : Bytes) (c : ClientState) (v : ClientWire)
    (h : Turn cfg dst x op i base c)
    (hf : Flow client f.may ((x.talks j).taken ++ inp.drop x.taken.length) (x.talks j) v)
    (hv : v.taken = (x.talks j).taken ++ chunk) :
    j = i ∧ ∀ d, Tracks v d → Turn cfg dst (x.talk j v chunk) op i base d := by
  have hact : (x.talks j).active ≠ [] := flow_active client f.may _ _ v hf
  have hj : j = i := by
    rcases Nat.lt_trichotomy j i with hlt | heq | hlt
    · exact absurd (h.apart.past j hlt) hact
    · exact heq
    · exact absurd (by rw [h.apart.ahead j hlt]; rfl) hact
  subst hj
  refine ⟨rfl,fun d hd => ⟨h.lower,h.standing,h.pending,h.events,h.spoken,?_,?_,?_,?_⟩⟩
  · rw [talk_self, hv, ← List.append_assoc, ← h.taken]
    rfl
  · rw [talk_self]
    exact hd
  · intro k hk
    rw [talk_other x j k v chunk (Nat.ne_of_lt hk)]
    exact h.apart.past k hk
  · intro k hk
    rw [talk_other x j k v chunk (Nat.ne_of_gt hk)]
    exact h.apart.ahead k hk

theorem talk_next (f : Faults) (cfg : OutputConfig) (dst : Destination) (inp : Bytes) (x : Chain)
    (j : ℕ) (v : ClientWire) (chunk : Bytes) (h : Phase f cfg dst x)
    (hf : Flow client f.may ((x.talks j).taken ++ inp.drop x.taken.length) (x.talks j) v)
    (hv : v.taken = (x.talks j).taken ++ chunk) : Phase f cfg dst (x.talk j v chunk) := by
  have hact : (x.talks j).active ≠ [] := flow_active client f.may _ _ v hf
  cases h with
  | connecting op hop hs hp he ht hq =>
    rw [hq] at hact
    exact absurd rfl hact
  | asking i base c h ha hacc =>
    obtain ⟨rfl,hturn⟩ := turn_talk f cfg dst inp x _ i j base chunk c v h hf hv
    rcases tracks_flow client f.may _ _ v c h.tracks hf with hk | ⟨op,res,hp,hall,hk⟩
    · exact .asking j base c (hturn c hk) ha hacc
    · have hok := hacc.resolve_right (by simp [hp])
      exact .asking j base _ (hturn _ hk)
        (ClientSocks5Run.asking_next f _ _ _ hok c op res ha hp hall) (.inl hok)
  | reading i base c h hr =>
    obtain ⟨rfl,hturn⟩ := turn_talk f cfg dst inp x _ i j base chunk c v h hf hv
    rcases tracks_flow client f.may _ _ v c h.tracks hf with hk | ⟨op,res,hp,hall,hk⟩
    · exact .reading j base c (hturn c hk) hr
    · exact .reading j base _ (hturn _ hk)
        (ClientSocks5Run.reading_next f _ _ _ _ c op res hr hp hall)
  | failed cr hcr hp he hq => exact absurd (hq j) hact
  | finished hs hp he hq => exact absurd (hq j) hact

/-- The hop reports on its request: it was written, or the chain has failed. -/
theorem asked_next (f : Faults) (cfg : OutputConfig) (dst : Destination) (x : Chain) (i : ℕ)
    (base : Bytes) (c : ClientState) (err : ErrorCode)
    (h : Turn cfg dst x (request cfg dst i) i base c)
    (ha : ClientSocks5Run.Asking f (hopCreds cfg i) (target cfg dst i) {} c)
    (he : (x.talks i).events.getLast? = some (.call .writeReq err)) :
    Phase f cfg dst (x.resume (request cfg dst i)
      { err := err, connResp := (x.talks i).obj.connResp }) := by
  rw [h.tracks.events] at he
  have hopen : ∀ op t u, At c [op] t u [] → False := by
    intro op t u hat
    simp [hat.events] at he
  cases ha with
  | greet hw hat => exact (hopen _ _ _ hat).elim
  | method hw hat => exact (hopen _ _ _ hat).elim
  | credentials hc hw hat => exact (hopen _ _ _ hat).elim
  | status hc hw hat => exact (hopen _ _ _ hat).elim
  | request hw hat => exact (hopen _ _ _ hat).elim
  | written hr hresp hat =>
    obtain rfl : ErrorCode.noError = err := by simpa [hat.events] using he
    obtain ⟨hidle,-⟩ := tracks_at_idle _ c _ _ _ h.tracks hat
    have hd := ChainWalk.asked_done cfg dst i x.out.obj
      { err := .noError, connResp := (x.talks i).obj.connResp } h.standing ErrorCode.noError_failed
    set r : Output.Outcome := { err := .noError, connResp := (x.talks i).obj.connResp }
    have hobj : output.done (request cfg dst i) r x.out.obj =
        (x.out.obj,[.start (.readConnectResponse i i)]) := hd
    have htalks : (x.resume (request cfg dst i) r).talks = Function.update x.talks i
        ((x.talks i).invoke (readConnectResponse (x.talks i).obj)) := by
      simp [Chain.resume, hd, call]
    obtain ⟨-,hk⟩ := tracks_invoke (x.talks i) c readConnectResponse
      ClientSocks5Soundness.readConnectResponse_single h.tracks hidle
    have hread := ClientSocks5Run.reading_invoke f _ _ _ c hr.1 hr.2 hat
    rw [hresp] at hread
    refine .reading i base _ ⟨h.lower,?_,?_,?_,h.spoken,?_,?_,?_,?_⟩ hread
    · simpa [Chain.resume, Conf.next, hobj] using h.standing
    · simp [Chain.resume, Conf.next, hobj]
    · simp [Chain.resume, Conf.next, hobj, h.events]
    · rw [htalks, Function.update_self]
      exact h.taken
    · rw [htalks, Function.update_self]
      exact hk
    · intro j hj
      rw [htalks, Function.update_of_ne (Nat.ne_of_lt hj)]
      exact h.apart.past j hj
    · intro j hj
      rw [htalks, Function.update_of_ne (Nat.ne_of_gt hj)]
      exact h.apart.ahead j hj
  | refused err' t u herr ho hresp why hat =>
    obtain rfl : err' = err := by simpa [hat.events] using he
    obtain ⟨hidle,-⟩ := tracks_at_idle _ c _ _ _ h.tracks hat
    exact fail_next f cfg dst x _ _ x.out.obj ⟨false,err',i,{}⟩ h.events
      (silent_apart cfg x i h.apart hidle) h.standing.handler rfl (if_pos herr)

/-- The hop reports on the response, which it has taken in full. -/
theorem read_next (f : Faults) (cfg : OutputConfig) (dst : Destination) (x : Chain) (i : ℕ)
    (base : Bytes) (c : ClientState) (err : ErrorCode)
    (h : Turn cfg dst x (.readConnectResponse i i) i base c)
    (hr : ClientSocks5Run.Reading f {} (authAnswer (hopCreds cfg i))
      (preamble (hopCreds cfg i) ++ connectRequest (target cfg dst i))
      [.call .writeReq .noError] c)
    (he : (x.talks i).events.getLast? = some (.call .readResp err)) :
    Phase f cfg dst (x.resume (.readConnectResponse i i)
      { err := err, connResp := (x.talks i).obj.connResp }) := by
  rw [h.tracks.events] at he
  have hopen : ∀ op t u, At c [op] t u [.call .writeReq .noError] → False := by
    intro op t u hat
    simp [hat.events] at he
  cases hr with
  | header hr hat => exact (hopen _ _ _ hat).elim
  | length rep rsv hrep hr hh hat => exact (hopen _ _ _ hat).elim
  | address rep rsv atyp pre n k hrep hk hf hr hh hat => exact (hopen _ _ _ hat).elim
  | answered rep m hm hresp hat =>
    obtain rfl : ErrorCode.noError = err := by simpa [hat.events] using he
    obtain ⟨hidle,htk,-⟩ := tracks_at_idle _ c _ _ _ h.tracks hat
    have hsilent := silent_apart cfg x i h.apart hidle
    have hd := ChainWalk.answered_done i i x.out.obj
      { err := .noError, connResp := (x.talks i).obj.connResp } ErrorCode.noError_failed
    by_cases hmajor : (x.talks i).obj.connResp.major = .succeeded
    · rw [if_pos hmajor] at hd
      have hrep : rep = 0 := by
        rw [h.tracks.obj, hresp] at hmajor
        exact (ClientSocks5Soundness.socks5RepToMajorCode_succeeded rep).mp hmajor
      subst hrep
      have hsp : Spoken cfg (i+1) x.taken := by
        rw [h.taken, htk]
        exact .hop i base m h.spoken hm
      have hfits : hops cfg < 2^64 := cfg.fits
      apply hop_next f cfg dst x _ _ (i+1) _ _ .noError h.events
        (ChainWalk.behind_standing cfg dst i x.out.obj _ h.standing h.lower)
        ErrorCode.noError_failed h.lower _ hsp (fun j _ => hsilent j)
        (fun j hj => h.apart.ahead j hj) hd
      intro hlt
      exact Nat.mod_eq_of_lt (by omega)
    · rw [if_neg hmajor] at hd
      exact fail_next f cfg dst x _ _ { x.out.obj with connResp := (x.talks i).obj.connResp }
        ⟨false,.noError,i,(x.talks i).obj.connResp⟩ h.events hsilent h.standing.handler rfl hd
  | failed err' t herr hresp why hat =>
    obtain rfl : err' = err := by simpa [hat.events] using he
    obtain ⟨hidle,-⟩ := tracks_at_idle _ c _ _ _ h.tracks hat
    apply fail_next f cfg dst x _ _ x.out.obj ⟨false,err',i,{}⟩ h.events
      (silent_apart cfg x i h.apart hidle) h.standing.handler rfl
    change Output.handleReadConnectResponse (if err'.failed then _ else _) err' i = _
    rw [if_pos herr, Output.handleReadConnectResponse, if_pos herr]

theorem phase_next (f : Faults) (cfg : OutputConfig) (dst : Destination) (inp : Bytes)
    (x y : Chain) (h : Phase f cfg dst x) (ht : Step f inp x y) : Phase f cfg dst y := by
  cases ht with
  | connect op res hp hop =>
    cases h with
    | connecting op' hop' hs hp' he ht hq =>
      obtain rfl := List.singleton_inj.mp (hp.symm.trans hp')
      exact connect_next f cfg dst x op res hop' hs he ht hq
    | asking i base c h ha hacc =>
      obtain rfl := List.singleton_inj.mp (hp.symm.trans h.pending)
      exact absurd (.writeReq i _ i) (hop _)
    | reading i base c h hr =>
      obtain rfl := List.singleton_inj.mp (hp.symm.trans h.pending)
      exact absurd (.readResp i i) (hop _)
    | failed cr hcr hp' he hq => exact absurd (hp.symm.trans hp') (by simp)
    | finished hs hp' he hq => exact absurd (hp.symm.trans hp') (by simp)
  | talk j v chunk hf hv => exact talk_next f cfg dst inp x j v chunk h hf hv
  | report op hd err hp hop he =>
    cases h with
    | connecting op' hop' hs hp' _ ht hq =>
      obtain rfl := List.singleton_inj.mp (hp.symm.trans hp')
      obtain rfl | ⟨a,rfl⟩ := hop'
      · cases hop
      · cases hop
    | asking i base c h ha hacc =>
      obtain rfl := List.singleton_inj.mp (hp.symm.trans h.pending)
      cases hop with
      | writeReq => exact asked_next f cfg dst x i base c err h ha he
    | reading i base c h hr =>
      obtain rfl := List.singleton_inj.mp (hp.symm.trans h.pending)
      cases hop with
      | readResp => exact read_next f cfg dst x i base c err h hr he
    | failed cr hcr hp' _ hq => exact absurd (hp.symm.trans hp') (by simp)
    | finished hs hp' _ hq => exact absurd (hp.symm.trans hp') (by simp)

theorem run_phase (f : Faults) (cfg : OutputConfig) (dst : Destination) (inp : Bytes) (x : Chain)
    (h : Run (Step f inp) (start cfg dst) x) : Phase f cfg dst x :=
  run_invariant (Phase f cfg dst) (fun x y => phase_next f cfg dst inp x y) h
    (phase_begun f cfg dst)

theorem step_taken (f : Faults) (inp : Bytes) (x y : Chain) (h : Step f inp x y)
    (hx : x.taken <+: inp) : y.taken <+: inp := by
  cases h with
  | connect op res hp hop => exact hx
  | report op h err hp hop he => exact hx
  | talk i v chunk hf hv =>
    have hpre := flow_taken client f.may _ _ v hf (List.prefix_append _ _)
    rw [hv, List.prefix_append_right_inj] at hpre
    obtain ⟨rest,rfl⟩ := hx
    rw [List.drop_left] at hpre
    exact (List.prefix_append_right_inj x.taken).mpr hpre

theorem run_taken (f : Faults) (cfg : OutputConfig) (dst : Destination) (inp : Bytes) (x : Chain)
    (h : Run (Step f inp) (start cfg dst) x) : x.taken <+: inp :=
  run_invariant (fun x => x.taken <+: inp) (fun x y hx ht => step_taken f inp x y ht hx) h
    List.nil_prefix

end ProxySwiss.ChainDialogue
