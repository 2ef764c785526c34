import ProxySwiss.ClientSocks5Soundness

/-!
# The client against a server of the two documents

The documents that the client refers to give the messages of the
username/password sub-negotiation a version octet of their own, which is one.
The client writes five in its place and expects five in the answer. A server
of the documents is described by what it sends, and by no more than the
documents say about that.
-/

set_option autoImplicit false

namespace ProxySwiss.Rfc1929
open Memory TransitionSystem CallbackObject StreamObject Socks5
open ClientSocks5Run (ClientState ClientWire Dialogue Idle start)
open ClientSessionSocks5 (client readConnectResponse writeConnectRequest)

/-- VER, NMETHODS and METHODS, with username/password among them. -/
inductive Greeting : Bytes → Prop
  | mk (nmethods : UInt8) (methods : Bytes) (hn : methods.length = nmethods.toNat)
      (h2 : 2 ∈ methods) : Greeting ([5,nmethods] ++ methods)

/-- VER, ULEN, UNAME, PLEN and PASSWD. -/
def subnegotiation (creds : Credentials) : Bytes :=
  [1,UInt8.ofNat creds.username.length] ++ creds.username ++
    [UInt8.ofNat creds.password.length] ++ creds.password

/-- A server that selects method two and accepts these credentials. `sends t` is
what it sends in all once it has received `t`. -/
structure Server (creds : Credentials) where
  sends : Bytes → Bytes
  mono : ∀ t u, t <+: u → sends t <+: sends u
  waits : ∀ g t, Greeting g → t <+: g → t ≠ g → sends t = []
  selects : ∀ g, Greeting g → sends g = [5,2]
  status : ∀ g t, Greeting g → g <+: t →
    sends t = [5,2] ∨ ∃ st rest, sends t = [5,2] ++ [1,st] ++ rest
  accepts : ∀ g, Greeting g → sends (g ++ subnegotiation creds) = [5,2] ++ [1,0]

/-- The client takes what the server sends for what it has received so far. -/
def Exchange (creds : Credentials) (f : Faults) (srv : Server creds) (w v : ClientWire) : Prop :=
  Dialogue f (srv.sends w.sent) w v

/-- Authentication is complete and without an error, and the server has read the
credentials and a request for the destination. -/
structure Interoperates (creds : Credentials) (dst : Destination) (w : ClientWire) : Prop where
  completed : .call .writeReq .noError ∈ w.events
  decoded : ∃ g, Greeting g ∧ w.sent = g ++ subnegotiation creds ++ connectRequest dst

theorem exchange_dialogue (creds : Credentials) (f : Faults) (srv : Server creds)
    (w v : ClientWire) (h : Run (Exchange creds f srv) w v) :
    Run (Dialogue f (srv.sends v.sent)) w v := by
  induction h with
  | refl => exact .refl
  | tail _ hstep ih =>
    have hs := srv.mono _ _ (served_sent _ _ _ _ _ _ _ hstep)
    exact (Relation.ReflTransGen.mono (fun a b => served_arrived _ _ _ _ _ _ hs a b) _ _ ih).tail
      (served_arrived _ _ _ _ _ _ hs _ _ hstep)

theorem greeting_offers (creds : Credentials) (hc : creds.empty = false) :
    Greeting (greeting creds) := by
  rw [greeting, hc]
  exact .mk 1 [2] rfl (by simp)

/-- In no run is authentication complete, and in no run has the server read
credentials behind the greeting. -/
theorem never_completed (f : Faults) (s : ClientSessionSocks5.Session) (hs : Idle s)
    (hc : s.creds.empty = false) (dst : Destination) (srv : Server s.creds) (w : ClientWire)
    (hr : Run (Exchange s.creds f srv) (start s dst) w) :
    .call .writeReq .noError ∉ w.events ∧
      ∀ g creds, Greeting g → ¬ g ++ subnegotiation creds <+: w.sent := by
  have hd := exchange_dialogue s.creds f srv _ w hr
  have ho := ClientSocks5Soundness.dialogue_outcome f s hs dst _ w hd
  have hpreamble : preamble s.creds = [5,1,2] ++ credsMessage s.creds := by
    simp [preamble, greeting, hc]
  constructor
  · intro hin
    obtain ⟨hsent,hans⟩ := ho.written hin
    have htaken : w.taken <+: srv.sends w.sent := served_taken _ _ _ _ _ _ w hd List.nil_prefix
    have hpre := hans.trans htaken
    have hg : greeting s.creds <+: w.sent := hsent ▸ greeting_preamble s.creds dst
    simp only [authAnswer, hc, Bool.false_eq_true, if_false] at hpre
    rcases srv.status _ _ (greeting_offers s.creds hc) hg with h2 | ⟨st,rest,h4⟩
    · rw [h2] at hpre
      exact absurd hpre.length_le (by simp)
    · rw [h4] at hpre
      simp at hpre
  · intro g creds hg hsub
    have hscript := ClientSocks5Run.ordered_script _ _ _ _ ho.ordered
    have hall := hsub.trans hscript
    rw [hpreamble] at hall
    cases hg with
    | mk n ms hn h2 =>
      have hhead := prefix_agree ([5,n]) [5,1] _
        (List.IsPrefix.trans ⟨ms ++ subnegotiation creds,by simp⟩ hall)
        ⟨2::(credsMessage s.creds ++ connectRequest dst),by simp⟩ rfl
      obtain rfl : n = 1 := by simpa using hhead
      obtain ⟨m,rfl⟩ := List.length_eq_one_iff.mp hn
      simp [subnegotiation, credsMessage] at hall

/-! A server of the documents that does not look at the version it receives. -/

def statusTo (creds : Credentials) (more : Bytes) : Bytes :=
  if (subnegotiation creds).tail <+: more.tail then [1,0] else []

def answerTo (creds : Credentials) : Bytes → Bytes
  | ver::nmethods::rest =>
    if ver = 5 ∧ nmethods.toNat ≤ rest.length then
      if 2 ∈ rest.take nmethods.toNat then [5,2] ++ statusTo creds (rest.drop nmethods.toNat)
      else [5,0xff]
    else []
  | _ => []

theorem statusTo_mono (creds : Credentials) (more x : Bytes) :
    statusTo creds more <+: statusTo creds (more ++ x) := by
  unfold statusTo
  by_cases h : (subnegotiation creds).tail <+: more.tail
  · have hx : (subnegotiation creds).tail <+: (more ++ x).tail := by
      cases more with
      | nil => exact (List.prefix_nil.mp h).symm ▸ List.nil_prefix
      | cons m ms => exact h.trans (List.prefix_append _ _)
    rw [if_pos h, if_pos hx]
  · rw [if_neg h]
    exact List.nil_prefix

theorem answerTo_mono (creds : Credentials) (t u : Bytes) (h : t <+: u) :
    answerTo creds t <+: answerTo creds u := by
  obtain ⟨x,rfl⟩ := h
  match t with
  | [] => exact List.nil_prefix
  | [_] => exact List.nil_prefix
  | ver::nmethods::rest =>
    simp only [List.cons_append, answerTo]
    by_cases hn : ver = 5 ∧ nmethods.toNat ≤ rest.length
    · have hx : ver = 5 ∧ nmethods.toNat ≤ (rest ++ x).length :=
        ⟨hn.1,hn.2.trans (by simp)⟩
      rw [if_pos hn, if_pos hx, List.take_append_of_le_length hn.2,
        List.drop_append_of_le_length hn.2]
      split
      · exact (List.prefix_append_right_inj [5,2]).mpr (statusTo_mono creds _ x)
      · exact List.prefix_refl _
    · rw [if_neg hn]
      exact List.nil_prefix

theorem answerTo_greeting (creds : Credentials) (g x : Bytes) (hg : Greeting g) :
    answerTo creds (g ++ x) = [5,2] ++ statusTo creds x := by
  cases hg with
  | mk n ms hn h2 => simp [answerTo, ← hn, h2]

theorem answerTo_short (creds : Credentials) (g t : Bytes) (hg : Greeting g) (ht : t <+: g)
    (hne : t ≠ g) : answerTo creds t = [] := by
  cases hg with
  | mk n ms hn h2 =>
    match t with
    | [] => rfl
    | [_] => rfl
    | ver::nmethods::rest =>
      simp only [List.cons_append, List.nil_append, List.cons_prefix_cons] at ht
      obtain ⟨rfl,rfl,ht⟩ := ht
      have hlt : rest.length < ms.length := by
        apply Nat.lt_of_le_of_ne ht.length_le
        intro hlen
        apply hne
        obtain rfl := ht.eq_of_length hlen
        rfl
      simp only [answerTo]
      rw [if_neg (by omega)]

def lenient (creds : Credentials) : Server creds where
  sends := answerTo creds
  mono := answerTo_mono creds
  waits g t hg ht hne := answerTo_short creds g t hg ht hne
  selects g hg := by
    have h := answerTo_greeting creds g [] hg
    rw [List.append_nil] at h
    rw [h]
    rfl
  status g t hg ht := by
    obtain ⟨x,rfl⟩ := ht
    rw [answerTo_greeting creds g x hg, statusTo]
    split
    · exact .inr ⟨0,[],rfl⟩
    · exact .inl rfl
  accepts g hg := by
    rw [answerTo_greeting creds g _ hg, statusTo, if_pos (List.prefix_refl _)]

/-- No credentials, destination and server make the client interoperate, whether
or not the socket may fail. -/
theorem never_interoperates (f : Faults) (s : ClientSessionSocks5.Session) (hs : Idle s)
    (hc : s.creds.empty = false) (dst : Destination) (srv : Server s.creds) :
    (∀ w, Run (Exchange s.creds f srv) (start s dst) w →
      .call .writeReq .noError ∉ w.events ∧
      ∀ g creds, Greeting g → ¬ g ++ subnegotiation creds <+: w.sent) ∧
    ¬ Inevitable (Exchange s.creds f srv) (Interoperates s.creds dst) (start s dst) := by
  have hnever := never_completed f s hs hc dst srv
  refine ⟨hnever,fun h => ?_⟩
  obtain ⟨w,hr,hw⟩ := h.reached
  exact (hnever w hr).1 hw.completed

open ClientSocks5Soundness (loginClient loginDst)

theorem never_interoperates_login :
    ¬ Inevitable (Exchange loginClient.creds Faults.any (lenient loginClient.creds))
      (Interoperates loginClient.creds loginDst) (start loginClient loginDst) :=
  (never_interoperates Faults.any loginClient ⟨rfl,rfl,rfl⟩ rfl loginDst _).2

theorem flow_exchange (creds : Credentials) (f : Faults) (srv : Server creds) (inp : Bytes)
    (w v : ClientWire) (h : Run (Flow client f.may inp) w v) (hi : inp <+: srv.sends w.sent) :
    Run (Exchange creds f srv) w v := by
  have hboth : w.sent <+: v.sent ∧ Run (Exchange creds f srv) w v := by
    induction h with
    | refl => exact ⟨List.prefix_refl _,.refl⟩
    | @tail u v _ hstep ih =>
      have hnow := hi.trans (srv.mono _ _ ih.1)
      exact ⟨ih.1.trans (flow_sent client f.may inp u v hstep),
        ih.2.tail (.io u v (flow_arrived client f.may inp _ hnow u v hstep))⟩
  exact hboth.2

def loginOffered : ClientState :=
  play client [.ok [5,1,2]] (Conf.begun (writeConnectRequest loginClient loginDst))

def loginSent : ClientState := play client [.ok [5,2],.ok [5,1,97,1,98]] loginOffered

/-- The server accepts the credentials, and the client takes its answer for a
violation of the protocol. -/
theorem login_violates :
    (∃ w, Run (Exchange loginClient.creds Faults.none (lenient loginClient.creds))
        (start loginClient loginDst) w ∧
      w.taken = [5,2] ++ [1,0] ∧
      w.events = [.call .writeReq (makeErrorCode .protocolViolation)] ∧ w.active = []) ∧
    ¬ Inevitable (Exchange loginClient.creds Faults.none (lenient loginClient.creds))
      (Interoperates loginClient.creds loginDst) (start loginClient loginDst) := by
  constructor
  · obtain ⟨u,hu,hsu⟩ := play_flow client Faults.none.may [] [.ok [5,1,2]]
      (start loginClient loginDst) (Conf.begun (writeConnectRequest loginClient loginDst))
      (settled_begun _) ⟨rfl,trivial⟩ (by decide)
    obtain ⟨v,hv,hsv⟩ := play_flow client Faults.none.may [5,2] [.ok [5,2],.ok [5,1,97,1,98]]
      u loginOffered hsu ⟨rfl,rfl,trivial⟩ (by decide)
    obtain ⟨w,hw,hsw⟩ := play_flow client Faults.none.may [5,2,1,0] [.ok [1,0]] v loginSent hsv
      ⟨rfl,trivial⟩ (by decide)
    refine ⟨w,((flow_exchange _ _ _ [] _ _ hu List.nil_prefix).trans
      (flow_exchange _ _ _ [5,2] _ _ hv ?_)).trans (flow_exchange _ _ _ [5,2,1,0] _ _ hw ?_),
      ?_,?_,?_⟩
    · rw [hsu.sent]
      decide
    · rw [hsv.sent]
      decide
    · rw [hsw.taken]
      decide
    · rw [hsw.events]
      rfl
    · rw [hsw.active]
      rfl
  · intro h
    obtain ⟨w,hr,hw⟩ := h.reached
    exact (never_completed Faults.none loginClient ⟨rfl,rfl,rfl⟩ rfl loginDst _ w hr).1 hw.completed

end ProxySwiss.Rfc1929
