import ProxySwiss.InetPton

/-!
# The loop over an IPv6 address

The texts for which the loop returns, described without the automaton. What
decides is only whether the text carries a scope identifier: no round at its
end changes the state, takes a character or returns.
-/

set_option autoImplicit false

namespace ProxySwiss.InetPton
open Memory Text

def numeral (digit : UInt8 → Option ℕ) (base : ℕ) : ℕ → Bytes → Option ℕ
  | v, [] => some v
  | v, c::cs => match digit c with
    | some d => numeral digit base (v*base+d) cs
    | none => none

/-- A number of sixteen bits in the given digits, continued from `v`. -/
def Fits (digit : UInt8 → Option ℕ) (base v : ℕ) (text : Bytes) : Prop :=
  ∃ n, numeral digit base v text = some n ∧ n ≤ 0xffff

/-- The fields with a colon between each two. -/
def joined : List Bytes → Bytes
  | [] => []
  | [f] => f
  | f::g::fs => f ++ 0x3a::joined (g::fs)

/-- A percent sign and a number behind up to eight groups of hexadecimal
digits; one more group may be there if it is empty and neither the first nor
the last. -/
def Scoped (text : Bytes) : Prop :=
  ∃ fields id, text = joined fields ++ 0x25::id ∧ fields ≠ [] ∧
    (∀ f ∈ fields, Fits hexDigit 16 0 f) ∧ Fits decDigit 10 0 id ∧
    (fields.length ≤ 8 ∨ fields.length = 9 ∧ [] ∈ fields.tail.dropLast)

theorem numeral_le (digit : UInt8 → Option ℕ) (base v n : ℕ) (text : Bytes) (hb : 1 ≤ base)
    (h : numeral digit base v text = some n) : v ≤ n := by
  induction text generalizing v with
  | nil => exact Nat.le_of_eq (Option.some.inj h)
  | cons c cs ih =>
    rw [numeral] at h
    split at h
    · exact Nat.le_trans (Nat.le_mul_of_pos_right v hb)
        (Nat.le_trans (Nat.le_add_right _ _) (ih _ h))
    · exact absurd h (by simp)

theorem fits_large (digit : UInt8 → Option ℕ) (base v : ℕ) (text : Bytes) (hb : 1 ≤ base)
    (hv : 0xffff < v) : ¬ Fits digit base v text := by
  rintro ⟨n,h,hn⟩
  exact absurd (numeral_le digit base v n text hb h) (by omega)

theorem fits_nil (digit : UInt8 → Option ℕ) (base v : ℕ) (hv : v ≤ 0xffff) :
    Fits digit base v [] := ⟨v,rfl,hv⟩

theorem fits_cons (digit : UInt8 → Option ℕ) (base v d : ℕ) (c : UInt8) (cs : Bytes)
    (hd : digit c = some d) : Fits digit base v (c::cs) ↔ Fits digit base (v*base+d) cs := by
  simp [Fits, numeral, hd]

theorem fits_none (digit : UInt8 → Option ℕ) (base v : ℕ) (c : UInt8) (cs : Bytes)
    (hd : digit c = none) : ¬ Fits digit base v (c::cs) := by
  simp [Fits, numeral, hd]

theorem hexDigit_colon : hexDigit 0x3a = none := rfl
theorem hexDigit_percent : hexDigit 0x25 = none := rfl

theorem round_large (s : Scan) (hst : s.state ≠ .done) (hw : 0xffff < s.currentWord) :
    round s = .inr none := by
  simp [round, hst, hw]

theorem done_returns (s : Scan) (hst : s.state = .done) : ¬ Loop.Diverges round s :=
  Loop.diverges_return round s (some (result s)) (by simp [round, hst])

/-- A scope identifier is never left once its number is complete. -/
theorem scope_diverges (p : Bytes) (s : Scan) (hst : s.state = .scope) (hp : s.p = p) :
    Loop.Diverges round s ↔ Fits decDigit 10 s.currentWord p := by
  induction p generalizing s with
  | nil =>
    by_cases hw : s.currentWord ≤ 0xffff
    · have hround : round s = .inl s := by simp [round, hst, hp, Nat.not_lt.mpr hw]
      exact ⟨fun _ => fits_nil _ _ _ hw,fun _ => Loop.diverges_stuck round s hround⟩
    · have hround := round_large s (by simp [hst]) (by omega)
      exact ⟨fun h => absurd h (Loop.diverges_return round s _ hround),
        fun h => absurd h (fits_large _ _ _ _ (by decide) (by omega))⟩
  | cons c cs ih =>
    by_cases hw : s.currentWord ≤ 0xffff
    · cases hd : decDigit c with
      | some d =>
        have hround : round s = .inl { s with currentWord := s.currentWord*10+d, p := cs } := by
          simp [round, hst, hp, hd, Nat.not_lt.mpr hw]
        rw [Loop.diverges_round round s _ hround, ih { s with
          currentWord := s.currentWord*10+d, p := cs } hst rfl, fits_cons _ _ _ d c cs hd]
      | none =>
        have hround : round s = .inr none := by
          simp [round, hst, hp, hd, Nat.not_lt.mpr hw]
        exact ⟨fun h => absurd h (Loop.diverges_return round s _ hround),
          fun h => absurd h (fits_none _ _ _ c cs hd)⟩
    · have hround := round_large s (by simp [hst]) (by omega)
      exact ⟨fun h => absurd h (Loop.diverges_return round s _ hround),
        fun h => absurd h (fits_large _ _ _ _ (by decide) (by omega))⟩

/-- A word continued from `v`, and what has to follow it: `K` describes the
texts behind a colon, and `n` words have been stored before. -/
def Ends (n : ℕ) (K : Bytes → Prop) (v : ℕ) (p : Bytes) : Prop :=
  ∃ f rest, p = f ++ rest ∧ Fits hexDigit 16 v f ∧ n < 8 ∧
    ((∃ cs, rest = 0x3a::cs ∧ K cs) ∨ ∃ id, rest = 0x25::id ∧ Fits decDigit 10 0 id)

theorem ends_large (n : ℕ) (K : Bytes → Prop) (v : ℕ) (p : Bytes) (hv : 0xffff < v) :
    ¬ Ends n K v p := by
  rintro ⟨f,rest,-,hf,-⟩
  exact fits_large _ _ _ _ (by decide) hv hf

theorem ends_nil (n : ℕ) (K : Bytes → Prop) (v : ℕ) : ¬ Ends n K v [] := by
  rintro ⟨f,rest,h,-,-,⟨cs,rfl,-⟩ | ⟨id,rfl,-⟩⟩ <;> simp at h

theorem ends_digit (n : ℕ) (K : Bytes → Prop) (v d : ℕ) (c : UInt8) (cs : Bytes)
    (hd : hexDigit c = some d) : Ends n K v (c::cs) ↔ Ends n K (v*16+d) cs := by
  constructor
  · rintro ⟨f,rest,h,hf,hn,hrest⟩
    cases f with
    | nil =>
      -- neither a colon nor a percent sign is a digit
      rcases hrest with ⟨x,rfl,-⟩ | ⟨x,rfl,-⟩
      · simp [(List.cons.inj h).1, hexDigit_colon] at hd
      · simp [(List.cons.inj h).1, hexDigit_percent] at hd
    | cons x f =>
      obtain ⟨rfl,rfl⟩ := List.cons.inj h
      exact ⟨f,rest,rfl,(fits_cons _ _ _ d c f hd).mp hf,hn,hrest⟩
  · rintro ⟨f,rest,rfl,hf,hn,hrest⟩
    exact ⟨c::f,rest,rfl,(fits_cons _ _ _ d c f hd).mpr hf,hn,hrest⟩

theorem ends_other (n : ℕ) (K : Bytes → Prop) (v : ℕ) (c : UInt8) (cs : Bytes)
    (hv : v ≤ 0xffff) (hd : hexDigit c = none) :
    Ends n K v (c::cs) ↔ n < 8 ∧ (c = 0x3a ∧ K cs ∨ c = 0x25 ∧ Fits decDigit 10 0 cs) := by
  constructor
  · rintro ⟨f,rest,h,hf,hn,hrest⟩
    cases f with
    | nil =>
      rcases hrest with ⟨x,rfl,hx⟩ | ⟨x,rfl,hx⟩
      · obtain ⟨rfl,rfl⟩ := List.cons.inj h
        exact ⟨hn,.inl ⟨rfl,hx⟩⟩
      · obtain ⟨rfl,rfl⟩ := List.cons.inj h
        exact ⟨hn,.inr ⟨rfl,hx⟩⟩
    | cons x f =>
      obtain ⟨rfl,rfl⟩ := List.cons.inj h
      exact absurd hf (fits_none _ _ _ c f hd)
  · rintro ⟨hn,⟨rfl,hx⟩ | ⟨rfl,hx⟩⟩
    · exact ⟨[],_,rfl,fits_nil _ _ _ hv,hn,.inl ⟨cs,rfl,hx⟩⟩
    · exact ⟨[],_,rfl,fits_nil _ _ _ hv,hn,.inr ⟨cs,rfl,hx⟩⟩

/-- The loop in a word, for either of the two states and its way to store it. -/
theorem word_diverges (push : Scan → Option Scan) (st colon : State) (n : ℕ) (I : Scan → Prop)
    (K : Bytes → Prop) (hdone : st ≠ .done)
    (hround : ∀ s, s.state = st → s.currentWord ≤ 0xffff → round s = word push colon s)
    (hkeep : ∀ s v p, I s → I { s with currentWord := v, p := p })
    (hfull : 8 ≤ n → ∀ s, I s → push s = none)
    (hpush : n < 8 → ∀ s, I s → ∃ t, push s = some t ∧ t.currentWord = 0 ∧
      ∀ cs, Loop.Diverges round { t with state := colon, p := cs } ↔ K cs)
    (p : Bytes) (s : Scan) (hst : s.state = st) (hp : s.p = p) (hs : I s) :
    Loop.Diverges round s ↔ Ends n K s.currentWord p := by
  induction p generalizing s with
  | nil =>
    refine ⟨fun h => ?_,fun h => absurd h (ends_nil _ _ _)⟩
    by_cases hw : s.currentWord ≤ 0xffff
    · cases hq : push s with
      | none =>
        have hr : round s = .inr none := by simp [hround s hst hw, word, hp, hq]
        exact absurd h (Loop.diverges_return round s none hr)
      | some t =>
        have hr : round s = .inl { t with state := .done } := by
          simp [hround s hst hw, word, hp, hq]
        rw [Loop.diverges_round round s _ hr] at h
        exact absurd h (done_returns _ rfl)
    · have hr := round_large s (hst ▸ hdone) (by omega)
      exact absurd h (Loop.diverges_return round s none hr)
  | cons c cs ih =>
    by_cases hw : s.currentWord ≤ 0xffff
    · cases hd : hexDigit c with
      | some d =>
        have hr : round s = .inl { s with currentWord := s.currentWord*16+d, p := cs } := by
          simp [hround s hst hw, word, hp, hd]
        rw [Loop.diverges_round round s _ hr, ends_digit _ _ _ d c cs hd]
        exact ih _ hst rfl (hkeep s _ _ hs)
      | none =>
        rw [ends_other _ _ _ c cs hw hd]
        by_cases hn : n < 8
        · obtain ⟨t,hq,h0,hK⟩ := hpush hn s hs
          have hr : round s = if c = 0x3a then .inl { t with state := colon, p := cs }
              else if c = 0x25 then .inl { t with state := .scope, p := cs } else .inr none := by
            simp [hround s hst hw, word, hp, hd, hq]
          split_ifs at hr with hc hc'
          · rw [Loop.diverges_round round s _ hr, hK]
            simp [hn, hc]
          · rw [Loop.diverges_round round s _ hr, scope_diverges cs _ rfl rfl]
            simp [hn, hc', h0]
          · simp [Loop.diverges_return round s none hr, hc, hc']
        · have hr : round s = .inr none := by
            simp [hround s hst hw, word, hp, hd, hfull (by omega) s hs]
          simp [Loop.diverges_return round s none hr, hn]
    · have hr := round_large s (hst ▸ hdone) (by omega)
      exact ⟨fun h => absurd h (Loop.diverges_return round s none hr),
        fun h => absurd h (ends_large _ _ _ _ (by omega))⟩

/-- Groups behind the gap, at most `m` of them. -/
def Back (m : ℕ) (p : Bytes) : Prop :=
  ∃ f fs id, p = joined (f::fs) ++ 0x25::id ∧ (∀ g ∈ f::fs, Fits hexDigit 16 0 g) ∧
    Fits decDigit 10 0 id ∧ (f::fs).length ≤ m

/-- The number of groups that are stored when a gap may still come. -/
def need : List Bytes → ℕ
  | [] => 0
  | [_] => 1
  | _::[]::g::gs => 1+(g::gs).length
  | _::g::gs => 1+need (g::gs)

def Front (m : ℕ) (p : Bytes) : Prop :=
  ∃ f fs id, p = joined (f::fs) ++ 0x25::id ∧ (∀ g ∈ f::fs, Fits hexDigit 16 0 g) ∧
    Fits decDigit 10 0 id ∧ need (f::fs) ≤ m

theorem ends_back (n m : ℕ) (h : n+(m+1) = 8) (p : Bytes) :
    Ends n (Back m) 0 p ↔ Back (m+1) p := by
  constructor
  · rintro ⟨f,rest,rfl,hf,-,⟨cs,rfl,g,gs,id,rfl,hgs,hid,hlen⟩ | ⟨id,rfl,hid⟩⟩
    · refine ⟨f,g::gs,id,by simp [joined],?_,hid,by simpa using hlen⟩
      exact List.forall_mem_cons.mpr ⟨hf,hgs⟩
    · exact ⟨f,[],id,rfl,by simpa using hf,hid,by simp⟩
  · rintro ⟨f,fs,id,rfl,hfs,hid,hlen⟩
    have hf := hfs f (by simp)
    cases fs with
    | nil => exact ⟨f,_,rfl,hf,by omega,.inr ⟨id,rfl,hid⟩⟩
    | cons g gs =>
      refine ⟨f,0x3a::(joined (g::gs) ++ 0x25::id),by simp [joined],hf,by omega,.inl ⟨_,rfl,?_⟩⟩
      exact ⟨g,gs,id,rfl,fun x hx => hfs x (by simp [hx]),hid,by simpa using hlen⟩

theorem bword_ends (n : ℕ) (K : Bytes → Prop)
    (hK : n < 8 → ∀ s, s.state = .bword → s.currentWord = 0 →
      s.front.length+s.back.length = 2*(n+1) → (Loop.Diverges round s ↔ K s.p))
    (s : Scan) (hst : s.state = .bword) (hs : s.front.length+s.back.length = 2*n) (hn : n ≤ 8) :
    Loop.Diverges round s ↔ Ends n K s.currentWord s.p := by
  apply word_diverges pushBack .bword .bword n (fun s => s.front.length+s.back.length = 2*n) K
    (by decide) ?_ (fun _ _ _ hs => hs) ?_ ?_ s.p s hst rfl hs
  · intro s hst hw
    simp [round, hst, Nat.not_lt.mpr hw]
  · intro hfull s hs
    exact if_pos (by omega)
  · intro hlt s hs
    refine ⟨_,if_neg (by omega),rfl,fun cs => hK hlt _ rfl rfl ?_⟩
    simp only [wordBytes, List.length_append, List.length_cons, List.length_nil]
    omega

theorem bword_diverges (m n : ℕ) (h : n+m = 8) (s : Scan) (hst : s.state = .bword)
    (hw : s.currentWord = 0) (hs : s.front.length+s.back.length = 2*n) :
    Loop.Diverges round s ↔ Back m s.p := by
  induction m generalizing n s with
  | zero =>
    rw [bword_ends n (fun _ => False) (fun hn => by omega) s hst hs (by omega)]
    constructor
    · rintro ⟨f,rest,-,-,hn,-⟩
      omega
    · rintro ⟨f,fs,id,-,-,-,hlen⟩
      simp at hlen
  | succ m ih =>
    rw [bword_ends n (Back m) ?_ s hst hs (by omega), hw, ends_back n m h]
    intro hn s hst hw hs
    exact ih (n+1) (by omega) s hst hw hs

/-- What may stand behind a colon that follows a group in front of the gap. -/
def AfterColon (m : ℕ) (p : Bytes) : Prop :=
  (∃ cs, p = 0x3a::cs ∧ Back m cs) ∨ (¬ [0x3a] <+: p ∧ Front m p)

theorem fcolon_diverges (m n : ℕ) (h : n+m = 8)
    (hfront : ∀ s, s.state = .fword → s.currentWord = 0 → s.front.length = 2*n → s.back = [] →
      (Loop.Diverges round s ↔ Front m s.p))
    (s : Scan) (hst : s.state = .fcolon) (hw : s.currentWord = 0) (hs : s.front.length = 2*n)
    (hb : s.back = []) : Loop.Diverges round s ↔ AfterColon m s.p := by
  by_cases hc : [0x3a] <+: s.p
  · obtain ⟨cs,hcs⟩ := hc
    have hr : round s = .inl { s with state := .bword, p := cs } := by
      simp [round, hst, hw, ← hcs]
    rw [Loop.diverges_round round s _ hr,
      bword_diverges m n h { s with state := .bword, p := cs } rfl hw (by simp [hb, hs])]
    simp [AfterColon, ← hcs]
  · have hr : round s = .inl { s with state := .fword } := by
      match hp : s.p with
      | [] => simp [round, hst, hw, hp]
      | c::cs =>
        have hne : c ≠ 0x3a := by
          rintro rfl
          exact hc (by simp [hp])
        simp [round, hst, hw, hp, hne]
    rw [Loop.diverges_round round s _ hr, hfront { s with state := .fword } rfl hw hs hb]
    simp only [AfterColon, hc, not_false_eq_true, true_and]
    refine ⟨.inr,?_⟩
    rintro (⟨cs,hcs,-⟩ | hf)
    · exact absurd (by simp [hcs]) hc
    · exact hf

theorem fword_ends (n : ℕ) (K : Bytes → Prop)
    (hK : n < 8 → ∀ s, s.state = .fcolon → s.currentWord = 0 → s.front.length = 2*(n+1) →
      s.back = [] → (Loop.Diverges round s ↔ K s.p))
    (s : Scan) (hst : s.state = .fword) (hs : s.front.length = 2*n) (hb : s.back = [])
    (hn : n ≤ 8) : Loop.Diverges round s ↔ Ends n K s.currentWord s.p := by
  apply word_diverges pushFront .fword .fcolon n (fun s => s.front.length = 2*n ∧ s.back = []) K
    (by decide) ?_ (fun _ _ _ hs => hs) ?_ ?_ s.p s hst rfl ⟨hs,hb⟩
  · intro s hst hw
    simp [round, hst, Nat.not_lt.mpr hw]
  · intro hfull s hs
    exact if_pos (by omega)
  · intro hlt s hs
    refine ⟨_,if_neg (by omega),rfl,fun cs => hK hlt _ rfl rfl ?_ hs.2⟩
    simp only [wordBytes, List.length_append, List.length_cons, List.length_nil]
    omega

theorem colon_joined (g : Bytes) (gs : List Bytes) (id : Bytes)
    (hg : Fits hexDigit 16 0 g) :
    [0x3a] <+: joined (g::gs) ++ 0x25::id ↔ g = [] ∧ gs ≠ [] := by
  cases g with
  | nil => cases gs <;> simp [joined]
  | cons c cs =>
    have hc : c ≠ 0x3a := by
      rintro rfl
      exact fits_none _ _ _ _ _ hexDigit_colon hg
    cases gs <;> simp [joined, hc.symm]

theorem need_next (f g : Bytes) (gs : List Bytes) (h : ¬ (g = [] ∧ gs ≠ [])) :
    need (f::g::gs) = 1+need (g::gs) := by
  cases g with
  | nil =>
    cases gs with
    | nil => rfl
    | cons x xs => simp at h
  | cons c cs => rfl

theorem ends_front (n m : ℕ) (h : n+(m+1) = 8) (p : Bytes) :
    Ends n (AfterColon m) 0 p ↔ Front (m+1) p := by
  constructor
  · rintro ⟨f,rest,rfl,hf,-,⟨cs,rfl,⟨cs,rfl,hback⟩ | ⟨hno,hfront⟩⟩ | ⟨id,rfl,hid⟩⟩
    · obtain ⟨g,gs,id,rfl,hgs,hid,hlen⟩ := hback
      refine ⟨f,[]::g::gs,id,by simp [joined],?_,hid,?_⟩
      · exact List.forall_mem_cons.mpr ⟨hf,List.forall_mem_cons.mpr
          ⟨fits_nil _ _ _ (by decide),hgs⟩⟩
      · simp only [need]
        omega
    · obtain ⟨g,gs,id,rfl,hgs,hid,hlen⟩ := hfront
      refine ⟨f,g::gs,id,by simp [joined],List.forall_mem_cons.mpr ⟨hf,hgs⟩,hid,?_⟩
      rw [colon_joined g gs id (hgs g (by simp))] at hno
      rw [need_next f g gs hno]
      omega
    · exact ⟨f,[],id,rfl,by simpa using hf,hid,by simp [need]⟩
  · rintro ⟨f,fs,id,rfl,hfs,hid,hlen⟩
    have hf := hfs f (by simp)
    cases fs with
    | nil => exact ⟨f,_,rfl,hf,by omega,.inr ⟨id,rfl,hid⟩⟩
    | cons g gs =>
      have hgs : ∀ x ∈ g::gs, Fits hexDigit 16 0 x := fun x hx => hfs x (by simp [hx])
      refine ⟨f,0x3a::(joined (g::gs) ++ 0x25::id),by simp [joined],hf,by omega,.inl ⟨_,rfl,?_⟩⟩
      by_cases hgap : g = [] ∧ gs ≠ []
      · obtain ⟨rfl,hne⟩ := hgap
        obtain ⟨x,xs,rfl⟩ := List.exists_cons_of_ne_nil hne
        refine .inl ⟨joined (x::xs) ++ 0x25::id,rfl,x,xs,id,rfl,fun y hy => ?_,hid,?_⟩
        · exact hgs y (by simp [List.mem_cons.mp hy])
        · simp only [need] at hlen
          omega
      · right
        rw [colon_joined g gs id (hgs g (by simp))]
        rw [need_next f g gs hgap] at hlen
        exact ⟨hgap,g,gs,id,rfl,hgs,hid,by omega⟩

theorem fword_diverges (m n : ℕ) (h : n+m = 8) (s : Scan) (hst : s.state = .fword)
    (hw : s.currentWord = 0) (hs : s.front.length = 2*n) (hb : s.back = []) :
    Loop.Diverges round s ↔ Front m s.p := by
  induction m generalizing n s with
  | zero =>
    rw [fword_ends n (fun _ => False) (fun hn => by omega) s hst hs hb (by omega)]
    constructor
    · rintro ⟨f,rest,-,-,hn,-⟩
      omega
    · rintro ⟨f,fs,id,-,-,-,hlen⟩
      unfold need at hlen
      split at hlen <;> simp_all
  | succ m ih =>
    rw [fword_ends n (AfterColon m) ?_ s hst hs hb (by omega), hw, ends_front n m h]
    intro hn s hst hw hs hb
    exact fcolon_diverges m (n+1) (by omega) (fun s hst hw hs hb => ih (n+1) (by omega) s hst hw
      hs hb) s hst hw hs hb

theorem need_eq (f : Bytes) (fs : List Bytes) :
    need (f::fs) = if [] ∈ fs.dropLast then fs.length else fs.length+1 := by
  induction fs generalizing f with
  | nil => rfl
  | cons g gs ih =>
    by_cases hgap : g = [] ∧ gs ≠ []
    · obtain ⟨rfl,hne⟩ := hgap
      obtain ⟨x,xs,rfl⟩ := List.exists_cons_of_ne_nil hne
      simp [need]
      omega
    · rw [need_next f g gs hgap, ih g]
      cases gs with
      | nil => simp
      | cons x xs =>
        have hg : g ≠ [] := fun h => hgap ⟨h,by simp⟩
        simp only [List.dropLast_cons_cons, List.mem_cons, hg.symm, false_or, List.length_cons]
        split_ifs <;> omega

theorem front_scoped (p : Bytes) : Front 8 p ↔ Scoped p := by
  constructor
  · rintro ⟨f,fs,id,rfl,hfs,hid,hlen⟩
    refine ⟨f::fs,id,rfl,by simp,hfs,hid,?_⟩
    rw [need_eq] at hlen
    simp only [List.length_cons, List.tail_cons]
    split_ifs at hlen with h
    · by_cases hle : fs.length+1 ≤ 8
      · exact .inl hle
      · exact .inr ⟨by omega,h⟩
    · exact .inl hlen
  · rintro ⟨fields,id,rfl,hne,hfs,hid,hlen⟩
    obtain ⟨f,fs,rfl⟩ := List.exists_cons_of_ne_nil hne
    refine ⟨f,fs,id,rfl,hfs,hid,?_⟩
    rw [need_eq]
    simp only [List.length_cons, List.tail_cons] at hlen
    rcases hlen with h | ⟨h,hin⟩
    · split_ifs <;> omega
    · rw [if_pos hin]
      omega

/-- The loop over an IPv6 address does not return exactly for the texts with a
scope identifier that it takes in full. -/
theorem inetPton6_returns (src : Bytes) :
    (∃ fuel, (inetPton6 fuel src).isSome) ↔ ¬ Scoped (cstr src) := by
  unfold inetPton6
  rw [Loop.returns_iff, fword_diverges 8 0 rfl _ rfl rfl rfl rfl, front_scoped]

theorem scoped_nil : ¬ Scoped [] := by
  rintro ⟨fields,id,h,-⟩
  simpa using congrArg List.length h

theorem digits_suffix (s : Bytes) (v : ℕ) : (digits s v).2 <:+ s := by
  induction s generalizing v with
  | nil => exact List.suffix_refl _
  | cons c cs ih =>
    rw [digits]
    split
    · exact (ih _).trans (List.suffix_cons c cs)
    · exact List.suffix_refl _

theorem sign_suffix (s : Bytes) : (sign s).2 <:+ s := by
  cases s with
  | nil => exact List.suffix_refl _
  | cons c cs =>
    simp only [sign]
    split_ifs
    · exact List.suffix_cons c cs
    · exact List.suffix_cons c cs
    · exact List.suffix_refl _

theorem scanNumber_suffix (wrapped : Bool → ℕ → ℕ) (s : Bytes) (v : ℕ) (rest : Bytes)
    (h : scanNumber wrapped s = some (v,rest)) : rest <:+ s := by
  have hskip : (sign (s.dropWhile isSpace)).2 <:+ s :=
    (sign_suffix _).trans (List.dropWhile_suffix _)
  simp only [scanNumber] at h
  split at h
  · rename_i c cs heq
    split_ifs at h
    obtain ⟨-,rfl⟩ := Prod.mk.inj (Option.some.inj h)
    rw [heq] at hskip
    exact (digits_suffix (c::cs) 0).trans hskip
  · exact absurd h (by simp)

/-- An address of four numbers has a dot in it. -/
theorem inetPton4_dot (src : Bytes) (a : UInt32) (h : inetPton4 src = some a) :
    0x2e ∈ cstr src := by
  simp only [inetPton4, Option.bind_eq_bind, Option.bind_eq_some_iff, Prod.exists] at h
  obtain ⟨v,rest,hscan,t,hdot,-⟩ := h
  have hin : 0x2e ∈ rest := by
    unfold dot at hdot
    split at hdot
    · split_ifs at hdot with hc
      simp [hc]
    · exact absurd hdot (by simp)
  exact (scanNumber_suffix _ _ _ _ hscan).subset hin

theorem joined_mem (c : UInt8) (fields : List Bytes) (h : c ∈ joined fields) :
    c = 0x3a ∨ ∃ f ∈ fields, c ∈ f := by
  induction fields with
  | nil => simp [joined] at h
  | cons f fs ih =>
    cases fs with
    | nil => exact .inr ⟨f,by simp,by simpa [joined] using h⟩
    | cons g gs =>
      simp only [joined, List.mem_append, List.mem_cons] at h
      rcases h with h | rfl | h
      · exact .inr ⟨f,by simp,h⟩
      · exact .inl rfl
      · rcases ih h with h | ⟨x,hx,hc⟩
        · exact .inl h
        · exact .inr ⟨x,by simp [List.mem_cons.mp hx],hc⟩

theorem fits_mem (digit : UInt8 → Option ℕ) (base v : ℕ) (text : Bytes) (c : UInt8)
    (h : Fits digit base v text) (hc : c ∈ text) : digit c ≠ none := by
  induction text generalizing v with
  | nil => simp at hc
  | cons x xs ih =>
    cases hd : digit x with
    | none => exact absurd h (fits_none _ _ _ x xs hd)
    | some d =>
      rcases List.mem_cons.mp hc with rfl | hc
      · simp [hd]
      · exact ih _ ((fits_cons _ _ _ d x xs hd).mp h) hc

theorem scoped_dot (text : Bytes) (h : Scoped text) : 0x2e ∉ text := by
  obtain ⟨fields,id,rfl,-,hfs,hid,-⟩ := h
  intro hin
  simp only [List.mem_append, List.mem_cons] at hin
  rcases hin with hin | hin | hin
  · rcases joined_mem _ _ hin with hin | ⟨f,hf,hin⟩
    · exact absurd hin (by decide)
    · exact fits_mem _ _ _ f _ (hfs f hf) hin rfl
  · exact absurd hin (by decide)
  · exact fits_mem _ _ _ id _ hid hin rfl

section Strings

variable {T : Type} [CharT T]

/-- The text of a string that the loop is given. -/
def hostText (str : List T) : Bytes := cstr (str.map CharT.toChar)

theorem hostText_wide (str : List T) :
    cstr (((str.map CharT.toWide).takeWhile (· ≠ 0)).map wcharToChar) = hostText str := by
  induction str with
  | nil => rfl
  | cons c cs ih =>
    have hc := CharT.toChar_toWide c
    unfold hostText cstr at ih ⊢
    by_cases h0 : CharT.toWide c = 0
    · -- a wide character that ends the text does so as a narrow one
      have hz : CharT.toChar c = 0 := by rw [← hc, h0]; rfl
      simp [h0, hz]
    · simp only [List.map_cons, List.takeWhile_cons, ne_eq, h0, not_false_eq_true, decide_true,
        if_true, hc]
      rw [← ih]

theorem hostText_strToTstr (s : Bytes) : hostText (strToTstr s : List T) = cstr s := by
  have hmap : (strToTstr s : List T).map CharT.toChar = s := by
    rw [strToTstr, List.map_map]
    exact List.map_id'' CharT.toChar_ofChar s
  rw [hostText, hmap]

theorem fromStringIpv4_returns (str : List T) : ∃ fuel, (fromStringIpv4 fuel str).isSome :=
  ⟨0,rfl⟩

theorem fromStringIpv6_returns (str : List T) :
    (∃ fuel, (fromStringIpv6 fuel str).isSome) ↔ ¬ Scoped (hostText str) := by
  unfold fromStringIpv6
  split_ifs with h
  · subst h
    exact ⟨fun _ => scoped_nil,fun _ => ⟨0,rfl⟩⟩
  · simp only [inetPtonWide, inetPton, Option.isSome_map]
    rw [inetPton6_returns, hostText_wide]

theorem fromStringIpv6_mono (fuel fuel' : ℕ) (s : List T) (r : Option IpAddress)
    (h : fromStringIpv6 fuel s = some r) (hf : fuel ≤ fuel') : fromStringIpv6 fuel' s = some r := by
  unfold fromStringIpv6 inetPtonWide inetPton inetPton6 at h ⊢
  split_ifs at h ⊢ with hs
  · exact h
  · obtain ⟨x,hx,hip⟩ := Option.map_eq_some_iff.mp h
    rw [Loop.eval_mono _ _ _ _ _ hx hf]
    exact congrArg some hip

theorem fromString_returns (str : List T) :
    (∃ fuel, (fromString fuel str).isSome) ↔ ¬ Scoped (hostText str) := by
  rw [← fromStringIpv6_returns]
  cases h4 : inetPton4 (((str.map CharT.toWide).takeWhile (· ≠ 0)).map wcharToChar) with
  | none => simp only [fromString, fromStringIpv4, inetPtonWide, inetPton, h4, Option.map_none]
  | some a =>
    -- an address of four numbers is not handed to the loop, nor would it hang there
    have hdot := inetPton4_dot _ _ h4
    rw [hostText_wide] at hdot
    rw [fromStringIpv6_returns]
    refine ⟨fun _ h => scoped_dot _ h hdot,fun _ => ⟨0,?_⟩⟩
    simp only [fromString, fromStringIpv4, inetPtonWide, inetPton, h4, Option.map_some,
      Option.isSome_some]

end Strings

end ProxySwiss.InetPton
