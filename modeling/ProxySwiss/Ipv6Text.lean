import ProxySwiss.InetPtonLoop
import Mathlib.Data.List.Forall2
import Mathlib.Data.List.TakeWhile

/-!
# IPv6 addresses in their text form

Groups of up to four hexadecimal digits with colons between them: eight of
them, or fewer with one gap that stands for the zeros. The loop returns the
address for each such text. A text of an address has no scope identifier, so
that nothing keeps the loop from its end.
-/

set_option autoImplicit false

namespace ProxySwiss.InetPton
open Memory Text

def octets (w : ℕ) : Bytes := [UInt8.ofNat (w / 256),UInt8.ofNat w]

def HexGroup (g : Bytes) (w : ℕ) : Prop :=
  g ≠ [] ∧ g.length ≤ 4 ∧ numeral hexDigit 16 0 g = some w

/-- The text form of the address with the given octets. -/
inductive Ipv6Text : Bytes → Bytes → Prop
  | full (gs : List Bytes) (ws : List ℕ) (hgs : List.Forall₂ HexGroup gs ws)
      (hlen : ws.length = 8) : Ipv6Text (joined gs) (ws.flatMap octets)
  | gap (fs bs : List Bytes) (us vs : List ℕ) (zeros : ℕ) (hfs : List.Forall₂ HexGroup fs us)
      (hbs : List.Forall₂ HexGroup bs vs) (hlen : us.length+zeros+vs.length = 8)
      (hzeros : 0 < zeros) :
      Ipv6Text (joined fs ++ 0x3a::0x3a::joined bs)
        (us.flatMap octets ++ List.replicate (2*zeros) 0 ++ vs.flatMap octets)

/-- A hexadecimal number of sixteen bits, with any number of digits. -/
def HexNumber (g : Bytes) (w : ℕ) : Prop :=
  g ≠ [] ∧ numeral hexDigit 16 0 g = some w ∧ w ≤ 0xffff

/-- The same form with numbers that may begin with zeros. -/
inductive Ipv6Form : Bytes → Bytes → Prop
  | full (gs : List Bytes) (ws : List ℕ) (hgs : List.Forall₂ HexNumber gs ws)
      (hlen : ws.length = 8) : Ipv6Form (joined gs) (ws.flatMap octets)
  | gap (fs bs : List Bytes) (us vs : List ℕ) (zeros : ℕ) (hfs : List.Forall₂ HexNumber fs us)
      (hbs : List.Forall₂ HexNumber bs vs) (hlen : us.length+zeros+vs.length = 8)
      (hzeros : 0 < zeros) :
      Ipv6Form (joined fs ++ 0x3a::0x3a::joined bs)
        (us.flatMap octets ++ List.replicate (2*zeros) 0 ++ vs.flatMap octets)

theorem octets_length (ws : List ℕ) : (ws.flatMap octets).length = 2*ws.length := by
  induction ws with
  | nil => rfl
  | cons w ws ih =>
    rw [List.flatMap_cons, List.length_append, ih, List.length_cons]
    simp only [octets, List.length_cons, List.length_nil]
    omega

theorem numeral_append (digit : UInt8 → Option ℕ) (base v : ℕ) (a b : Bytes) :
    numeral digit base v (a ++ b) = (numeral digit base v a).bind fun n =>
      numeral digit base n b := by
  induction a generalizing v with
  | nil => rfl
  | cons c cs ih =>
    rw [List.cons_append, numeral, numeral]
    cases digit c with
    | none => rfl
    | some d => exact ih _

theorem hexDigit_lt (c : UInt8) (d : ℕ) (h : hexDigit c = some d) : d < 16 := by
  unfold hexDigit at h
  split_ifs at h <;> simp only [Option.some.injEq] at h <;> omega

theorem numeral_lt (g : Bytes) (v w : ℕ) (h : numeral hexDigit 16 v g = some w) :
    w < (v+1)*16^g.length := by
  induction g generalizing v with
  | nil =>
    rw [← Option.some.inj h]
    simp
  | cons c cs ih =>
    rw [numeral] at h
    cases hd : hexDigit c with
    | none => simp [hd] at h
    | some d =>
      have hlt := hexDigit_lt c d hd
      simp only [hd] at h
      calc w < (v*16+d+1)*16^cs.length := ih _ h
        _ ≤ ((v+1)*16)*16^cs.length := Nat.mul_le_mul_right _ (by omega)
        _ = (v+1)*16^(c::cs).length := by
          rw [List.length_cons, Nat.pow_succ, Nat.mul_assoc, Nat.mul_comm 16]

theorem hexGroup_le (g : Bytes) (w : ℕ) (h : HexGroup g w) : w ≤ 0xffff := by
  have hlt := numeral_lt g 0 w h.2.2
  have hpow : 16^g.length ≤ 16^4 := Nat.pow_le_pow_right (by decide) h.2.1
  omega

theorem hexGroup_number (g : Bytes) (w : ℕ) (h : HexGroup g w) : HexNumber g w :=
  ⟨h.1,h.2.2,hexGroup_le g w h⟩

theorem ipv6Text_form (s x : Bytes) (h : Ipv6Text s x) : Ipv6Form s x := by
  have hgroups : ∀ gs ws, List.Forall₂ HexGroup gs ws → List.Forall₂ HexNumber gs ws :=
    fun gs ws => List.Forall₂.imp hexGroup_number
  cases h with
  | full gs ws hgs hlen => exact .full gs ws (hgroups gs ws hgs) hlen
  | gap fs bs us vs zeros hfs hbs hlen hzeros =>
    exact .gap fs bs us vs zeros (hgroups fs us hfs) (hgroups bs vs hbs) hlen hzeros

theorem hexNumber_head (g : Bytes) (w : ℕ) (h : HexNumber g w) :
    ∃ c cs, g = c::cs ∧ c ≠ 0x3a := by
  obtain ⟨c,cs,rfl⟩ := List.exists_cons_of_ne_nil h.1
  refine ⟨c,cs,rfl,?_⟩
  rintro rfl
  simpa [numeral, hexDigit_colon] using h.2.1

/-! One lemma for each way through a round. -/

section Rounds

variable (r : Option (Buffer 16)) (v : ℕ) (p front back : Bytes)

theorem word_digit (st : State) (hst : st = .fword ∨ st = .bword) (c : UInt8) (d : ℕ)
    (hv : v ≤ 0xffff) (hd : hexDigit c = some d)
    (h : Loop.Returns round ⟨st,p,v*16+d,front,back⟩ r) :
    Loop.Returns round ⟨st,c::p,v,front,back⟩ r := by
  rcases hst with rfl | rfl
  · exact Loop.Returns.round _ _ _ _ (by simp [round, word, hd, hv]) h
  · exact Loop.Returns.round _ _ _ _ (by simp [round, word, hd, hv]) h

theorem fword_colon (hv : v ≤ 0xffff) (hfront : front.length ≠ 16)
    (h : Loop.Returns round ⟨.fcolon,p,0,front ++ octets v,back⟩ r) :
    Loop.Returns round ⟨.fword,0x3a::p,v,front,back⟩ r :=
  Loop.Returns.round _ _ _ _
    (by simp [round, word, hexDigit_colon, hv, pushFront, hfront, wordBytes, octets]) h

theorem bword_colon (hv : v ≤ 0xffff) (hback : front.length+back.length ≠ 16)
    (h : Loop.Returns round ⟨.bword,p,0,front,back ++ octets v⟩ r) :
    Loop.Returns round ⟨.bword,0x3a::p,v,front,back⟩ r :=
  Loop.Returns.round _ _ _ _
    (by simp [round, word, hexDigit_colon, hv, pushBack, hback, wordBytes, octets]) h

theorem fcolon_gap (h : Loop.Returns round ⟨.bword,p,0,front,back⟩ r) :
    Loop.Returns round ⟨.fcolon,0x3a::p,0,front,back⟩ r :=
  Loop.Returns.round _ _ _ _ (by simp [round]) h

theorem fcolon_word (hp : ∃ c cs, p = c::cs ∧ c ≠ 0x3a)
    (h : Loop.Returns round ⟨.fword,p,0,front,back⟩ r) :
    Loop.Returns round ⟨.fcolon,p,0,front,back⟩ r := by
  obtain ⟨c,cs,rfl,hc⟩ := hp
  exact Loop.Returns.round _ _ _ _ (by simp [round, hc]) h

theorem done_result :
    Loop.Returns round ⟨.done,p,0,front,back⟩ (some (result ⟨.done,p,0,front,back⟩)) :=
  Loop.Returns.now _ _ _ (by simp [round])

theorem fword_end (hv : v ≤ 0xffff) (hfront : front.length ≠ 16)
    (h : Loop.Returns round ⟨.done,[],0,front ++ octets v,back⟩ r) :
    Loop.Returns round ⟨.fword,[],v,front,back⟩ r :=
  Loop.Returns.round _ _ _ _ (by simp [round, word, hv, pushFront, hfront, wordBytes, octets]) h

theorem bword_end (hv : v ≤ 0xffff) (hback : front.length+back.length ≠ 16)
    (h : Loop.Returns round ⟨.done,[],0,front,back ++ octets v⟩ r) :
    Loop.Returns round ⟨.bword,[],v,front,back⟩ r :=
  Loop.Returns.round _ _ _ _ (by simp [round, word, hv, pushBack, hback, wordBytes, octets]) h

end Rounds

/-- The digits of a group are read one after the other. -/
theorem word_group (r : Option (Buffer 16)) (st : State) (hst : st = .fword ∨ st = .bword)
    (front back rest g : Bytes) (v w : ℕ) (hg : numeral hexDigit 16 v g = some w)
    (hw : w ≤ 0xffff) (h : Loop.Returns round ⟨st,rest,w,front,back⟩ r) :
    Loop.Returns round ⟨st,g ++ rest,v,front,back⟩ r := by
  induction g generalizing v with
  | nil => rwa [Option.some.inj hg]
  | cons c cs ih =>
    have hv := numeral_le _ _ _ _ _ (by decide) hg
    rw [numeral] at hg
    cases hd : hexDigit c with
    | none => simp [hd] at hg
    | some d =>
      simp only [hd] at hg
      exact word_digit r v _ front back st hst c d (by omega) hd (ih _ hg)

/-- The groups behind the gap are stored one behind the other. -/
theorem back_groups (gs : List Bytes) (ws : List ℕ) (front back : Bytes)
    (hgs : List.Forall₂ HexNumber gs ws) (hne : gs ≠ [])
    (hlen : front.length+back.length+2*ws.length ≤ 16) :
    Loop.Returns round ⟨.bword,joined gs,0,front,back⟩
      (some (result ⟨.done,[],0,front,back ++ ws.flatMap octets⟩)) := by
  induction hgs generalizing back with
  | nil => exact absurd rfl hne
  | @cons g w gs ws hg hgs ih =>
    have hle := hg.2.2
    rw [List.length_cons] at hlen
    rw [List.flatMap_cons, ← List.append_assoc]
    cases hgs with
    | nil =>
      have hstep := word_group (some (result ⟨.done,[],0,front,back ++ octets w⟩)) .bword (.inr rfl)
        front back [] g 0 w hg.2.1 hle (bword_end _ w front back hle (by omega) (done_result _ _ _))
      rw [List.append_nil] at hstep
      simpa [joined] using hstep
    | @cons g' w' gs' ws' hg' hgs' =>
      refine word_group _ .bword (.inr rfl) front back _ g 0 w hg.2.1 hle ?_
      refine bword_colon _ w _ front back hle (by omega) ?_
      refine ih (back ++ octets w) (by simp) ?_
      rw [List.length_append]
      simp only [octets, List.length_cons, List.length_nil] at hlen ⊢
      omega

/-- The groups in front are stored up to the last one, and `last` says how the
text goes on behind it. -/
theorem front_groups (r : Option (Buffer 16)) (rest : Bytes) (gs : List Bytes) (ws : List ℕ)
    (front : Bytes) (hgs : List.Forall₂ HexNumber gs ws) (hne : gs ≠ [])
    (hlen : front.length+2*ws.length ≤ 16)
    (last : ∀ w front', w ≤ 0xffff → front'.length+2 = front.length+2*ws.length →
      front' ++ octets w = front ++ ws.flatMap octets →
      Loop.Returns round ⟨.fword,rest,w,front',[]⟩ r) :
    Loop.Returns round ⟨.fword,joined gs ++ rest,0,front,[]⟩ r := by
  induction hgs generalizing front with
  | nil => exact absurd rfl hne
  | @cons g w gs ws hg hgs ih =>
    have hle := hg.2.2
    rw [List.length_cons] at hlen last
    rw [List.flatMap_cons, ← List.append_assoc] at last
    cases hgs with
    | nil =>
      exact word_group _ .fword (.inl rfl) front [] rest g 0 w hg.2.1 hle
        (last w front hle rfl (by simp))
    | @cons g' w' gs' ws' hg' hgs' =>
      have hcat : joined (g::g'::gs') ++ rest = g ++ 0x3a::(joined (g'::gs') ++ rest) := by
        simp [joined]
      rw [hcat]
      refine word_group _ .fword (.inl rfl) front [] _ g 0 w hg.2.1 hle ?_
      refine fword_colon _ w _ front [] hle (by omega) ?_
      have hhead : ∃ c cs, joined (g'::gs') ++ rest = c::cs ∧ c ≠ 0x3a := by
        obtain ⟨c,cs,rfl,hc⟩ := hexNumber_head g' w' hg'
        cases gs' <;> exact ⟨c,_,rfl,hc⟩
      refine fcolon_word _ _ _ _ hhead (ih (front ++ octets w) (by simp) ?_ ?_)
      · simp only [octets, List.length_append, List.length_cons, List.length_nil] at hlen ⊢
        omega
      · intro x front' hx hl hcat
        refine last x front' hx ?_ hcat
        rw [hl]
        simp only [octets, List.length_append, List.length_cons, List.length_nil]
        omega

/-- What is stored in front of the gap: a gap that comes first is stored as a
word of its own. -/
theorem gap_front (r : Option (Buffer 16)) (rest : Bytes) (fs : List Bytes) (us : List ℕ)
    (hfs : List.Forall₂ HexNumber fs us) (hlen : us.length ≤ 7)
    (h : ∀ k, k ≤ 2 → (us ≠ [] → k = 0) →
      Loop.Returns round ⟨.bword,rest,0,us.flatMap octets ++ List.replicate k 0,[]⟩ r) :
    Loop.Returns round ⟨.fword,joined fs ++ 0x3a::0x3a::rest,0,[],[]⟩ r := by
  by_cases hne : fs = []
  · subst hne
    obtain rfl : us = [] := by cases hfs; rfl
    refine fword_colon _ 0 _ [] [] (by decide) (by decide) (fcolon_gap _ _ _ _ ?_)
    exact h 2 (by decide) (by simp)
  · refine front_groups _ _ fs us [] hfs hne (by simp; omega) fun w front' hw hl hcat => ?_
    rw [List.nil_append] at hcat
    rw [List.length_nil] at hl
    refine fword_colon _ w _ front' [] hw (by omega) (fcolon_gap _ _ _ _ ?_)
    rw [hcat]
    simpa using h 0 (by decide) fun _ => rfl

/-- What is stored behind the gap, which counts as a word if it comes last. -/
theorem gap_back (front : Bytes) (bs : List Bytes) (vs : List ℕ)
    (hbs : List.Forall₂ HexNumber bs vs) (hfront : front.length ≤ 14)
    (hlen : front.length+2*vs.length ≤ 16) :
    ∃ k, k ≤ 2 ∧ (vs ≠ [] → k = 0) ∧ Loop.Returns round ⟨.bword,joined bs,0,front,[]⟩
      (some (result ⟨.done,[],0,front,List.replicate k 0 ++ vs.flatMap octets⟩)) := by
  by_cases hne : bs = []
  · subst hne
    obtain rfl : vs = [] := by cases hbs; rfl
    refine ⟨2,by decide,by simp,?_⟩
    exact bword_end _ 0 front [] (by decide) (by simp; omega) (done_result _ _ _)
  · exact ⟨0,by decide,fun _ => rfl,back_groups bs vs front [] hbs hne (by simpa using hlen)⟩

theorem result_bytes (front back : Bytes) (h : front.length+back.length ≤ 16) :
    (result ⟨.done,[],0,front,back⟩).bytes =
      front ++ List.replicate (16-front.length-back.length) 0 ++ back := by
  have hfill : ((default : Buffer 16).fill front).bytes =
      front ++ List.replicate (16-front.length) 0 := by
    rw [Buffer.fill, Buffer.fillAt_bytes _ _ _ (by omega), List.take_zero, List.nil_append,
      Nat.zero_add]
    exact congrArg (front ++ ·) (List.drop_replicate ..)
  unfold result
  rw [Buffer.fillAt_bytes _ _ _ (by simp only; omega)]
  simp only
  rw [hfill, List.drop_of_length_le (by simp; omega), List.append_nil, List.take_append,
    List.take_of_length_le (by omega), List.take_replicate]
  congr 3
  omega

theorem buffer_eq (a b : Buffer 16) (h : a.bytes = b.bytes) : a = b := by
  cases a
  cases b
  simpa using h

/-- The loop takes each text form for its address. -/
theorem ipv6Form_returns (s : Bytes) (a : Buffer 16) (h : Ipv6Form s a.bytes) :
    Loop.Returns round { p := s } (some a) := by
  generalize ha : a.bytes = x at h
  cases h with
  | full gs ws hgs hlen =>
    have hbytes := octets_length ws
    have hne : gs ≠ [] := by
      rintro rfl
      cases hgs
      exact absurd hlen (by decide)
    have hres : result ⟨.done,[],0,ws.flatMap octets,[]⟩ = a := by
      apply buffer_eq
      rw [result_bytes _ _ (by rw [hbytes, List.length_nil]; omega), ha, hbytes, hlen]
      simp
    have hrun := front_groups (some a) [] gs ws [] hgs hne (by simp; omega)
      fun w front' hw hl hcat => by
        rw [List.nil_append] at hcat
        rw [List.length_nil] at hl
        refine fword_end _ w front' [] hw (by omega) ?_
        rw [hcat, ← hres]
        exact done_result _ _ _
    rwa [List.append_nil] at hrun
  | gap fs bs us vs zeros hfs hbs hlen hzeros =>
    have hu := octets_length us
    have hv := octets_length vs
    refine gap_front _ _ fs us hfs (by omega) fun k hk hk0 => ?_
    have hfront : (us.flatMap octets ++ List.replicate k 0).length = 2*us.length+k := by
      rw [List.length_append, hu, List.length_replicate]
    have hk' : us.length = 0 ∨ k = 0 := by
      rcases us with - | ⟨u,us⟩
      · exact .inl rfl
      · exact .inr (hk0 (by simp))
    obtain ⟨m,hm,hm0,hrun⟩ := gap_back (us.flatMap octets ++ List.replicate k 0) bs vs hbs
      (by omega) (by omega)
    have hm' : vs.length = 0 ∨ m = 0 := by
      rcases vs with - | ⟨v,vs⟩
      · exact .inl rfl
      · exact .inr (hm0 (by simp))
    have hback : (List.replicate m 0 ++ vs.flatMap octets).length = m+2*vs.length := by
      rw [List.length_append, hv, List.length_replicate]
    have hres : result ⟨.done,[],0,us.flatMap octets ++ List.replicate k 0,
        List.replicate m 0 ++ vs.flatMap octets⟩ = a := by
      apply buffer_eq
      rw [result_bytes _ _ (by omega), ha, hfront, hback]
      have hzero : List.replicate k (0 : UInt8) ++
          List.replicate (16-(2*us.length+k)-(m+2*vs.length)) 0 ++ List.replicate m 0 =
            List.replicate (2*zeros) 0 := by
        rw [List.replicate_append_replicate, List.replicate_append_replicate]
        congr 1
        omega
      rw [← hzero]
      simp only [List.append_assoc]
    rwa [hres] at hrun

theorem hexNumber_fits (g : Bytes) (w : ℕ) (h : HexNumber g w) : Fits hexDigit 16 0 g :=
  ⟨w,h.2⟩

theorem groups_mem (gs : List Bytes) (ws : List ℕ) (h : List.Forall₂ HexNumber gs ws) (c : UInt8)
    (hc : c ∈ joined gs) : c = 0x3a ∨ hexDigit c ≠ none := by
  rcases joined_mem c gs hc with rfl | ⟨g,hg,hc⟩
  · exact .inl rfl
  · right
    clear * - h hg hc
    induction h with
    | nil => simp at hg
    | @cons x w xs ws hx _ ih =>
      rcases List.mem_cons.mp hg with rfl | hg
      · exact fits_mem _ _ _ _ c (hexNumber_fits _ w hx) hc
      · exact ih hg

/-- Nothing but hexadecimal digits and colons. -/
theorem ipv6Form_mem (s x : Bytes) (h : Ipv6Form s x) (c : UInt8) (hc : c ∈ s) :
    c = 0x3a ∨ hexDigit c ≠ none := by
  cases h with
  | full gs ws hgs _ => exact groups_mem gs ws hgs c hc
  | gap fs bs us vs zeros hfs hbs _ _ =>
    simp only [List.mem_append, List.mem_cons] at hc
    rcases hc with hc | hc | hc | hc
    · exact groups_mem fs us hfs c hc
    · exact .inl hc
    · exact .inl hc
    · exact groups_mem bs vs hbs c hc

theorem ipv6Form_nonempty (s x : Bytes) (h : Ipv6Form s x) : s ≠ [] := by
  rintro rfl
  generalize hs : ([] : Bytes) = s at h
  cases h with
  | full gs ws hgs hlen =>
    cases hgs with
    | nil => exact absurd hlen (by decide)
    | @cons g w gs ws hg hgs =>
      obtain ⟨c,cs,rfl,-⟩ := hexNumber_head g w hg
      cases gs <;> exact absurd hs (by simp [joined])
  | gap => exact absurd hs (by simp)

theorem cstr_ipv6Form (s x : Bytes) (h : Ipv6Form s x) : cstr s = s := by
  apply List.takeWhile_eq_self_iff.mpr
  intro c hc
  simp only [ne_eq, decide_eq_true_eq]
  rintro rfl
  rcases ipv6Form_mem s x h 0 hc with h0 | h0
  · exact absurd h0 (by decide)
  · exact h0 rfl

/-- A text form is taken for its address, in narrow and in wide strings. -/
theorem ipv6Form_taken {T : Type} [CharT T] (s : Bytes) (a : Buffer 16)
    (h : Ipv6Form s a.bytes) :
    ∃ N, ∀ fuel, N ≤ fuel → fromStringIpv6 fuel (strToTstr s : List T) = some (some (.v6 a)) := by
  obtain ⟨N,hN⟩ := ipv6Form_returns s a h
  refine ⟨N,fun fuel hfuel => ?_⟩
  have hne : (strToTstr s : List T) ≠ [] := by simpa [strToTstr] using ipv6Form_nonempty s _ h
  have hnarrow : hostText (strToTstr s : List T) = s :=
    (hostText_strToTstr s).trans (cstr_ipv6Form s _ h)
  rw [fromStringIpv6, if_neg hne, inetPtonWide, inetPton, inetPton6, hostText_wide, hnarrow,
    hN fuel hfuel]
  rfl

theorem ipv6Text_mem (s x : Bytes) (h : Ipv6Text s x) (c : UInt8) (hc : c ∈ s) :
    c = 0x3a ∨ hexDigit c ≠ none := ipv6Form_mem s x (ipv6Text_form s x h) c hc

theorem cstr_ipv6Text (s x : Bytes) (h : Ipv6Text s x) : cstr s = s :=
  cstr_ipv6Form s x (ipv6Text_form s x h)

theorem ipv6Text_taken {T : Type} [CharT T] (s : Bytes) (a : Buffer 16)
    (h : Ipv6Text s a.bytes) :
    ∃ N, ∀ fuel, N ≤ fuel → fromStringIpv6 fuel (strToTstr s : List T) = some (some (.v6 a)) :=
  ipv6Form_taken s a (ipv6Text_form s a.bytes h)

end ProxySwiss.InetPton
