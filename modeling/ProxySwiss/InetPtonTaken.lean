import ProxySwiss.InetPtonLoop
import ProxySwiss.TextSearch

/-!
# The texts for which the loop returns an address

These are the texts to which a percent sign may be added so that it never
returns: a round at the end of the text and a round at the sign go the same
way, and they have the same reasons to refuse.
-/

set_option autoImplicit false

namespace ProxySwiss.InetPton
open Memory Text

def Accepts (s : Scan) : Prop := ∃ a, Loop.Returns round s (some a)

def Reading (s : Scan) : Prop := s.state = .fword ∨ s.state = .fcolon ∨ s.state = .bword

def withPercent (s : Scan) : Scan := { s with p := s.p ++ [0x25] }

/-- What acceptance and divergence have to do with each other. -/
def Matches (s : Scan) : Prop :=
  Accepts s ↔ 0x25 ∉ s.p ∧ Loop.Diverges round (withPercent s)

theorem accepts_round (s t : Scan) (h : round s = .inl t) : Accepts s ↔ Accepts t :=
  exists_congr fun a => Loop.returns_round round s t (some a) h

theorem accepts_none (s : Scan) (h : round s = .inr none) : ¬ Accepts s := by
  rintro ⟨a,ha⟩
  exact absurd ((Loop.returns_return round s _ _ h).mp ha) (by simp)

theorem accepts_done (s : Scan) (h : s.state = .done) : Accepts s :=
  ⟨_,Loop.Returns.now round s (some (result s)) (by simp [round, h])⟩

/-- Nothing behind a percent sign leads to the end. -/
theorem scope_accepts (p : Bytes) (s : Scan) (hst : s.state = .scope) (hp : s.p = p) :
    ¬ Accepts s := by
  by_cases hw : s.currentWord ≤ 0xffff
  · induction p generalizing s with
    | nil =>
      have hround : round s = .inl s := by simp [round, hst, hp, Nat.not_lt.mpr hw]
      rintro ⟨a,N,hN⟩
      exact absurd (hN N le_rfl) (by simp [Loop.diverges_stuck round s hround N])
    | cons c cs ih =>
      cases hd : decDigit c with
      | none => exact accepts_none s (by simp [round, hst, hp, hd, Nat.not_lt.mpr hw])
      | some d =>
        have hround : round s = .inl { s with currentWord := s.currentWord*10+d, p := cs } := by
          simp [round, hst, hp, hd, Nat.not_lt.mpr hw]
        rw [accepts_round _ _ hround]
        by_cases hw' : s.currentWord*10+d ≤ 0xffff
        · exact ih { s with currentWord := s.currentWord*10+d, p := cs } hst rfl hw'
        · exact accepts_none _ (round_large _ (by simp [hst]) (Nat.not_le.mp hw'))
  · exact accepts_none s (round_large s (by simp [hst]) (Nat.not_le.mp hw))

theorem matches_none (s : Scan) (h : round s = .inr none) (h' : round (withPercent s) = .inr none) :
    Matches s :=
  ⟨fun ha => absurd ha (accepts_none s h),
    fun hd => absurd hd.2 (Loop.diverges_return round _ none h')⟩

theorem matches_round (s t : Scan) (h : round s = .inl t)
    (h' : round (withPercent s) = .inl (withPercent t)) (hp : 0x25 ∈ s.p ↔ 0x25 ∈ t.p)
    (ht : Matches t) : Matches s := by
  unfold Matches at ht ⊢
  rw [accepts_round s t h, Loop.diverges_round round _ _ h', hp, ht]

theorem matches_large (s : Scan) (hst : s.state ≠ .done) (hw : ¬ s.currentWord ≤ 0xffff) :
    Matches s := by
  have hw' : 0xffff < s.currentWord := Nat.not_le.mp hw
  exact matches_none s (round_large s hst hw') (round_large (withPercent s) hst hw')

/-! A word in either of the two states, with its way to store it. -/

section Word

variable (push : Scan → Option Scan) (colon : State) (s : Scan)
  (h : round s = word push colon s) (h' : round (withPercent s) = word push colon (withPercent s))
  (hpush : push (withPercent s) = (push s).map withPercent)

include h h' hpush

/-- The last word: the text ends, or the sign with an empty identifier follows. -/
theorem matches_end (hp : s.p = []) (hstored : ∀ t, push s = some t → t.currentWord = 0) :
    Matches s := by
  have hp' : (withPercent s).p = [0x25] := by simp [withPercent, hp]
  cases hq : push s with
  | none =>
    exact matches_none s (by simp [h, word, hp, hq])
      (by simp [h', word, hp', hexDigit_percent, hpush, hq])
  | some t =>
    have hround : round s = .inl { t with state := .done } := by simp [h, word, hp, hq]
    have hround' : round (withPercent s) = .inl { t with state := .scope, p := [] } := by
      simp only [h', word, hp', hexDigit_percent, hpush, hq, Option.map_some]
      rfl
    have hscope := scope_diverges [] { t with state := .scope, p := [] } rfl rfl
    rw [Matches, accepts_round _ _ hround, Loop.diverges_round round _ _ hround', hscope, hp]
    exact ⟨fun _ => ⟨by simp,fits_nil _ _ _ (by simp [hstored t hq])⟩,fun _ => accepts_done _ rfl⟩

/-- A word that a character ends which is no digit. -/
theorem matches_stop (c : UInt8) (cs : Bytes) (hp : s.p = c::cs) (hd : hexDigit c = none)
    (hcolon : colon = .fcolon ∨ colon = .bword)
    (ih : ∀ t c, s.p = c::t.p → Reading t → Matches t) : Matches s := by
  have hp' : (withPercent s).p = c::(cs ++ [0x25]) := by simp [withPercent, hp]
  cases hq : push s with
  | none =>
    exact matches_none s (by simp [h, word, hp, hd, hq]) (by simp [h', word, hp', hd, hpush, hq])
  | some t =>
    by_cases hc : c = 0x3a
    · refine matches_round s { t with state := colon, p := cs } ?_ ?_ (by simp [hp, hc])
        (ih _ c hp (hcolon.elim (fun h => .inr (.inl h)) fun h => .inr (.inr h)))
      · simp only [h, word, hp, hd, hq, if_pos hc]
      · simp only [h', word, hp', hd, hpush, hq, Option.map_some, if_pos hc]
        rfl
    by_cases hc' : c = 0x25
    · have hround : round s = .inl { t with state := .scope, p := cs } := by
        simp only [h, word, hp, hd, hq]
        rw [if_neg hc, if_pos hc']
      rw [Matches, accepts_round _ _ hround, hp]
      exact ⟨fun ha => absurd ha (scope_accepts cs _ rfl rfl),fun hno => by simp [hc'] at hno⟩
    · exact matches_none s (by simp [h, word, hp, hd, hq, hc, hc'])
        (by simp [h', word, hp', hd, hpush, hq, hc, hc'])

theorem matches_word (hstored : ∀ t, push s = some t → t.currentWord = 0)
    (hcolon : colon = .fcolon ∨ colon = .bword) (hst : Reading s)
    (ih : ∀ t c, s.p = c::t.p → Reading t → Matches t) : Matches s := by
  match hp : s.p with
  | [] => exact matches_end push colon s h h' hpush hp hstored
  | c::cs =>
    cases hd : hexDigit c with
    | none => exact matches_stop push colon s h h' hpush c cs hp hd hcolon ih
    | some d =>
      have hp' : (withPercent s).p = c::(cs ++ [0x25]) := by simp [withPercent, hp]
      have hc : c ≠ 0x25 := by
        rintro rfl
        exact absurd (hexDigit_percent.symm.trans hd) (by simp)
      refine matches_round s { s with currentWord := s.currentWord*16+d, p := cs }
        (by simp [h, word, hp, hd]) ?_ (by simp [hp, hc.symm]) (ih _ c hp hst)
      simp only [h', word, hp', hd]
      rfl

end Word

theorem matches_fword (s : Scan) (hst : s.state = .fword)
    (ih : ∀ t c, s.p = c::t.p → Reading t → Matches t) : Matches s := by
  by_cases hw : s.currentWord ≤ 0xffff
  · refine matches_word pushFront .fcolon s (by simp [round, hst, Nat.not_lt.mpr hw])
      (by simp [round, withPercent, hst, Nat.not_lt.mpr hw]) ?_ ?_ (.inl rfl) (.inl hst) ih
    · unfold pushFront withPercent
      split_ifs <;> rfl
    · intro t ht
      unfold pushFront at ht
      split_ifs at ht
      obtain rfl := Option.some.inj ht
      rfl
  · exact matches_large s (by simp [hst]) hw

theorem matches_bword (s : Scan) (hst : s.state = .bword)
    (ih : ∀ t c, s.p = c::t.p → Reading t → Matches t) : Matches s := by
  by_cases hw : s.currentWord ≤ 0xffff
  · refine matches_word pushBack .bword s (by simp [round, hst, Nat.not_lt.mpr hw])
      (by simp [round, withPercent, hst, Nat.not_lt.mpr hw]) ?_ ?_ (.inr rfl) (.inr (.inr hst)) ih
    · unfold pushBack withPercent
      split_ifs <;> rfl
    · intro t ht
      unfold pushBack at ht
      split_ifs at ht
      obtain rfl := Option.some.inj ht
      rfl
  · exact matches_large s (by simp [hst]) hw

theorem matches_fcolon (s : Scan) (hst : s.state = .fcolon)
    (ih : ∀ t c, s.p = c::t.p → Reading t → Matches t) : Matches s := by
  have hword := matches_fword { s with state := .fword } rfl ih
  by_cases hw : s.currentWord ≤ 0xffff
  · match hp : s.p with
    | [] =>
      refine matches_round s { s with state := .fword } ?_ ?_ Iff.rfl hword
      · simp [round, hst, hp, Nat.not_lt.mpr hw]
      · simp [round, withPercent, hst, hp, Nat.not_lt.mpr hw]
    | c::cs =>
      by_cases hc : c = 0x3a
      · refine matches_round s { s with state := .bword, p := cs } ?_ ?_ (by simp [hp, hc])
          (ih _ c hp (.inr (.inr rfl)))
        · simp [round, hst, hp, hc, Nat.not_lt.mpr hw]
        · simp [round, withPercent, hst, hp, hc, Nat.not_lt.mpr hw]
      · refine matches_round s { s with state := .fword } ?_ ?_ Iff.rfl hword
        · simp [round, hst, hp, hc, Nat.not_lt.mpr hw]
        · simp [round, withPercent, hst, hp, hc, Nat.not_lt.mpr hw]
  · exact matches_large s (by simp [hst]) hw

theorem reading_step (s : Scan) (hst : Reading s)
    (ih : ∀ t c, s.p = c::t.p → Reading t → Matches t) : Matches s := by
  rcases hst with h | h | h
  · exact matches_fword s h ih
  · exact matches_fcolon s h ih
  · exact matches_bword s h ih

theorem reading_matches (p : Bytes) (s : Scan) (hp : s.p = p) (hst : Reading s) : Matches s := by
  induction p generalizing s with
  | nil => exact reading_step s hst fun t c hc => by simp [hp] at hc
  | cons x xs ih =>
    refine reading_step s hst fun t c hc => ih t ?_
    exact (List.cons.inj (hc.symm.trans hp)).2

/-- The fields of a text that the loop takes. -/
structure Taken (text : Bytes) (fields : List Bytes) : Prop where
  joined : text = joined fields
  nonempty : fields ≠ []
  hex : ∀ f ∈ fields, Fits hexDigit 16 0 f
  length : fields.length ≤ 8 ∨ fields.length = 9 ∧ [] ∈ fields.tail.dropLast

theorem joined_absent (c : UInt8) (fields : List Bytes) (hc : c ≠ 0x3a) (hd : hexDigit c = none)
    (h : ∀ f ∈ fields, Fits hexDigit 16 0 f) : c ∉ joined fields := by
  intro hin
  rcases joined_mem c fields hin with rfl | ⟨f,hf,hin⟩
  · exact hc rfl
  · exact fits_mem _ _ _ f c (h f hf) hin hd

theorem taken_percent (text : Bytes) :
    (0x25 ∉ text ∧ Scoped (text ++ [0x25])) ↔ ∃ fields, Taken text fields := by
  constructor
  · rintro ⟨hno,fields,id,h,hne,hfs,-,hlen⟩
    have hjoined := joined_absent 0x25 fields (by decide) rfl hfs
    have hcut := congrArg (before (0x25 : UInt8)) h
    rw [before_append _ _ _ hno, before_append _ _ _ hjoined, before_self, before_self,
      List.append_nil, List.append_nil] at hcut
    exact ⟨fields,hcut,hne,hfs,hlen⟩
  · rintro ⟨fields,rfl,hne,hfs,hlen⟩
    exact ⟨joined_absent 0x25 fields (by decide) rfl hfs,
      fields,[],rfl,hne,hfs,fits_nil _ _ _ (by decide),hlen⟩

/-- The texts for which the loop returns an address. -/
theorem taken_iff (text : Bytes) :
    (∃ a, Loop.Returns round { p := text } (some a)) ↔ ∃ fields, Taken text fields := by
  have hm := reading_matches text { p := text } rfl (.inl rfl)
  rw [Matches, withPercent, fword_diverges 8 0 rfl _ rfl rfl rfl rfl, front_scoped] at hm
  exact hm.trans (taken_percent text)

end ProxySwiss.InetPton
