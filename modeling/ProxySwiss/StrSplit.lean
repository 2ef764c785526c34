import ProxySwiss.Occurrences
import ProxySwiss.TextSearch
import ProxySwiss.Loop

/-!
# Splitting at a delimiter

The loop keeps the offset at which the next part starts and has the rest of the
subject scanned for the delimiter. A read is refused where it leaves the
subject, and a difference of lengths where it would wrap around. The subject is
a string of bytes, for which a character is as long as the units that the scan
counts in.
-/

set_option autoImplicit false

namespace ProxySwiss.StrSplit
open Memory Text Occurrences

/-- `none` where the bytes asked for are not all in the subject. -/
def readAt (mem : Bytes) (pos len : ℕ) : Option Bytes :=
  if pos+len ≤ mem.length then some ((mem.drop pos).take len) else none

def sizeSub (a b : ℕ) : Option ℕ := if b ≤ a then some (a-b) else none

/-- The loop over the positions, `n` of which remain. -/
def scanFrom (mem : Bytes) (base : ℕ) (pat : Bytes) : ℕ → ℕ → Option (Option ℕ)
  | 0, _ => some none
  | n+1, i => (readAt mem (base+i) pat.length).bind fun x =>
      if x = pat then some (some i) else scanFrom mem base pat n (i+1)

/-- The memory that is scanned begins at `base` and has the length `len`. -/
def binScan (mem : Bytes) (base len : ℕ) (pat : Bytes) : Option (Option ℕ) :=
  if len < pat.length then some none
  else scanFrom mem base pat (len-pat.length+1) 0

structure Progress where
  start : ℕ := 0
  parts : List Bytes := []

def splitStep (subj delim : Bytes) (s : Progress) : Option (Progress ⊕ List Bytes) := do
  let len ← sizeSub subj.length s.start
  match ← binScan subj s.start len delim with
  | none =>
    let p ← readAt subj s.start len
    some (.inr (s.parts ++ [p]))
  | some i =>
    let stop := s.start+i
    let p ← readAt subj s.start (← sizeSub stop s.start)
    some (.inl ⟨stop+delim.length,s.parts ++ [p]⟩)

def splitRound (subj delim : Bytes) (s : Progress) : Progress ⊕ Option (List Bytes) :=
  match splitStep subj delim s with
  | none => .inr none
  | some (.inl s) => .inl s
  | some (.inr parts) => .inr (some parts)

/-- An empty delimiter is an assertion that fails, and no parts otherwise. -/
def strSplitLoop (fuel : ℕ) (subj delim : Bytes) : Option (Option (List Bytes)) :=
  if delim = [] then some (some []) else Loop.eval (splitRound subj delim) fuel {}

theorem readAt_some (mem : Bytes) (pos len : ℕ) (h : pos+len ≤ mem.length) :
    readAt mem pos len = some ((mem.drop pos).take len) := if_pos h

/-- The scan stops at the first position at which it finds the pattern. -/
theorem scanFrom_spec (mem : Bytes) (base : ℕ) (pat : Bytes) (n i : ℕ)
    (h : base+i+n+pat.length ≤ mem.length+1) : ∃ r, scanFrom mem base pat n i = some r ∧
      (∀ k, r = some k → i ≤ k ∧ pat <+: mem.drop (base+k) ∧
        ∀ j, i ≤ j → j < k → ¬ pat <+: mem.drop (base+j)) ∧
      (r = none → ∀ j, i ≤ j → j < i+n → ¬ pat <+: mem.drop (base+j)) := by
  induction n generalizing i with
  | zero => exact ⟨none,rfl,by simp,fun _ j hlo hhi => by omega⟩
  | succ n ih =>
    rw [scanFrom, readAt_some _ _ _ (by omega), Option.bind_some]
    have hhere : (mem.drop (base+i)).take pat.length = pat ↔ pat <+: mem.drop (base+i) := by
      rw [List.prefix_iff_eq_take, eq_comm]
    split_ifs with hp
    · refine ⟨some i,rfl,fun k hk => ?_,by simp⟩
      obtain rfl := Option.some.inj hk
      exact ⟨le_rfl,hhere.mp hp,fun j hlo hhi => by omega⟩
    · have hno := fun hpre => hp (hhere.mpr hpre)
      obtain ⟨r,hr,hfound,habsent⟩ := ih (i+1) (by omega)
      have hstep : ∀ j, i ≤ j → j = i ∨ i+1 ≤ j := fun j hj => by omega
      refine ⟨r,hr,fun k hk => ?_,fun hnone j hlo hhi => ?_⟩
      · obtain ⟨hle,hpre,hfirst⟩ := hfound k hk
        refine ⟨by omega,hpre,fun j hlo hhi => ?_⟩
        rcases hstep j hlo with rfl | hj
        · exact hno
        · exact hfirst j hj hhi
      · rcases hstep j hlo with rfl | hj
        · exact hno
        · exact habsent hnone j hj (by omega)

/-- The rest of a subject is scanned for the leftmost occurrence in it. -/
theorem binScan_spec (subj delim : Bytes) (start : ℕ) (hd : delim ≠ [])
    (h : start ≤ subj.length) :
    ∃ r, binScan subj start (subj.length-start) delim = some r ∧
      (∀ i, r = some i → Leftmost delim subj start (start+i)) ∧
      (r = none → Absent delim subj start) := by
  have hpos : 0 < delim.length := List.length_pos_iff.mpr hd
  have hshort : ∀ j, subj.length < j+delim.length → ¬ delim <+: subj.drop j := by
    intro j hj hpre
    have hlen := hpre.length_le
    rw [List.length_drop] at hlen
    omega
  unfold binScan
  split_ifs with hlt
  · exact ⟨none,rfl,by simp,fun _ j hj => hshort j (by omega)⟩
  · obtain ⟨r,hr,hfound,habsent⟩ :=
      scanFrom_spec subj start delim (subj.length-start-delim.length+1) 0 (by omega)
    refine ⟨r,hr,fun i hi => ?_,fun hnone j hj => ?_⟩
    · obtain ⟨-,hpre,hfirst⟩ := hfound i hi
      refine ⟨Nat.le_add_right _ _,hpre,fun j hlo hhi => ?_⟩
      have hj := hfirst (j-start) (Nat.zero_le _) (by omega)
      rwa [Nat.add_sub_cancel' hlo] at hj
    · by_cases hend : j+delim.length ≤ subj.length
      · have hno := habsent hnone (j-start) (Nat.zero_le _) (by omega)
        rwa [Nat.add_sub_cancel' hj] at hno
      · exact hshort j (by omega)

theorem round_last (subj delim : Bytes) (s : Progress) (hs : s.start ≤ subj.length)
    (hscan : binScan subj s.start (subj.length-s.start) delim = some none) :
    splitRound subj delim s = .inr (some (s.parts ++ [subj.drop s.start])) := by
  have hread := readAt_some subj s.start (subj.length-s.start) (by omega)
  rw [List.take_of_length_le (by simp)] at hread
  simp [splitRound, splitStep, sizeSub, hs, hscan, hread]

theorem round_cut (subj delim : Bytes) (s : Progress) (i : ℕ) (hi : s.start+i ≤ subj.length)
    (hscan : binScan subj s.start (subj.length-s.start) delim = some (some i)) :
    splitRound subj delim s =
      .inl ⟨s.start+i+delim.length,s.parts ++ [(subj.drop s.start).take i]⟩ := by
  have hread := readAt_some subj s.start i hi
  have hs : s.start ≤ subj.length := by omega
  simp [splitRound, splitStep, sizeSub, hs, hscan, hread]

/-- From any offset the loop finds the cuts that are left, by induction on how
much of the subject is. -/
theorem loop_cuts (subj delim : Bytes) (hd : delim ≠ []) (n : ℕ) (s : Progress)
    (hs : s.start ≤ subj.length) (hn : subj.length-s.start ≤ n) :
    ∃ cs, Cuts delim subj s.start cs ∧ Loop.Returns (splitRound subj delim) s
      (some (s.parts ++ pieces subj delim.length s.start cs)) := by
  have hpos : 0 < delim.length := List.length_pos_iff.mpr hd
  induction n using Nat.strong_induction_on generalizing s with
  | _ n ih =>
    obtain ⟨r,hscan,hfound,habsent⟩ := binScan_spec subj delim s.start hd hs
    cases r with
    | none =>
      exact ⟨[],.done _ (habsent rfl),Loop.Returns.now _ _ _ (round_last subj delim s hs hscan)⟩
    | some i =>
      have hleft := hfound i rfl
      have hend := leftmost_end _ _ hleft hd
      obtain ⟨cs,hcs,hrun⟩ := ih (n-1) (by omega)
        ⟨s.start+i+delim.length,s.parts ++ [(subj.drop s.start).take i]⟩ hend (by simp only; omega)
      refine ⟨(s.start+i)::cs,.cut _ _ _ hleft hcs,
        Loop.Returns.round _ _ _ _ (round_cut subj delim s i (by omega) hscan) ?_⟩
      simpa [pieces] using hrun

/-- What is promised of the parts, with the places of the cuts. -/
structure SplitLaw (subj delim : Bytes) (cs : List ℕ) (parts : List Bytes) : Prop where
  returns : ∃ N, ∀ fuel, N ≤ fuel → strSplitLoop fuel subj delim = some (some parts)
  join : delim.intercalate parts = subj
  clear : ∀ p ∈ parts, ¬ delim <:+: p
  cuts : Cuts delim subj 0 cs
  between : parts = pieces subj delim.length 0 cs
  unique : ∀ cs', Cuts delim subj 0 cs' → cs' = cs
  count : parts.length = cs.length+1

/-- The loop ends, with the parts of its subject and no read outside of it. -/
theorem str_split_law (subj delim : Bytes) (hd : delim ≠ []) :
    ∃ cs parts, SplitLaw subj delim cs parts := by
  obtain ⟨cs,hcs,N,hN⟩ := loop_cuts subj delim hd subj.length {} (Nat.zero_le _) (by simp)
  refine ⟨cs,_,⟨N,fun fuel hfuel => (if_neg hd).trans (hN fuel hfuel)⟩,?_,?_,hcs,rfl,
    fun cs' h => cuts_unique _ _ _ h hcs,pieces_length _ _ _⟩
  · exact pieces_join 0 cs hcs
  · exact pieces_clear 0 cs hd hcs

theorem str_split_law_doubled : ∃ cs parts, SplitLaw (ascii "a\r\n\r\nb") (ascii "\r\n") cs parts :=
  str_split_law (ascii "a\r\n\r\nb") (ascii "\r\n") (by decide)

/-- The split by characters makes the same cuts. -/
theorem strSplit_pieces (subj delim : Bytes) (pos : ℕ) (cs : List ℕ) (hd : delim ≠ [])
    (h : Cuts delim subj pos cs) :
    strSplit (subj.drop pos) delim = pieces subj delim.length pos cs := by
  induction h with
  | done pos h => exact split_whole delim _ (absent_inside pos h)
  | cut pos c cs h hcs ih =>
    have hparts := leftmost_parts pos c h
    have hclear : Clear delim ((subj.drop pos).take (c-pos))
        (delim ++ subj.drop (c+delim.length)) := by
      intro j hj
      rw [← hparts, List.drop_drop]
      rw [List.length_take] at hj
      exact h.first (pos+j) (Nat.le_add_right _ _) (by omega)
    rw [hparts, split_at delim _ _ hd hclear, ih, pieces]

/-- The loop computes the split that the line readers are modelled with. -/
theorem loop_strSplit (subj delim : Bytes) (hd : delim ≠ []) :
    ∃ N, ∀ fuel, N ≤ fuel → strSplitLoop fuel subj delim = some (some (strSplit subj delim)) := by
  obtain ⟨cs,hcs,N,hN⟩ := loop_cuts subj delim hd subj.length {} (Nat.zero_le _) (by simp)
  have hsame : strSplit subj delim = pieces subj delim.length 0 cs :=
    strSplit_pieces subj delim 0 cs hd hcs
  refine ⟨N,fun fuel hfuel => ?_⟩
  rw [strSplitLoop, if_neg hd, hN fuel hfuel, hsame]
  rfl

end ProxySwiss.StrSplit
