import ProxySwiss.LeastFree
import ProxySwiss.TransitionSystem
import Mathlib.Order.Bounds.Basic

/-!
# Debug uids

A table hands out the least number that it does not hold, and an object gives
its number back when it is destroyed. The table is a vector in the order of the
constructions, searched from the front.
-/

set_option autoImplicit false

namespace ProxySwiss.DebugUid
open TransitionSystem

/-- `debug_uid_table::core`. -/
structure Core where
  table : List UInt32 := []

/-- The last resort of the loop is the number -1, which is not stored. -/
def Core.alloc (c : Core) : UInt32 × Core :=
  match LeastFree.search (fun i => UInt32.ofNat i ∈ c.table) 0xffffffff 0 with
  | some i => (UInt32.ofNat i,⟨c.table ++ [UInt32.ofNat i]⟩)
  | none => (UInt32.ofNat 0xffffffff,c)

def Core.free (c : Core) (h : UInt32) : Core := ⟨c.table.erase h⟩

/-- The objects of one table: each holds the number that it was given. -/
structure World (Obj : Type) where
  core : Core := {}
  live : List (Obj × UInt32) := []

variable {Obj : Type}

def World.uids (w : World Obj) : List UInt32 := w.live.map Prod.snd

def World.construct (w : World Obj) (o : Obj) : World Obj :=
  ⟨w.core.alloc.2,w.live ++ [(o,w.core.alloc.1)]⟩

def World.destroy (w : World Obj) (before after : List (Obj × UInt32)) (h : UInt32) : World Obj :=
  ⟨w.core.free h,before ++ after⟩

def bound : ℕ := 2^32-1

/-- An object is constructed where none lives, or any living one is destroyed.
Fewer than `bound` objects are alive at a time. -/
inductive Step : World Obj → World Obj → Prop
  | construct (w : World Obj) (o : Obj) (ho : o ∉ w.live.map Prod.fst)
      (hw : w.live.length+1 < bound) : Step w (w.construct o)
  | destroy (w : World Obj) (before after : List (Obj × UInt32)) (o : Obj) (h : UInt32)
      (hw : w.live = before ++ (o,h)::after) : Step w (w.destroy before after h)

/-- As long as the table has room, it hands out the least number that it does
not hold, and holds it from then on. -/
theorem alloc_least (c : Core) (h : c.table.length < bound) :
    ∃ u, c.alloc = (u,⟨c.table ++ [u]⟩) ∧ IsLeast {x | x ∉ c.table} u := by
  have htable : ∀ j < bound, UInt32.ofNat j ∈ c.table → j ∈ c.table.map UInt32.toNat := by
    intro j hj hin
    refine List.mem_map.mpr ⟨_,hin,?_⟩
    exact UInt32.toNat_ofNat_of_lt' (Nat.lt_of_lt_of_le hj (by decide))
  obtain ⟨k,hs,hk,hfree,hleast⟩ := LeastFree.search_least (fun i => UInt32.ofNat i ∈ c.table) _
    bound htable (by simpa using h)
  have hsearch : LeastFree.search (fun i => UInt32.ofNat i ∈ c.table) 0xffffffff 0 = some k := hs
  refine ⟨UInt32.ofNat k,by rw [Core.alloc, hsearch],hfree,fun x hx => ?_⟩
  by_contra hlt
  have hnum : x.toNat < k := by
    have hword : k < UInt32.size := Nat.lt_of_lt_of_le hk (by decide)
    rw [UInt32.le_iff_toNat_le, UInt32.toNat_ofNat_of_lt' hword] at hlt
    omega
  have hin := hleast x.toNat hnum
  rw [UInt32.ofNat_toNat] at hin
  exact hx hin

example : (Core.alloc ⟨[0,2,1,4]⟩).1 = 3 := by decide

/-- The table holds the numbers of the living objects, each of them once. -/
structure Sound (w : World Obj) : Prop where
  perm : w.core.table.Perm w.uids
  nodup : w.uids.Nodup

theorem sound_table {w : World Obj} (h : Sound w) : w.core.table.length = w.live.length := by
  simpa [World.uids] using h.perm.length_eq

theorem sound_construct (w : World Obj) (o : Obj) (h : Sound w) (hw : w.live.length+1 < bound) :
    Sound (w.construct o) := by
  obtain ⟨u,hu,hleast⟩ := alloc_least w.core (by rw [sound_table h]; omega)
  have hfresh : u ∉ w.uids := fun hin => hleast.1 (h.perm.mem_iff.mpr hin)
  have huids : (w.construct o).uids = w.uids ++ [u] := by
    simp [World.construct, World.uids, hu]
  constructor
  · rw [huids, World.construct, hu]
    exact h.perm.append_right [u]
  · rw [huids]
    exact h.nodup.append (List.nodup_singleton u) (by simpa using hfresh)

theorem destroy_uids (w : World Obj) (before after : List (Obj × UInt32)) (o : Obj) (u : UInt32)
    (h : Sound w) (hw : w.live = before ++ (o,u)::after) :
    (w.destroy before after u).uids = w.uids.erase u := by
  have huids : w.uids = before.map Prod.snd ++ u::after.map Prod.snd := by
    simp [World.uids, hw]
  have hnot : u ∉ before.map Prod.snd := by
    have hnodup := h.nodup
    rw [huids] at hnodup
    intro hin
    exact (List.nodup_append.mp hnodup).2.2 u hin u (by simp) rfl
  rw [huids, List.erase_append_right _ hnot, List.erase_cons_head]
  simp [World.uids, World.destroy]

theorem sound_destroy (w : World Obj) (before after : List (Obj × UInt32)) (o : Obj) (u : UInt32)
    (h : Sound w) (hw : w.live = before ++ (o,u)::after) : Sound (w.destroy before after u) := by
  have huids := destroy_uids w before after o u h hw
  constructor
  · rw [huids]
    exact h.perm.erase u
  · rw [huids]
    exact h.nodup.erase u

theorem sound_step (w v : World Obj) (h : Sound w) (ht : Step w v) : Sound v := by
  cases ht with
  | construct o ho hw => exact sound_construct w o h hw
  | destroy before after o u hw => exact sound_destroy w before after o u h hw

theorem sound_begun : Sound ({} : World Obj) := ⟨List.Perm.nil,List.nodup_nil⟩

/-- In every run the living objects have different numbers, and the table holds
exactly these. A new object gets the least number that is not in use, and one
that is destroyed gives back its own number and no other. -/
theorem debug_uid_law (w : World Obj) (h : Run Step {} w) :
    w.uids.Nodup ∧ w.core.table.Nodup ∧ (∀ u, u ∈ w.core.table ↔ u ∈ w.uids) ∧
    (∀ o, w.live.length+1 < bound → ∃ u, (w.construct o).live = w.live ++ [(o,u)] ∧
      IsLeast {x | x ∉ w.uids} u) ∧
    ∀ before after o u, w.live = before ++ (o,u)::after →
      (w.destroy before after u).live = before ++ after ∧
      ∀ x, x ∈ (w.destroy before after u).core.table ↔ x ∈ w.core.table ∧ x ≠ u := by
  have hw := run_invariant Sound sound_step h sound_begun
  have htable : ∀ u, u ∈ w.core.table ↔ u ∈ w.uids := fun u => hw.perm.mem_iff
  have hnodup := hw.perm.nodup_iff.mpr hw.nodup
  refine ⟨hw.nodup,hnodup,htable,fun o ho => ?_,fun before after o u hlive => ⟨rfl,fun x => ?_⟩⟩
  · obtain ⟨u,hu,hleast⟩ := alloc_least w.core (by rw [sound_table hw]; omega)
    refine ⟨u,by simp [World.construct, hu],?_⟩
    simpa only [htable] using hleast
  · simp only [World.destroy, Core.free]
    rw [hnodup.mem_erase_iff, and_comm]

/-- The number of the first object is used again while the second one lives. -/
theorem debug_uid_law_recycled : ∃ w : World ℕ, Run Step {} w ∧ w.live = [(1,1)] ∧
    ∃ u, (w.construct 2).live = [(1,1),(2,u)] ∧ IsLeast {x | x ≠ 1} u := by
  have hrun : Run Step ({} : World ℕ)
      ((((({} : World ℕ).construct 0).construct 1)).destroy [] [(1,1)] 0) :=
    .tail (.tail (.tail .refl (.construct _ 0 (by decide) (by decide)))
      (.construct _ 1 (by decide) (by decide))) (.destroy _ [] [(1,1)] 0 0 (by decide))
  obtain ⟨u,hu,hleast⟩ := (debug_uid_law _ hrun).2.2.2.1 2 (by decide)
  refine ⟨_,hrun,rfl,u,hu,?_⟩
  simpa [World.uids, World.destroy] using hleast

end ProxySwiss.DebugUid
