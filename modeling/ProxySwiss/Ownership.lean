import ProxySwiss.CallbackObject
import Mathlib.Algebra.Ring.Nat

/-!
# Objects kept by their owners

A shared object exists as long as somebody owns it. Its state keeps owners, as
handlers and as operations that carry a pointer to it, and so does every frame
in which a copy of a handler is being called. What a callback does after it has
called somebody is done to an object that may have lost its last owner, so the
number of owners is written down whenever that happens.
-/

set_option autoImplicit false

namespace Ownership
open CallbackObject

variable {σ ω ε : Type*}

/-- `locals` counts the copies in frames; `resumed` is the history of how many
owners there were whenever a callback went on after a call. -/
structure Held (σ : Type*) where
  state : σ
  locals : ℕ := 0
  resumed : List ℕ := []

namespace Held

def modify (g : σ → σ) (m : Held σ) : Held σ := { m with state := g m.state }

/-- The frame of `body` has a copy. -/
def hold (body : Held σ → Held σ) (m : Held σ) : Held σ :=
  let r := body { m with locals := m.locals+1 }
  { r with locals := r.locals-1 }

/-- `stored` counts the owners that are kept in a state. -/
def owners (stored : σ → ℕ) (m : Held σ) : ℕ := stored m.state+m.locals

/-- The step of a callback that follows a call. -/
def resume (stored : σ → ℕ) (g : σ → σ) (m : Held σ) : Held σ :=
  { m with
    state := g m.state
    resumed := m.resumed ++ [m.owners stored] }

/-- The actions of an effect, in their order. -/
def perform (start : ω → Held σ → Held σ) (call : ε → Held σ → Held σ) :
    List (Action ω ε) → Held σ → Held σ
  | [], m => m
  | .start op::as, m => perform start call as (start op m)
  | .emit e::as, m => perform start call as (call e m)

/-- An effect whose new state is `g`. The handlers that are `owned` own the
object, and their copy is made before the object lets go of them. -/
def enact (owned : ε → Bool) (start : ω → Held σ → Held σ) (call : ε → Held σ → Held σ)
    (g : σ → σ) (as : List (Action ω ε)) (m : Held σ) : Held σ :=
  if (emitted as).any owned then hold (fun m => perform start call as (m.modify g)) m
  else perform start call as (m.modify g)

/-- `body` comes back to the same frames in a state that satisfies `Q`, and no
callback has gone on after a call meanwhile. -/
def Brings (body : Held σ → Held σ) (m : Held σ) (Q : σ → Prop) : Prop :=
  ∃ s, body m = ⟨s,m.locals,m.resumed⟩ ∧ Q s

theorem Brings.mono {body : Held σ → Held σ} {m : Held σ} {Q R : σ → Prop}
    (h : Brings body m Q) (hQ : ∀ s, Q s → R s) : Brings body m R := by
  obtain ⟨s,hs,hq⟩ := h
  exact ⟨s,hs,hQ s hq⟩

theorem brings_modify (g : σ → σ) (m : Held σ) (Q : σ → Prop) (h : Q (g m.state)) :
    Brings (modify g) m Q := ⟨_,rfl,h⟩

theorem brings_hold (body : Held σ → Held σ) (m : Held σ) (Q : σ → Prop)
    (h : Brings body { m with locals := m.locals+1 } Q) : Brings (hold body) m Q := by
  obtain ⟨s,hs,hq⟩ := h
  exact ⟨s,by rw [hold, hs]; rfl,hq⟩

theorem Brings.of_eq {f g : Held σ → Held σ} {m : Held σ} {Q : σ → Prop} (h : Brings g m Q)
    (hfg : f m = g m) : Brings f m Q := by
  obtain ⟨s,hs,hq⟩ := h
  exact ⟨s,hfg.trans hs,hq⟩

theorem Brings.after {f body : Held σ → Held σ} {m : Held σ} {Q : σ → Prop} (g : σ → σ)
    (h : Brings f (m.modify g) Q) (hb : body m = f (m.modify g)) : Brings body m Q := by
  obtain ⟨s,hs,hq⟩ := h
  exact ⟨s,hb.trans hs,hq⟩

/-- Where callbacks have gone on there was still an owner. -/
def Keeps (body : Held σ → Held σ) (m : Held σ) (Q : σ → Prop) : Prop :=
  ∃ s ns, body m = ⟨s,m.locals,m.resumed ++ ns⟩ ∧ (∀ n ∈ ns, 0 < n) ∧ Q s

theorem Brings.keeps {body : Held σ → Held σ} {m : Held σ} {Q : σ → Prop}
    (h : Brings body m Q) : Keeps body m Q := by
  obtain ⟨s,hs,hq⟩ := h
  exact ⟨s,[],by rw [List.append_nil, hs],by simp,hq⟩

theorem Keeps.mono {body : Held σ → Held σ} {m : Held σ} {Q R : σ → Prop}
    (h : Keeps body m Q) (hQ : ∀ s, Q s → R s) : Keeps body m R := by
  obtain ⟨s,ns,hs,hns,hq⟩ := h
  exact ⟨s,ns,hs,hns,hQ s hq⟩

theorem Keeps.of_eq {f g : Held σ → Held σ} {m : Held σ} {Q : σ → Prop} (h : Keeps g m Q)
    (hfg : f m = g m) : Keeps f m Q := by
  obtain ⟨s,ns,hs,hns,hq⟩ := h
  exact ⟨s,ns,hfg.trans hs,hns,hq⟩

/-- What follows a call finds as many owners as the call has left. -/
theorem resume_eq {body : Held σ → Held σ} {m : Held σ} {Q : σ → Prop} (stored : σ → ℕ)
    (g : σ → σ) (h : Brings body m Q) : ∃ s, Q s ∧
      resume stored g (body m) = ⟨g s,m.locals,m.resumed ++ [stored s+m.locals]⟩ := by
  obtain ⟨s,hs,hq⟩ := h
  exact ⟨s,hq,by rw [hs]; rfl⟩

theorem keeps_resume {body : Held σ → Held σ} {m : Held σ} {Q : σ → Prop} (stored : σ → ℕ)
    (g : σ → σ) (h : Brings body m fun s => 0 < stored s ∧ Q (g s)) :
    Keeps (fun m => resume stored g (body m)) m Q := by
  obtain ⟨s,⟨hpos,hq⟩,hr⟩ := resume_eq stored g h
  refine ⟨g s,_,hr,?_,hq⟩
  intro n hn
  rw [List.mem_singleton.mp hn]
  omega

/-- Between two callbacks nothing is in a frame, and every callback that has gone
on has found an owner. -/
structure Sound (Q : σ → Prop) (m : Held σ) : Prop where
  locals : m.locals = 0
  resumed : ∀ n ∈ m.resumed, 0 < n
  state : Q m.state

theorem Keeps.sound {body : Held σ → Held σ} {m : Held σ} {Q R : σ → Prop} (g : σ → σ)
    (hm : Sound R m) (h : Keeps body (m.modify g) Q) : Sound Q (body (m.modify g)) := by
  obtain ⟨s,ns,hs,hns,hq⟩ := h
  rw [hs]
  refine ⟨hm.locals,fun n hn => ?_,hq⟩
  exact (List.mem_append.mp hn).elim (hm.resumed n) (hns n)

/-- `body` comes back to the same frames in a state that satisfies `Q`, whatever
callbacks that have gone on meanwhile have found. -/
def Leaves (body : Held σ → Held σ) (m : Held σ) (Q : σ → Prop) : Prop :=
  ∃ s ns, body m = ⟨s,m.locals,m.resumed ++ ns⟩ ∧ Q s

theorem Brings.leaves {body : Held σ → Held σ} {m : Held σ} {Q : σ → Prop}
    (h : Brings body m Q) : Leaves body m Q := by
  obtain ⟨s,hs,hq⟩ := h
  exact ⟨s,[],by rw [List.append_nil, hs],hq⟩

theorem Leaves.mono {body : Held σ → Held σ} {m : Held σ} {Q R : σ → Prop}
    (h : Leaves body m Q) (hQ : ∀ s, Q s → R s) : Leaves body m R := by
  obtain ⟨s,ns,hs,hq⟩ := h
  exact ⟨s,ns,hs,hQ s hq⟩

theorem Leaves.of_eq {f g : Held σ → Held σ} {m : Held σ} {Q : σ → Prop} (h : Leaves g m Q)
    (hfg : f m = g m) : Leaves f m Q := by
  obtain ⟨s,ns,hs,hq⟩ := h
  exact ⟨s,ns,hfg.trans hs,hq⟩

theorem leaves_resume {body : Held σ → Held σ} {m : Held σ} {Q : σ → Prop} (stored : σ → ℕ)
    (g : σ → σ) (h : Brings body m fun s => Q (g s)) :
    Leaves (fun m => resume stored g (body m)) m Q := by
  obtain ⟨s,hq,hr⟩ := resume_eq stored g h
  exact ⟨g s,_,hr,hq⟩

theorem Brings.and {body : Held σ → Held σ} {m : Held σ} {P Q : σ → Prop} (h : Brings body m P)
    (hq : Q (body m).state) : Brings body m fun s => P s ∧ Q s := by
  obtain ⟨s,hs,hp⟩ := h
  rw [hs] at hq
  exact ⟨s,hs,hp,hq⟩

theorem Leaves.and {body : Held σ → Held σ} {m : Held σ} {P Q : σ → Prop} (h : Leaves body m P)
    (hq : Q (body m).state) : Leaves body m fun s => P s ∧ Q s := by
  obtain ⟨s,ns,hs,hp⟩ := h
  rw [hs] at hq
  exact ⟨s,ns,hs,hp,hq⟩

/-- Actions that do nothing may stand before those that do. -/
theorem perform_skip (start : ω → Held σ → Held σ) (call : ε → Held σ → Held σ) (es : List ε)
    (h : ∀ e ∈ es, call e = id) (as : List (Action ω ε)) (m : Held σ) :
    perform start call (es.map .emit ++ as) m = perform start call as m := by
  induction es with
  | nil => rfl
  | cons e es ih =>
    rw [List.map_cons, List.cons_append, perform, h e (by simp)]
    exact ih fun e he => h e (List.mem_cons_of_mem _ he)

/-! Two objects whose states are related, in the same frames. -/

structure Alike (R : σ → σ → Prop) (m n : Held σ) : Prop where
  state : R m.state n.state
  locals : m.locals = n.locals
  resumed : m.resumed = n.resumed

def Respects (R : σ → σ → Prop) (f : Held σ → Held σ) : Prop :=
  ∀ m n, Alike R m n → Alike R (f m) (f n)

section Respects

variable {R : σ → σ → Prop}

theorem respects_id : Respects R id := fun _ _ h => h

theorem Respects.comp {f g : Held σ → Held σ} (hf : Respects R f) (hg : Respects R g) :
    Respects R fun m => f (g m) := fun _ _ h => hf _ _ (hg _ _ h)

theorem respects_modify (g : σ → σ) (hg : ∀ s t, R s t → R (g s) (g t)) :
    Respects R (modify g) := fun _ _ h => ⟨hg _ _ h.state,h.locals,h.resumed⟩

theorem respects_hold {body : Held σ → Held σ} (h : Respects R body) :
    Respects R (hold body) := by
  intro m n hmn
  have hbody := h { m with locals := m.locals+1 } { n with locals := n.locals+1 }
    ⟨hmn.state,congrArg (·+1) hmn.locals,hmn.resumed⟩
  exact ⟨hbody.state,congrArg (·-1) hbody.locals,hbody.resumed⟩

theorem respects_resume (stored : σ → ℕ) (g : σ → σ) (hs : ∀ s t, R s t → stored s = stored t)
    (hg : ∀ s t, R s t → R (g s) (g t)) : Respects R (resume stored g) := by
  intro m n h
  refine ⟨hg _ _ h.state,h.locals,?_⟩
  rw [resume, resume, owners, owners, h.resumed, h.locals, hs _ _ h.state]

theorem respects_if (c : σ → Prop) [DecidablePred c] {f g : Held σ → Held σ}
    (hc : ∀ s t, R s t → (c s ↔ c t)) (hf : Respects R f) (hg : Respects R g) :
    Respects R fun m => if c m.state then f m else g m := by
  intro m n h
  by_cases hm : c m.state
  · simp only [if_pos hm, if_pos ((hc _ _ h.state).mp hm)]
    exact hf m n h
  · simp only [if_neg hm, if_neg (mt (hc _ _ h.state).mpr hm)]
    exact hg m n h

theorem respects_perform (start : ω → Held σ → Held σ) (call : ε → Held σ → Held σ)
    (hs : ∀ op, Respects R (start op)) (hc : ∀ e, Respects R (call e)) (as : List (Action ω ε)) :
    Respects R (perform start call as) := by
  induction as with
  | nil => exact respects_id
  | cons a as ih =>
    cases a with
    | start op => exact ih.comp (hs op)
    | emit e => exact ih.comp (hc e)

theorem respects_enact (owned : ε → Bool) (start : ω → Held σ → Held σ)
    (call : ε → Held σ → Held σ) (g : σ → σ) (hs : ∀ op, Respects R (start op))
    (hc : ∀ e, Respects R (call e)) (hg : ∀ s t, R s t → R (g s) (g t))
    (as : List (Action ω ε)) : Respects R (enact owned start call g as) := by
  have hall : Respects R fun m => perform start call as (m.modify g) :=
    (respects_perform start call hs hc as).comp (respects_modify g hg)
  intro m n h
  unfold enact
  split_ifs
  · exact respects_hold hall m n h
  · exact hall m n h

end Respects

end Held
end Ownership
