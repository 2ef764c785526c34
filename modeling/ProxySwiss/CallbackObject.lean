import ProxySwiss.TransitionSystem
import Mathlib.Data.List.Basic

/-!
# Objects driven by completions

An object owns no thread. It starts operations and is called back once for
each of them, with a result chosen by the environment. A callback may start
further operations and report events to its user. The callbacks considered
here start at most one operation each, and this is carried by the object.
-/

set_option autoImplicit false

namespace CallbackObject
open TransitionSystem

variable {σ ω ρ ε : Type*}

inductive Action (ω ε : Type*) where
  | start (op : ω)
  | emit (e : ε)
  deriving DecidableEq, Repr

def started : List (Action ω ε) → List ω
  | [] => []
  | .start op::as => op::started as
  | .emit _::as => started as

def emitted : List (Action ω ε) → List ε
  | [] => []
  | .start _::as => emitted as
  | .emit e::as => e::emitted as

@[simp] theorem started_nil : started ([] : List (Action ω ε)) = [] := rfl
@[simp] theorem started_start (op : ω) (as : List (Action ω ε)) :
    started (.start op::as) = op::started as := rfl
@[simp] theorem started_emit (e : ε) (as : List (Action ω ε)) :
    started (.emit e::as) = started as := rfl
@[simp] theorem emitted_nil : emitted ([] : List (Action ω ε)) = [] := rfl
@[simp] theorem emitted_start (op : ω) (as : List (Action ω ε)) :
    emitted (.start op::as) = emitted as := rfl
@[simp] theorem emitted_emit (e : ε) (as : List (Action ω ε)) :
    emitted (.emit e::as) = e::emitted as := rfl

@[simp] theorem started_append (as bs : List (Action ω ε)) :
    started (as ++ bs) = started as ++ started bs := by
  induction as with
  | nil => rfl
  | cons a as ih => cases a <;> simp [ih]

@[simp] theorem emitted_append (as bs : List (Action ω ε)) :
    emitted (as ++ bs) = emitted as ++ emitted bs := by
  induction as with
  | nil => rfl
  | cons a as ih => cases a <;> simp [ih]

@[simp] theorem started_emits (es : List ε) :
    started (es.map Action.emit : List (Action ω ε)) = [] := by
  induction es with
  | nil => rfl
  | cons e es ih => simp [ih]

@[simp] theorem emitted_emits (es : List ε) :
    emitted (es.map Action.emit : List (Action ω ε)) = es := by
  induction es with
  | nil => rfl
  | cons e es ih => simp [ih]

/-- The same action in other terms. -/
def Action.map {ω' ε' : Type*} (f : ω → ω') (g : ε → ε') : Action ω ε → Action ω' ε'
  | .start op => .start (f op)
  | .emit e => .emit (g e)

theorem started_map {ω' ε' : Type*} (f : ω → ω') (g : ε → ε') (as : List (Action ω ε)) :
    started (as.map (Action.map f g)) = (started as).map f := by
  induction as with
  | nil => rfl
  | cons a as ih => cases a <;> simp [Action.map, ih]

theorem emitted_map {ω' ε' : Type*} (f : ω → ω') (g : ε → ε') (as : List (Action ω ε)) :
    emitted (as.map (Action.map f g)) = (emitted as).map g := by
  induction as with
  | nil => rfl
  | cons a as ih => cases a <;> simp [Action.map, ih]

theorem only_start (as : List (Action ω ε)) (op : ω) (hs : started as = [op])
    (he : emitted as = []) : as = [.start op] := by
  match as with
  | .emit e::as => simp at he
  | .start op'::as =>
    simp only [started_start, List.cons.injEq] at hs
    simp only [emitted_start] at he
    match as with
    | [] => rw [hs.1]
    | .emit e::as => simp at he
    | .start op''::as => simp at hs

theorem only_emit (as : List (Action ω ε)) (e : ε) (hs : started as = [])
    (he : emitted as = [e]) : as = [.emit e] := by
  match as with
  | .start op::as => simp at hs
  | .emit e'::as =>
    simp only [started_emit] at hs
    simp only [emitted_emit, List.cons.injEq] at he
    match as with
    | [] => rw [he.1]
    | .start op::as => simp at hs
    | .emit e''::as => simp at he

/-- `done op res` is the callback bound to `op`, run when it completes with `res`. -/
structure Sequential (σ ω ρ ε : Type*) where
  done : ω → ρ → σ → σ × List (Action ω ε)
  single : ∀ op res s, (started (done op res s).2).length ≤ 1

/-- `completed` and `events` are histories, kept to state what a run did. -/
structure Conf (σ ω ρ ε : Type*) where
  obj : σ
  pending : List ω
  completed : List (ω × ρ)
  events : List ε

/-- The state in which a method of an idle object has just returned. -/
def Conf.begun (r : σ × List (Action ω ε)) : Conf σ ω ρ ε :=
  ⟨r.1,started r.2,[],emitted r.2⟩

/-- A further method is called on the object of a running configuration. -/
def Conf.invoke (c : Conf σ ω ρ ε) (r : σ × List (Action ω ε)) : Conf σ ω ρ ε :=
  ⟨r.1,c.pending ++ started r.2,c.completed,c.events ++ emitted r.2⟩

def Conf.next (o : Sequential σ ω ρ ε) (c : Conf σ ω ρ ε) (before after : List ω)
    (op : ω) (res : ρ) : Conf σ ω ρ ε where
  obj := (o.done op res c.obj).1
  pending := before ++ after ++ started (o.done op res c.obj).2
  completed := c.completed ++ [(op,res)]
  events := c.events ++ emitted (o.done op res c.obj).2

/-- Any outstanding operation may be the next to complete, with any result
that the environment allows for it. -/
inductive Step (o : Sequential σ ω ρ ε) (allowed : ω → ρ → Prop) :
    Conf σ ω ρ ε → Conf σ ω ρ ε → Prop
  | complete (c : Conf σ ω ρ ε) (before after : List ω) (op : ω) (res : ρ)
      (hp : c.pending = before ++ op::after) (ha : allowed op res) :
      Step o allowed c (c.next o before after op res)

/-- With one operation outstanding the next step is determined by its result. -/
theorem step_cases (o : Sequential σ ω ρ ε) (allowed : ω → ρ → Prop)
    (c d : Conf σ ω ρ ε) (hc : c.pending.length ≤ 1) (h : Step o allowed c d) :
    ∃ op res, c.pending = [op] ∧ allowed op res ∧ d = c.next o [] [] op res := by
  cases h with
  | complete before after op res hp ha =>
    simp only [hp, List.length_append, List.length_cons] at hc
    have hb : before = [] := List.length_eq_zero_iff.mp (by omega)
    have ht : after = [] := List.length_eq_zero_iff.mp (by omega)
    subst hb ht
    exact ⟨op,res,hp,ha,rfl⟩

/-- The run in which the outstanding operations complete with the given results. -/
def play (o : Sequential σ ω ρ ε) : List ρ → Conf σ ω ρ ε → Conf σ ω ρ ε
  | [], c => c
  | res::rs, c => match c.pending with
    | op::_ => play o rs (c.next o [] [] op res)
    | [] => c

def Playable (o : Sequential σ ω ρ ε) (allowed : ω → ρ → Prop) :
    List ρ → Conf σ ω ρ ε → Prop
  | [], _ => True
  | res::rs, c => match c.pending with
    | [op] => allowed op res ∧ Playable o allowed rs (c.next o [] [] op res)
    | _ => False

theorem play_run (o : Sequential σ ω ρ ε) (allowed : ω → ρ → Prop) (rs : List ρ)
    (c : Conf σ ω ρ ε) (hp : Playable o allowed rs c) : Run (Step o allowed) c (play o rs c) := by
  induction rs generalizing c with
  | nil => exact .refl
  | cons res rs ih =>
    match hpend : c.pending with
    | [] => simp [Playable, hpend] at hp
    | _::_::_ => simp [Playable, hpend] at hp
    | [op] =>
      simp only [Playable, hpend] at hp
      simp only [play, hpend]
      exact .head (.complete c [] [] op res hpend hp.1) (ih _ hp.2)

end CallbackObject
