import ProxySwiss.StreamObject
import Mathlib.Logic.Function.Basic

/-!
# Ledgers of sockets

One object may use a socket after another has left it. A ledger has what was
taken from each socket and what was handed to it, by whomever. What an object
has moved since it began is the end of what its socket has in the ledger.
-/

set_option autoImplicit false

namespace StreamLedger
open CallbackObject StreamObject

variable {ι σ κ β η ε : Type*}

structure Ledger (ι β : Type*) where
  taken : ι → List β := fun _ => []
  sent : ι → List β := fun _ => []

/-- A stream begins with at most one message of the code. -/
def PrefixFree (Code : List β → Prop) : Prop :=
  ∀ m m' s, Code m → Code m' → m <+: s → m' <+: s → m = m'

theorem PrefixFree.strip {Code : List β → Prop} (h : PrefixFree Code) (m m' x y : List β)
    (hm : Code m) (hm' : Code m') (hpre : m ++ x <+: m' ++ y) : m = m' ∧ x <+: y := by
  obtain rfl := h m m' (m' ++ y) hm hm' ((List.prefix_append m x).trans hpre)
    (List.prefix_append m' y)
  exact ⟨rfl,(List.prefix_append_right_inj m).mp hpre⟩

/-- The object began when `t` had been taken from its socket and `u` had been
handed to it, and nobody else has used the socket since. -/
structure Carries (l : Ledger ι β) (a : ι) (t u : List β) (c : State σ κ β η ε) : Prop where
  taken : l.taken a = t ++ StreamObject.taken c
  sent : l.sent a = u ++ StreamObject.sent c

theorem carries_begun (l : Ledger ι β) (a : ι) (r : σ × List (Action (Op β κ) ε)) :
    Carries l a (l.taken a) (l.sent a) (Conf.begun r : State σ κ β η ε) :=
  ⟨(List.append_nil _).symm,(List.append_nil _).symm⟩

theorem carries_invoke (l : Ledger ι β) (a : ι) (t u : List β) (c : State σ κ β η ε)
    (r : σ × List (Action (Op β κ) ε)) (h : Carries l a t u c) :
    Carries l a t u (c.invoke r) := ⟨h.taken,h.sent⟩

section Moves

variable [DecidableEq ι]

namespace Ledger

def take (l : Ledger ι β) (a : ι) (d : List β) : Ledger ι β :=
  { l with taken := Function.update l.taken a (l.taken a ++ d) }

def send (l : Ledger ι β) (a : ι) (d : List β) : Ledger ι β :=
  { l with sent := Function.update l.sent a (l.sent a ++ d) }

/-- An operation has moved `d` on its socket. -/
def move (l : Ledger ι β) (a : ι) (op : Op β κ) (d : List β) : Ledger ι β :=
  (l.take a (op.received d)).send a (op.handed d)

@[simp] theorem taken_take (l : Ledger ι β) (a : ι) (d : List β) :
    (l.take a d).taken a = l.taken a ++ d := Function.update_self ..

@[simp] theorem sent_take (l : Ledger ι β) (a b : ι) (d : List β) :
    (l.take a d).sent b = l.sent b := rfl

@[simp] theorem sent_send (l : Ledger ι β) (a : ι) (d : List β) :
    (l.send a d).sent a = l.sent a ++ d := Function.update_self ..

@[simp] theorem taken_send (l : Ledger ι β) (a b : ι) (d : List β) :
    (l.send a d).taken b = l.taken b := rfl

theorem taken_take_other (l : Ledger ι β) (a b : ι) (d : List β) (h : b ≠ a) :
    (l.take a d).taken b = l.taken b := Function.update_of_ne h ..

theorem sent_send_other (l : Ledger ι β) (a b : ι) (d : List β) (h : b ≠ a) :
    (l.send a d).sent b = l.sent b := Function.update_of_ne h ..

theorem taken_move (l : Ledger ι β) (a : ι) (op : Op β κ) (d : List β) :
    (l.move a op d).taken a = l.taken a ++ op.received d := taken_take ..

theorem sent_move (l : Ledger ι β) (a : ι) (op : Op β κ) (d : List β) :
    (l.move a op d).sent a = l.sent a ++ op.handed d := sent_send ..

theorem move_other (l : Ledger ι β) (a b : ι) (op : Op β κ) (d : List β) (h : b ≠ a) :
    (l.move a op d).taken b = l.taken b ∧ (l.move a op d).sent b = l.sent b :=
  ⟨taken_take_other l a b _ h,sent_send_other (l.take a _) a b _ h⟩

end Ledger

theorem carries_next (o : Object σ κ β η ε) (l : Ledger ι β) (a : ι) (t u : List β)
    (c : State σ κ β η ε) (op : Op β κ) (res : Result β η) (h : Carries l a t u c) :
    Carries (l.move a op res.data) a t u (c.next o [] [] op res) := by
  constructor
  · rw [Ledger.taken_move, h.taken, taken_next, List.append_assoc]
  · rw [Ledger.sent_move, h.sent, sent_next, List.append_assoc]

end Moves
end StreamLedger
