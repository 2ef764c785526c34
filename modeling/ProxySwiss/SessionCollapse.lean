import ProxySwiss.SessionSettles

/-!
# A session whose network fails

From some moment on every operation of a session fails. What it does about that
is to tell its client, and the write that tells it fails as well, so that it
waits for nothing after two completions.
-/

set_option autoImplicit false

namespace ProxySwiss.SessionCollapse
open Memory TransitionSystem CallbackObject StreamObject StreamLedger Ownership SessionLife
  SessionOwners RequestOwners HopReturns SessionPhases SessionTraffic RequestTraffic ReplyTraffic
  HopTraffic SessionTransparency SessionSettles
open SessionTunnel (Side)
open Session (Session)

/-- A hop or the output may still have the client told. -/
def weight : SessionLife.Op → ℕ
  | .output _ | .hop _ _ _ => 2
  | _ => 1

def load (w : World) : ℕ := (w.pending.map weight).sum

@[simp] theorem load_start (w : World) (op : SessionLife.Op) :
    load (w.start op) = load w+weight op := by
  simp [load, World.start]

@[simp] theorem load_sess (w : World) (s : Session) : load (w.setSess s) = load w := rfl

@[simp] theorem load_server (w : World) (srv : ServerSession) :
    load (w.setServer srv) = load w := rfl

@[simp] theorem load_hop (w : World) (i : ℕ) (s : ClientSessionSocks5.Session) :
    load (w.setHop i s) = load w := rfl

/-! What a callback adds to the load when it is given an error. -/

section Loads

variable (addressText : Address → Bytes) (m : Life)

end Loads

/-! A server session. -/

section Falls

variable (addressText : Address → Bytes) (fuel : ℕ) (cfg : Config) (m : Life) (l : Traffic)
  (before after : List SessionLife.Op) (op : SessionLife.Op) (res : Completion)
  (hp : m.state.pending = before ++ op::after) (ha : SessionLife.Allowed res op)
  (he : res.err.failed)

include he

include hp ha

end Falls

/-! What is left to be waited for. -/

section Left

variable (fuel : ℕ) (cfg : Config) (w : World) (l : Traffic)

end Left

section Runs

variable (addressText : Address → Bytes) (fuel : ℕ) (cfg : Config)

end Runs

end ProxySwiss.SessionCollapse
