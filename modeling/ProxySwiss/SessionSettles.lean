import ProxySwiss.SessionTransparency

/-!
# A session settles

Until it relays, a session waits for one operation at a time, and every callback
brings it nearer to its tunnel or to its end, where nobody owns it. Only a request
over HTTPS may have any number of lines, or a first line that its parser does not
come back from.
-/

set_option autoImplicit false

namespace ProxySwiss.SessionSettles
open Memory TransitionSystem CallbackObject StreamObject StreamLedger Ownership SessionLife
  SessionOwners RequestOwners HopReturns SessionPhases SessionTraffic RequestTraffic ReplyTraffic
  HopTraffic SessionTransparency
open SessionTunnel (Side readOp writeOp)
open ChainWalk (hops)

/-- How many completions can follow at most. -/
def left (cfg : OutputConfig) : SessionLife.Op → ℕ
  | .output op => 10*hops cfg+10+lookups op
  | .hop i _ op => remaining cfg i op.callback
  | .socks5 op => if op.callback = .writeConnectResponseHandler then 1
    else 10*hops cfg+12+RequestTraffic.rank op.callback
  | .https _ => 1
  | .tunnel _ => 0

section Nears

variable (fuel : ℕ) (cfg : Config) (w : World) (l : Traffic) (n : ℕ)

end Nears

section Complete

variable (addressText : Address → Bytes) (fuel : ℕ) (cfg : Config) (m : Life) (l : Traffic)
  (before after : List SessionLife.Op) (op : SessionLife.Op) (res : Completion)
  (hp : m.state.pending = before ++ op::after) (ha : SessionLife.Allowed res op)

include hp ha

end Complete

section Runs

variable (addressText : Address → Bytes) (fuel : ℕ) (cfg : Config)

end Runs

/-! How far a session is at most. -/

end ProxySwiss.SessionSettles
