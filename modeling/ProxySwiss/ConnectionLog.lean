import ProxySwiss.Numerals
import ProxySwiss.Server

/-!
# The log of connections

A server writes each destination that was reached once, when it is reached for
the first time. The entry is the text of the host, a colon and the port; the
text may have colons in it, but the port has none, so that the last colon tells
the two apart.
-/

set_option autoImplicit false

namespace ProxySwiss.ConnectionLog
open Memory TransitionSystem CallbackObject FirstOccurrences Text Server
open Session (Session)

/-- The text of a host with a port. -/
structure Place where
  host : Bytes
  port : UInt16
  deriving DecidableEq

def hostText (addressText : Address → Bytes) (dst : Destination) : Bytes :=
  if dst.usingHostname then dst.hostname else addressText dst.ipAddress

def place (addressText : Address → Bytes) (dst : Destination) : Place :=
  ⟨hostText addressText dst,dst.port⟩

def entry (p : Place) : Bytes := p.host ++ [0x3a] ++ strFromUint p.port.toNat

theorem idStr_entry (addressText : Address → Bytes) (dst : Destination) :
    Session.idStr addressText dst = entry (place addressText dst) := rfl

theorem colon_not_port (n : ℕ) : 0x3a ∉ strFromUint n := by
  intro h
  exact absurd ((strFromUint_decimal n).digit _ h) (by decide)

/-- What stands behind the last colon is the port. -/
theorem entry_injective : Function.Injective entry := by
  rintro ⟨host,port⟩ ⟨host',port'⟩ h
  have hsplit : ∀ (s : Bytes) (n : ℕ), (s ++ [0x3a] ++ strFromUint n).reverse =
      (strFromUint n).reverse ++ 0x3a::s.reverse := by
    intro s n
    simp
  have hbefore : ∀ (s : Bytes) (n : ℕ),
      before 0x3a (s ++ [0x3a] ++ strFromUint n).reverse = (strFromUint n).reverse ∧
      behind 0x3a (s ++ [0x3a] ++ strFromUint n).reverse = 0x3a::s.reverse := by
    intro s n
    have hno : 0x3a ∉ (strFromUint n).reverse := by
      rw [List.mem_reverse]
      exact colon_not_port n
    rw [hsplit, before_append _ _ _ hno, behind_append _ _ _ hno]
    simp
  have hrev := congrArg List.reverse h
  have hport := congrArg (before 0x3a) hrev
  have hhost := congrArg (behind 0x3a) hrev
  simp only [entry] at hport hhost
  rw [(hbefore _ _).1, (hbefore _ _).1, List.reverse_inj] at hport
  rw [(hbefore _ _).2, (hbefore _ _).2, List.cons.injEq, List.reverse_inj] at hhost
  have hnum := strFromUint_decimal port.toNat
  rw [hport] at hnum
  have hn := decimal_unique _ _ _ hnum (strFromUint_decimal port'.toNat)
  rw [hhost.2, UInt16.toNat_inj.mp hn]

/-- The places of the connects that have succeeded so far, in their order. -/
def places (addressText : Address → Bytes) (v : Server) : List Place :=
  (v.connects.filter (·.2.success)).map fun c => place addressText c.1

def serverJournal (v : Server) : Journal Bytes := ⟨v.log,v.history⟩

def Kept (addressText : Address → Bytes) (v : Server) : Prop :=
  (serverJournal v).Holds ((places addressText v).map entry)

section AddressText

variable (addressText : Address → Bytes)

/-- A callback of one session, whatever the others have done before it. -/
theorem settle_kept (v : Server) (before after : List Live) (s : Session)
    (pending : List Session.Op) (r : Session.Effect) (h : Kept addressText v)
    (hr : Written addressText (lend v s) r) :
    Kept addressText (settle v before after pending r) := by
  have hplaces : (places addressText (settle v before after pending r)).map entry =
      (places addressText v).map entry ++ (successes (emitted r.2)).map fun _ =>
        Session.idStr addressText r.1.dst := by
    simp only [places, settle, List.filter_append, List.map_append, List.filter_map, List.map_map,
      idStr_entry]
    rfl
  have hjournal : serverJournal (settle v before after pending r) = journal r.1 := rfl
  rw [Kept, hplaces, hjournal, hr]
  exact Journal.holds_notes _ _ _ h

theorem accept_kept (v : Server) (err : ErrorCode) (h : Kept addressText v) :
    Kept addressText (handleAccept addressText v err) := by
  unfold handleAccept
  split
  · split_ifs
    · exact h
    · exact settle_kept addressText v v.accepted [] _ [] _ h (start_written addressText _)
  · exact h

theorem step_kept (v w : Server) (h : Kept addressText v) (ht : Step addressText v w) :
    Kept addressText w := by
  cases ht with
  | accept err => exact accept_kept addressText v err h
  | complete before after s ops ops' op res hv =>
    exact settle_kept addressText v _ _ _ _ _ h (done_written addressText op res _)
  | tunnel before after s ops k buf data err n hv =>
    have hq := quiet_tunnel (lend v s) k buf data err n
    exact settle_kept addressText v _ _ _ _ _ h ((hq.noted addressText).written addressText)

/-- In every run of a server, however its sessions are interleaved, the log has
one entry for each place that was reached, in the order of the first successes,
and the history is the set of these entries. -/
theorem connection_log_law (cfg : Config) (printProxyErrors : Bool) (v : Server)
    (h : Run (Step addressText) (start cfg printProxyErrors) v) :
    v.log = (places addressText v).eraseDups.map entry ∧
    (∀ p, v.log.count (entry p) = if p ∈ places addressText v then 1 else 0) ∧
    (∀ e, e ∈ v.history ↔ e ∈ v.log) ∧ v.history.Nodup ∧
    ∀ p q : Place, p.host ≠ q.host ∨ p.port ≠ q.port → entry p ≠ entry q := by
  have hkept := run_invariant (Kept addressText) (step_kept addressText) h
    (Journal.holds_empty : Kept addressText (start cfg printProxyErrors))
  have hlog := hkept.log
  have hhistory := hkept.history
  rw [eraseDups_map entry entry_injective] at hlog hhistory
  change v.log = _ at hlog
  change v.history = _ at hhistory
  refine ⟨hlog,fun p => ?_,fun e => by rw [hlog, hhistory],?_,fun p q hpq he => ?_⟩
  · rw [hlog, List.count_map_of_injective _ _ entry_injective, count_eraseDups]
  · rw [hhistory]
    exact (nodup_eraseDups _).map entry_injective
  · rw [entry_injective he] at hpq
    simp at hpq

end AddressText

def sharedConfig : Config := ⟨.tunnel ⟨[],.v4 0,80⟩,.direct⟩

def sharedText : Address → Bytes := fun _ => ascii "::1"

/-- Two sessions are accepted, and the later one connects first. -/
theorem connection_log_law_shared : ∃ v, Run (Step sharedText) (start sharedConfig false) v ∧
    v.connects.length = 2 ∧ v.log = [ascii "::1:80"] := by
  obtain ⟨v,hv,hconnects⟩ : ∃ v, Run (Step sharedText) (start sharedConfig false) v ∧
      v.connects = [(⟨[],.v4 0,80⟩,{ success := true }),(⟨[],.v4 0,80⟩,{ success := true })] :=
    ⟨_,.tail (.tail (.tail (.tail .refl (.accept _ .noError)) (.accept _ .noError))
      (.complete _ [_] [] _ [] [] _ {} rfl)) (.complete _ [] [_] _ [] [] _ {} rfl),rfl⟩
  refine ⟨v,hv,by rw [hconnects]; rfl,?_⟩
  rw [(connection_log_law sharedText sharedConfig false v hv).1, places, hconnects]
  decide

end ProxySwiss.ConnectionLog
