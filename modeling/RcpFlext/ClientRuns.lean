import RcpFlext.Websocket
import RcpFlext.Library.Runs

/- websocketClient as a machine of its own: connect and disconnect as they are called, and
   the events of every connection made so far. -/
namespace ClientRuns
open Websocket Client

inductive Event where
  | connect (uri subprotocol : Text) (attempt : Attempt)
  | disconnect
  | opened (c : Nat)
  | failed (c : Nat) (code : BitVec 16)
  | closed (c : Nat) (code : BitVec 16)
  deriving DecidableEq

/-- Besides the next client a step gives the listener call it makes. -/
def step (noSsl : Bool) : Runs.Machine Client Event (Option Callback) := fun w e =>
  match e with
  | .connect uri subprotocol attempt => some (w.connect noSsl uri subprotocol attempt, none)
  | .disconnect => some (w.disconnect, none)
  | .opened c => w.onOpen c
  | .failed c code => w.onFail c code
  | .closed c code => w.onClose c code

def Heard (w : Client) : Prop :=
  ∀ c k, w.connections[c]? = some k → w.IsCurrent c → k.openHandler = true ∧ k.failHandler = true

theorem fresh_heard : Heard Client.fresh := by
  intro c k found
  contradiction

theorem disconnect_heard (w : Client) : Heard w.disconnect :=
  fun c _ _ current => absurd current (disconnect_not_current w c)

theorem connect_current {noSsl : Bool} {w : Client} {uri subprotocol : Text} {attempt : Attempt}
    {c : Nat} (current : (w.connect noSsl uri subprotocol attempt).IsCurrent c) :
    (w.connect noSsl uri subprotocol attempt).connections =
        w.disconnect.connections ++ [.create uri subprotocol attempt] ∧
      c = w.disconnect.connections.length := by
  rcases connect_cases noSsl w uri subprotocol attempt with same | ⟨connections, taken⟩
  · rw [same] at current
    exact absurd current (disconnect_not_current w c)
  · refine ⟨connections, ?_⟩
    rcases taken with t | t <;> rcases current with h | h <;> simp [t] at h <;> exact h.symm

theorem connect_heard (noSsl : Bool) (w : Client) (uri subprotocol : Text) (attempt : Attempt) :
    Heard (w.connect noSsl uri subprotocol attempt) := by
  intro c k found current
  obtain ⟨connections, last⟩ := connect_current current
  rw [connections, last, List.getElem?_concat_length] at found
  cases found
  exact ⟨rfl, rfl⟩

theorem settle_heard {w : Client} (heard : Heard w) (c : Nat) (state : Session) :
    Heard (w.settle c state) := by
  intro d k found current
  rw [settle_at, Option.map_eq_some_iff] at found
  obtain ⟨old, was, eq⟩ := found
  have handlers := heard d old was current
  subst eq
  split
  · exact handlers
  · exact handlers

section
variable {w next : Client} {c : Nat} {code : BitVec 16} {call : Option Callback}

theorem onOpen_reports (slots : Slots w) (heard : Heard w) (done : w.onOpen c = some (next, call)) :
    w.stateOf c = some .connecting ∧ next = w.settle c .opened ∧
      call = if w.IsCurrent c then some .connected else none := by
  obtain ⟨state, settled, _⟩ := onOpen_cases done
  refine ⟨state, settled, ?_⟩
  obtain ⟨k, found, rest⟩ := Option.bind_eq_some_iff.mp done
  split at rest
  · cases rest
    by_cases current : w.IsCurrent c
    · rw [(heard c k found current).1, if_pos current]
      rfl
    · rw [(slots.released c k found current).1, if_neg current]
      rfl
  · contradiction

theorem onFail_reports (slots : Slots w) (heard : Heard w)
    (done : w.onFail c code = some (next, call)) :
    w.stateOf c = some .connecting ∧ next = w.settle c .closed ∧
      call = if w.IsCurrent c then some (.failed code) else none := by
  obtain ⟨state, settled, _⟩ := onFail_cases slots done
  refine ⟨state, settled, ?_⟩
  obtain ⟨k, found, rest⟩ := Option.bind_eq_some_iff.mp done
  split at rest
  · cases rest
    by_cases current : w.IsCurrent c
    · rw [(heard c k found current).2, if_pos current, codeOf, if_pos current]
      rfl
    · rw [(slots.released c k found current).2.1, if_neg current]
      rfl
  · contradiction

end

theorem step_slots (noSsl : Bool) (w : Client) (e : Event) (next : Client × Option Callback)
    (slots : Slots w) (stepped : step noSsl w e = some next) : Slots next.1 := by
  cases e with
  | connect uri subprotocol attempt =>
    cases stepped
    exact connect_slots slots noSsl uri subprotocol attempt
  | disconnect =>
    cases stepped
    exact disconnect_slots slots
  | opened c =>
    rw [(onOpen_cases stepped).2.1]
    exact settle_slots slots c .opened
  | failed c code =>
    rw [(onFail_cases slots stepped).2.1]
    exact settle_slots slots c .closed
  | closed c code =>
    rw [(onClose_cases slots stepped).2.1]
    exact settle_slots slots c .closed

structure Kept (w : Client) : Prop where
  slots : Slots w
  heard : Heard w

theorem fresh_kept : Kept Client.fresh := ⟨fresh_slots, fresh_heard⟩

theorem step_kept (noSsl : Bool) (w : Client) (e : Event) (next : Client × Option Callback)
    (kept : Kept w) (stepped : step noSsl w e = some next) : Kept next.1 := by
  refine ⟨step_slots noSsl w e next kept.slots stepped, ?_⟩
  cases e with
  | connect uri subprotocol attempt =>
    cases stepped
    exact connect_heard noSsl w uri subprotocol attempt
  | disconnect =>
    cases stepped
    exact disconnect_heard w
  | opened c =>
    rw [(onOpen_cases stepped).2.1]
    exact settle_heard kept.heard c .opened
  | failed c code =>
    rw [(onFail_cases kept.slots stepped).2.1]
    exact settle_heard kept.heard c .closed
  | closed c code =>
    rw [(onClose_cases kept.slots stepped).2.1]
    exact settle_heard kept.heard c .closed

end ClientRuns
