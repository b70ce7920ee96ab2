import RcpFlext.EventReplay
import RcpFlext.WsServer

/- What ws.server puts out while its server runs, against a server that takes the events of
   its clients one after the other and counts who is there. -/
namespace ServerOutlets
open WebsocketServer (Server Effect Action Message)
open Rosters ServerRoster
open ClientCount (inCall)
open EventReplay (step step_moved processed processedIn queuedIn answer callbacks Ordered own)
open WsServer (Outcome PdWebsocketServer)

/-- What PdWebsocketServer does when its server calls it; `WebsocketServerImpl` only passes the
    calls on. -/
def heardFrom (s : Server) : Effect → Option Outcome
  | .connected => some (PdWebsocketServer.hear ⟨some s, none, .idle⟩ .connected)
  | .disconnected => some (PdWebsocketServer.hear ⟨some s, none, .idle⟩ .disconnected)
  | .received data _ => some (PdWebsocketServer.hear ⟨some s, none, .idle⟩ (.received data))
  | .pureCall | .print _ | .returned => none

def putOut (s : Server) (_ : EventReplay.Event) (next : Server × Option Effect) : List Outcome :=
  next.2.toList.filterMap (heardFrom s)

def outletsIn (es : List EventReplay.Event) : List Outcome :=
  Runs.told step putOut Server.create es

def voiced (clients : Int) : Action × Bool → Option Outcome
  | (.subscribe _, _) => some (.outInt 1 clients)
  | (.unsubscribe _, _) => some (.outInt 1 clients)
  | (.message _ msg, locks) =>
    if msg.opcode = .binary ∧ locks = true then
      some (.outList 0 (BytePorts.PdWebsocketServer.received msg.payload))
    else none

def count (clients : Int) : Action → Int
  | .subscribe _ => clients + 1
  | .unsubscribe _ => clients - 1
  | .message _ _ => clients

/-- A server that only counts, and takes one event after the other. -/
def serial : Int → List (Action × Bool) → List Outcome
  | _, [] => []
  | clients, p :: events =>
    (voiced (count clients p.1) p).toList ++ serial (count clients p.1) events

def turn (roster : List Nat) (a : Action) : List Nat := after roster (rosterChange a).toList

def rosters : List Nat → List (Action × Bool) → List Outcome
  | _, [] => []
  | roster, p :: events =>
    (voiced (turn roster p.1).length p).toList ++ rosters (turn roster p.1) events

section
variable {s t : Server} {es : List EventReplay.Event}

theorem heard_answer (s : Server) (p : Action × Bool) :
    (answer p).bind (heardFrom s) = voiced s.m_connections.size p := by
  obtain ⟨a, locks⟩ := p
  cases a with
  | subscribe hdl => rfl
  | unsubscribe hdl => rfl
  | message hdl msg =>
    show (if _ then _ else _ : Option Effect).bind _ = if _ then _ else _
    split <;> rfl

theorem heard_callbacks (s : Server) (effect : Option Effect) :
    effect.toList.filterMap (heardFrom s) = (callbacks effect).filterMap (heardFrom s) := by
  cases effect with
  | none => rfl
  | some f => cases f <;> rfl

/-- A step puts out what the action it has processed puts out, counted in the state before. -/
theorem step_voiced {e : EventReplay.Event} {next : Server × Option Effect}
    (whole : s.derived = true) (stepped : step s e = some next) :
    putOut s e next = (processed s e).filterMap (voiced s.m_connections.size) := by
  rw [putOut, heard_callbacks, (step_moved stepped).answered whole, List.filterMap_filterMap]
  congr 1
  funext p
  exact heard_answer s p

theorem processed_call {e : EventReplay.Event} {p : Action × Bool} {others : List (Action × Bool)}
    (done : processed s e = p :: others) : others = [] ∧ inCall s = some p.1 := by
  cases e with
  | handler i a => cases done
  | beside e =>
    cases e with
    | worker locks =>
      cases calling : inCall s with
      | none =>
        rw [processed, calling] at done
        cases done
      | some a =>
        rw [processed, calling] at done
        cases done
        exact ⟨rfl, rfl⟩
    | run | stop | destroy | main | spurious | listens | ends | handler | notify => cases done

theorem run_rosters (roster : List Nat) (whole : s.derived = true)
    (under_way : s.m_connections.hdls = (inCall s).toList.foldl turn roster)
    (ran : Runs.run step s es = some t) :
    Runs.told step putOut s es =
      rosters roster (Runs.told step (fun s e _ => processed s e) s es) := by
  induction es generalizing s roster with
  | nil => rfl
  | cons e es ih =>
    obtain ⟨next, stepped, rest⟩ := Option.bind_eq_some_iff.mp ran
    have moved := step_moved stepped
    have still := moved.derived.trans whole
    have hand := moved.hand
    have set := moved.set
    rw [Runs.told_cons stepped, Runs.told_cons stepped, step_voiced whole stepped]
    cases done : processed s e with
    | nil =>
      rw [done] at hand
      refine ih roster still ?_ rest
      rw [set, under_way]
      exact (List.foldl_append.symm).trans (congrArg (List.foldl turn roster) hand)
    | cons p others =>
      obtain ⟨last, calling⟩ := processed_call done
      have now : s.m_connections.hdls = turn roster p.1 := by
        rw [under_way, calling]
        rfl
      rw [done, calling, last] at hand
      have later := List.append_cancel_left hand
      have tail := ih (turn roster p.1) still (by rw [set, later, now]; rfl) rest
      have size : s.m_connections.size = (turn roster p.1).length := congrArg List.length now
      rw [tail, last, size, List.singleton_append, rosters]
      cases sounds : voiced (turn roster p.1).length p <;> simp [sounds]

end

section
variable {l : List Action} {a : Action}

theorem own_last (l : List Action) (a : Action) :
    own (EventReplay.handle a) (l ++ [a]) = own (EventReplay.handle a) l ++ [a] := by
  simp [own]

theorem come_fits {hdl : Nat} (ordered : Ordered (l ++ [.subscribe hdl])) :
    Action.subscribe hdl ∉ l := by
  intro come
  have here : Action.subscribe hdl ∈ own hdl l := (EventReplay.mem_own rfl).mpr come
  have twice : 2 ≤ (own hdl l ++ [Action.subscribe hdl]).count (.subscribe hdl) := by
    have once := List.count_pos_iff.mpr here
    rw [List.count_append, List.count_singleton_self]
    omega
  have now := EventReplay.ordered_cases ordered hdl
  rw [show own hdl (l ++ [.subscribe hdl]) = own hdl l ++ [.subscribe hdl] from
    own_last l (.subscribe hdl)] at now
  rcases now with none | ⟨messages, still | gone⟩
  · simp at none
  · have silent : (messages.map (Action.message hdl)).count (.subscribe hdl) = 0 :=
      List.count_eq_zero.mpr (by simp)
    rw [still, List.count_cons_self, silent] at twice
    omega
  · have ends := congrArg List.getLast? gone
    simp [List.getLast?_cons] at ends

theorem leave_fits {hdl : Nat} (ordered : Ordered (l ++ [.unsubscribe hdl])) :
    Action.subscribe hdl ∈ l ∧ Action.unsubscribe hdl ∉ l := by
  have come : Action.subscribe hdl ∈ own hdl l ↔ Action.subscribe hdl ∈ l := EventReplay.mem_own rfl
  have left : Action.unsubscribe hdl ∈ own hdl l ↔ Action.unsubscribe hdl ∈ l :=
    EventReplay.mem_own rfl
  have now := EventReplay.ordered_cases ordered hdl
  rw [show own hdl (l ++ [.unsubscribe hdl]) = own hdl l ++ [.unsubscribe hdl] from
    own_last l (.unsubscribe hdl)] at now
  rw [← come, ← left]
  rcases now with none | ⟨messages, still | gone⟩
  · simp at none
  · have there : Action.unsubscribe hdl ∈
        Action.subscribe hdl :: messages.map (Action.message hdl) := by
      rw [← still]
      simp
    simp at there
  · have before : own hdl l = .subscribe hdl :: messages.map (Action.message hdl) :=
      List.append_cancel_right (gone.trans (List.cons_append).symm)
    simp [before]

theorem fits_of_ordered (ordered : Ordered (l ++ [a])) :
    AllFit (after [] (l.filterMap rosterChange)) (rosterChange a).toList := by
  have so_far := EventReplay.ordered_before ordered
  cases a with
  | subscribe hdl =>
    refine ⟨?_, trivial⟩
    show hdl ∉ _
    rw [EventReplay.mem_after_iff so_far]
    exact fun there => come_fits ordered there.1
  | unsubscribe hdl =>
    refine ⟨?_, trivial⟩
    show hdl ∈ _
    rw [EventReplay.mem_after_iff so_far]
    exact leave_fits ordered
  | message hdl msg => trivial

theorem turn_length {roster : List Nat} (fits : AllFit roster (rosterChange a).toList) :
    count roster.length a = (turn roster a).length := by
  cases a with
  | subscribe hdl =>
    have longer := join_length fits.1
    show (roster.length : Int) + 1 = (Change.apply roster (.join hdl)).length
    omega
  | unsubscribe hdl =>
    have shorter := leave_length fits.1
    show (roster.length : Int) - 1 = (Change.apply roster (.leave hdl)).length
    omega
  | message hdl msg => rfl

theorem after_last (l : List Action) (a : Action) :
    after [] ((l ++ [a]).filterMap rosterChange) = turn (after [] (l.filterMap rosterChange)) a := by
  rw [List.filterMap_append, after_append, turn]
  cases a <;> rfl

theorem counted_after (ordered : Ordered l) :
    l.foldl count 0 = ((after [] (l.filterMap rosterChange)).length : Int) := by
  induction l using List.reverseRecOn with
  | nil => rfl
  | append_singleton l a ih =>
    rw [List.foldl_append, ih (EventReplay.ordered_before ordered), after_last,
      ← turn_length (fits_of_ordered ordered)]
    rfl

theorem serial_rosters (before : List Action) (events : List (Action × Bool))
    (ordered : Ordered (before ++ events.map Prod.fst)) :
    serial (after [] (before.filterMap rosterChange)).length events =
      rosters (after [] (before.filterMap rosterChange)) events := by
  induction events generalizing before with
  | nil => rfl
  | cons p events ih =>
    have whole : before ++ (p :: events).map Prod.fst =
        (before ++ [p.1]) ++ events.map Prod.fst := by simp
    rw [whole] at ordered
    have fits := fits_of_ordered (EventReplay.ordered_before ordered)
    have later := ih (before ++ [p.1]) ordered
    rw [after_last] at later
    rw [serial, rosters, turn_length fits, later]

end

/-- However the handlers and the worker interleave, the outlets are those of a server that takes
    the events in the order they were queued and counts, and its count is that of the set
    whenever no callback is under way. -/
theorem outlets_serial (es : List EventReplay.Event) (t : Server)
    (ran : Runs.run step Server.create es = some t) (ordered : Ordered (queuedIn es)) :
    (processedIn es).map Prod.fst <+: queuedIn es ∧
    outletsIn es = serial 0 (processedIn es) ∧
    (inCall t = none →
      (t.m_connections.size : Int) = ((processedIn es).map Prod.fst).foldl count 0) := by
  have queue := EventReplay.queued_run ran
  have in_order : Ordered ((processedIn es).map Prod.fst) :=
    EventReplay.ordered_before (queue ▸ ordered)
  refine ⟨⟨_, queue.symm⟩, ?_, ?_⟩
  · have same := run_rosters [] rfl rfl ran
    exact same.trans (serial_rosters [] (processedIn es) in_order).symm
  · intro silent
    have set := EventReplay.set_run ran
    rw [silent, Option.toList_none, List.append_nil] at set
    rw [counted_after in_order, ← set]
    rfl

theorem one_client_put_out : ∃ t, Runs.run step Server.create EventReplay.oneClient = some t ∧
    (processedIn EventReplay.oneClient).map Prod.fst <+: queuedIn EventReplay.oneClient ∧
    outletsIn EventReplay.oneClient = serial 0 (processedIn EventReplay.oneClient) ∧
    (inCall t = none → (t.m_connections.size : Int) =
      ((processedIn EventReplay.oneClient).map Prod.fst).foldl count 0) :=
  ⟨_, rfl, outlets_serial EventReplay.oneClient _ rfl EventReplay.oneClient_ordered⟩

end ServerOutlets
