import RcpFlext.EventReplay
import RcpFlext.ServerSend

/- Replies of rcp.server: `received` hands on the client's pointer, and `sendToOne` walks the
   whole set for it. What another connection is like never matters to a reply. -/
namespace Replies
open Websocket WebsocketServer ServerSend Rosters ServerRoster EventReplay
open ClientCount (inCall)

namespace WebsocketServerTransporter

/-- A connection lies at its `address`, and an answer is for whatever lies there by now. -/
def sendToOne (s : Server) (sessions : Nat → Option Session) (address : Nat → Nat) (data : Text)
    (id : Option Nat) : Sending :=
  if s.listening then
    match id with
    | none => ⟨[], none⟩
    | some id =>
      walk (fun hdl =>
        if (sessions hdl).isSome then
          if id = address hdl then send sessions hdl data else .ok []
        else .ok []) s.m_connections.hdls
  else ⟨[], none⟩

def received (m_transporter : Option Bool) (data : Text) (client : Nat) : Option (Text × Nat) :=
  if m_transporter = some true ∧ 0 < data.length then some (data, client) else none

end WebsocketServerTransporter

open WebsocketServerTransporter

section
variable {body : Nat → Except SendError (List Delivery)}

theorem walk_silent {hdls : List Nat} (silent : ∀ hdl ∈ hdls, body hdl = .ok []) :
    walk body hdls = ⟨[], none⟩ := by
  induction hdls with
  | nil => rfl
  | cons hdl rest ih =>
    obtain ⟨first, later⟩ := List.forall_mem_cons.mp silent
    rw [walk, first]
    simp only [ih later, List.append_nil]

theorem walk_single {hdls : List Nat} {id : Nat} (distinct : hdls.Nodup) (inside : id ∈ hdls)
    (others : ∀ hdl, hdl ≠ id → body hdl = .ok []) : walk body hdls = walk body [id] := by
  induction hdls with
  | nil => contradiction
  | cons hdl rest ih =>
    obtain ⟨fresh, distinct⟩ := List.nodup_cons.mp distinct
    by_cases here : hdl = id
    · subst here
      have rest_silent : walk body rest = ⟨[], none⟩ := by
        apply walk_silent
        intro other mem
        apply others
        intro same
        exact fresh (same ▸ mem)
      rw [walk, walk, rest_silent]
      rfl
    · have later : id ∈ rest := (List.mem_cons.mp inside).resolve_left (fun eq => here eq.symm)
      rw [walk, others hdl here, ih distinct later]
      simp

end

section
variable {s : Server} {sessions : Nat → Option Session} {address : Nat → Nat} {data : Text}
  {client : Nat}

/-- Where nobody else lies at the client's address, a reply goes out once, or not at all, or
    throws, as the client is: open, gone or on its way out. -/
theorem sendToOne_alone (listening : s.listening = true)
    (alone : ∀ hdl, (sessions hdl).isSome → address hdl = address client → hdl = client) :
    sendToOne s sessions address data (some (address client)) =
      if client ∈ s.m_connections.hdls ∧ (sessions client).isSome then
        if sessions client = some .opened then ⟨[⟨client, data, .binary⟩], none⟩
        else ⟨[], some .invalid_state⟩
      else ⟨[], none⟩ := by
  have others (hdl) (other : hdl ≠ client) : (if (sessions hdl).isSome then
      if address client = address hdl then send sessions hdl data else .ok []
      else .ok []) = .ok [] := by
    split
    · rename_i there
      rw [if_neg (fun same => other (alone hdl there same.symm))]
    · rfl
  unfold sendToOne
  rw [if_pos listening]
  by_cases inside : client ∈ s.m_connections.hdls
  · simp only
    rw [walk_single s.m_connections.distinct inside others]
    cases found : sessions client with
    | none => simp [walk, found]
    | some state =>
      by_cases opened : state = .opened <;> simp [walk, send, found, opened, inside]
  · rw [if_neg (fun both => inside both.1)]
    apply walk_silent
    intro hdl mem
    exact others hdl (fun same => inside (same ▸ mem))

end

/-- Nothing has come from the network, and nothing can yet. -/
structure Unheard (s : Server) : Prop where
  threads : ∀ i : Nat, s.threads[i]? ≠ some .polling ∧ s.threads[i]? ≠ some .notifying
  come : toCome s = []
  call : inCall s = none

section
variable {s : Server} {e : EventReplay.Event} {next : Server × Option Effect}

theorem step_listening (stepped : EventReplay.step s e = some next)
    (listening : s.listening = true) : next.1.listening = true := by
  cases step_does stepped with
  | works locks _ works => cases works <;> exact listening
  | listens i => rfl
  | handles | runs | wakes | ends | notifies => exact listening

theorem step_unheard (stepped : EventReplay.step s e = some next) (unheard : Unheard s) :
    next.1.listening = true ∨ Unheard next.1 := by
  have moved := step_moved stepped
  have come (nothing : queued e = []) : applied s e = [] ∧ toCome next.1 = [] := by
    simpa [unheard.come, nothing] using moved.queue
  have call (nothing : queued e = []) : inCall next.1 = none := by
    have hand := moved.hand
    rw [unheard.call, (come nothing).1] at hand
    simpa using (List.append_eq_nil_iff.mp hand.symm).2
  cases step_does stepped with
  | handles i a polling => exact absurd polling (unheard.threads i).1
  | works locks _ works =>
    have same : next.1.threads = s.threads := by cases works <;> rfl
    exact .inr ⟨same ▸ unheard.threads, (come rfl).2, call rfl⟩
  | runs port =>
    refine .inr ⟨fun i => ?_, (come rfl).2, call rfl⟩
    have now := unheard.threads i
    simp only [Server.run, List.getElem?_append, List.getElem?_singleton]
    split
    · exact now
    · split <;> simp
  | wakes => exact .inr ⟨unheard.threads, (come rfl).2, call rfl⟩
  | listens i => exact .inl rfl
  | ends i =>
    refine .inr ⟨fun j => ?_, (come rfl).2, call rfl⟩
    have now := unheard.threads j
    simp only [Server.goes, List.getElem?_set]
    split
    · split <;> simp
    · exact now
  | notifies i notifying => exact absurd notifying (unheard.threads i).2

end

section
variable {es : List EventReplay.Event} {t : Server}

theorem listening_run (ran : Runs.run EventReplay.step Server.create es = some t)
    (calling : inCall t ≠ none) : t.listening = true := by
  have kept : t.listening = true ∨ Unheard t := by
    refine @Runs.run_keeps _ _ _ _ (fun s => s.listening = true ∨ Unheard s) ?_ _ _ es ?_ ran
    · intro s e next kept stepped
      rcases kept with listening | unheard
      · exact .inl (step_listening stepped listening)
      · exact step_unheard stepped unheard
    · exact .inr ⟨by simp [Server.create], rfl, rfl⟩
  exact kept.resolve_right (fun unheard => calling unheard.call)

theorem sender_inside (ran : Runs.run EventReplay.step Server.create es = some t)
    (ordered : Ordered (queuedIn es)) {hdl : Nat} {msg : Message}
    (calling : inCall t = some (.message hdl msg)) : hdl ∈ t.m_connections.hdls := by
  have queue := queued_run ran
  rw [calling] at queue
  have so_far : queuedIn es =
      (processedIn es).map Prod.fst ++ .message hdl msg :: toCome t := by
    rw [queue]
    rfl
  rw [so_far] at ordered
  obtain ⟨come, stayed⟩ := between_of_ordered ordered
  rw [set_run ran, calling, mem_after_iff]
  · simp [come, stayed]
  · apply ordered_before (m := toCome t)
    simpa using ordered

end

theorem callback_received {a : Action} {derived locks : Bool} {payload : Text} {client : Nat}
    (called : a.callback derived locks = some (.received payload client)) :
    ∃ msg, a = .message client msg := by
  cases a with
  | subscribe hdl | unsubscribe hdl => cases derived <;> cases called
  | message hdl msg =>
    simp only [Action.callback] at called
    by_cases binary : msg.opcode = .binary
    · cases derived <;> cases locks <;> simp [binary] at called
      exact ⟨msg, by rw [called.2]⟩
    · simp [binary] at called

theorem received_from {t : Server} {next : Server × Option Effect} {locks : Bool} {payload : Text}
    {client : Nat} (stepped : EventReplay.step t (.beside (.worker locks)) = some next)
    (said : next.2 = some (.received payload client)) :
    (∃ msg, inCall t = some (.message client msg)) ∧ next.1.m_connections = t.m_connections := by
  have did := step_beside stepped
  rcases effect_cases did said with ⟨_, a, _, at_call, called⟩ | ⟨other, _⟩
  · obtain ⟨msg, eq⟩ := callback_received called
    subst eq
    refine ⟨⟨msg, by rw [inCall, at_call]⟩, ?_⟩
    cases step_works did with
    | changes b at_change => simp [at_call] at at_change
    | starts | goes_on | leaves | waits | pops | calls => rfl
  · contradiction

theorem gone_outside {es : List EventReplay.Event} {t : Server}
    (ran : Runs.run EventReplay.step Server.create es = some t) (ordered : Ordered (queuedIn es))
    {gone : Nat} (left : .unsubscribe gone ∈ (processedIn es).map Prod.fst) :
    gone ∉ t.m_connections.hdls := by
  rw [queued_run ran, ← List.append_assoc] at ordered
  rw [set_run ran, mem_after_iff (ordered_before ordered)]
  simp [left]

/-- Until the server is stopped, a client that asks gets its answer: what `received` is told of a
    message leads `sendToOne` to its sender, if that is still open, whatever the other connections
    are like and whoever else has come or gone. An answer to a client that has gone goes nowhere,
    and throws nothing, unless another connection lies at its address by then. -/
theorem reply_reaches_sender (es : List EventReplay.Event) (t : Server)
    (next : Server × Option Effect) (locks : Bool) (payload answer : Text) (client : Nat)
    (sessions : Nat → Option Session) (address : Nat → Nat)
    (apart : ∀ a b, (sessions a).isSome → (sessions b).isSome → address a = address b → a = b)
    (ran : Runs.run EventReplay.step Server.create es = some t) (ordered : Ordered (queuedIn es))
    (stepped : EventReplay.step t (.beside (.worker locks)) = some next)
    (said : next.2 = some (.received payload client)) (some_data : 0 < payload.length) :
    received (some true) payload (address client) = some (payload, address client) ∧
      (sessions client = some .opened →
        sendToOne next.1 sessions address answer (some (address client)) =
          ⟨[⟨client, answer, .binary⟩], none⟩) ∧
      ∀ gone, .unsubscribe gone ∈ (processedIn es).map Prod.fst →
        (∀ hdl, (sessions hdl).isSome → address hdl = address gone → hdl = gone) →
        sendToOne next.1 sessions address answer (some (address gone)) = ⟨[], none⟩ := by
  obtain ⟨⟨msg, calling⟩, kept⟩ := received_from stepped said
  have listening := step_listening stepped (listening_run ran (by simp [calling]))
  have inside := sender_inside ran ordered calling
  refine ⟨by simp [received, some_data], fun opened => ?_, fun gone left alone => ?_⟩
  · have alone (hdl) (there : (sessions hdl).isSome) (same : address hdl = address client) :
        hdl = client := apart hdl client there (by simp [opened]) same
    rw [sendToOne_alone listening alone, kept, if_pos ⟨inside, by simp [opened]⟩, if_pos opened]
  · rw [sendToOne_alone listening alone, kept,
      if_neg (fun both => gone_outside ran ordered left both.1)]

/-- Clients 3 and 5 have come, 5 has gone, and the message of 3 is about to be handed on. -/
def asking : List EventReplay.Event :=
  [.beside (.run 9000), .beside (.listens 0), .handler 0 (.subscribe 5), .beside (.notify 0),
    .handler 0 (.subscribe 3), .beside (.notify 0), .handler 0 (.unsubscribe 5),
    .beside (.notify 0), .handler 0 (.message 3 ⟨.binary, [1]⟩), .beside (.notify 0)] ++
    List.replicate 16 (.beside (.worker true))

theorem asking_queued : queuedIn asking =
    [.subscribe 5, .subscribe 3, .unsubscribe 5, .message 3 ⟨.binary, [1]⟩] := by decide

theorem asking_ordered : Ordered (queuedIn asking) := by
  intro hdl
  rw [asking_queued]
  by_cases three : hdl = 3
  · subst three
    exact ⟨[⟨.binary, [1]⟩], [.unsubscribe 3], rfl⟩
  by_cases five : hdl = 5
  · subst five
    exact ⟨[], [], rfl⟩
  · have not_three : ¬ 3 = hdl := fun eq => three eq.symm
    have not_five : ¬ 5 = hdl := fun eq => five eq.symm
    refine ⟨[], ?_⟩
    simp [own, handle, not_three, not_five]

def onlyThree : Nat → Option Session
  | 3 => some .opened
  | 5 => some .closed
  | _ => none

def inPlace (hdl : Nat) : Nat := 4096 + 64 * hdl

theorem asked_answered : ∃ t next, Runs.run EventReplay.step Server.create asking = some t ∧
    EventReplay.step t (.beside (.worker true)) = some next ∧
    sendToOne next.1 onlyThree inPlace [2] (some 4288) = ⟨[⟨3, [2], .binary⟩], none⟩ ∧
    sendToOne next.1 onlyThree inPlace [2] (some 4416) = ⟨[], none⟩ := by
  obtain ⟨t, ran⟩ : ∃ t, Runs.run EventReplay.step Server.create asking = some t := ⟨_, rfl⟩
  cases ran
  refine ⟨_, _, rfl, rfl, ?_⟩
  have places (a b : Nat) (same : inPlace a = inPlace b) : a = b := by
    unfold inPlace at same
    omega
  have answered := reply_reaches_sender asking _ _ true [1] [2] 3 onlyThree inPlace
    (fun a b _ _ same => places a b same) rfl asking_ordered rfl rfl (by decide)
  exact ⟨answered.2.1 rfl, answered.2.2 5 (by decide) fun hdl _ same => places hdl 5 same⟩

end Replies
