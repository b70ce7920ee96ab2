import RcpFlext.WebsocketServer

/- Sending to all connections: the set is walked in its order, and the first connection that
   cannot be sent to ends the walk for those behind it. -/
namespace ServerSend
open Websocket WebsocketServer

inductive SendError where
  | bad_connection
  | invalid_state
  deriving DecidableEq

structure Delivery where
  hdl : Nat
  data : Text
  opcode : Opcode
  deriving DecidableEq

structure Sending where
  handed : List Delivery
  thrown : Option SendError
  deriving DecidableEq

def walk (body : Nat → Except SendError (List Delivery)) : List Nat → Sending
  | [] => ⟨[], none⟩
  | hdl :: rest =>
    match body hdl with
    | .error e => ⟨[], some e⟩
    | .ok out => ⟨out ++ (walk body rest).handed, (walk body rest).thrown⟩

/-- `server::send` without an error code. A handle that has expired has no session. -/
def send (sessions : Nat → Option Session) (hdl : Nat) (data : Text) :
    Except SendError (List Delivery) :=
  match sessions hdl with
  | none => .error .bad_connection
  | some state => if state = .opened then .ok [⟨hdl, data, .binary⟩] else .error .invalid_state

namespace WebsocketServerTransporter

def sendToAll (s : Server) (sessions : Nat → Option Session) (data : Text)
    (excludeId : Option Nat) : Sending :=
  if s.listening then
    walk (fun hdl =>
      if (sessions hdl).isSome then
        if excludeId = some hdl then .ok [] else send sessions hdl data
      else .ok []) s.m_connections.hdls
  else ⟨[], none⟩

end WebsocketServerTransporter

namespace WebsocketServerImpl

def send (s : Server) (sessions : Nat → Option Session) (data : Text) : Sending :=
  walk (fun hdl => ServerSend.send sessions hdl data) s.m_connections.hdls

end WebsocketServerImpl

/-- Every open connection of the set except the excluded one is handed the data once, no
    other is handed anything, and the call returns. -/
def Served (s : Server) (sessions : Nat → Option Session) (data : Text)
    (excludeId : Option Nat) (out : Sending) : Prop :=
  out.thrown = none ∧ ∀ c, out.handed.filter (·.hdl = c) =
    if c ∈ s.m_connections.hdls ∧ sessions c = some .opened ∧ excludeId ≠ some c then
      [⟨c, data, .binary⟩] else []

section
variable {body : Nat → Except SendError (List Delivery)}

theorem walk_returns_iff (hdls : List Nat) :
    (walk body hdls).thrown = none ↔ ∀ hdl ∈ hdls, ∃ out, body hdl = .ok out := by
  induction hdls with
  | nil => simp [walk]
  | cons hdl rest ih =>
    rw [List.forall_mem_cons, ← ih, walk]
    cases body hdl with
    | error e => simp
    | ok out => simp

theorem walk_handed {data : Text} {gets : Nat → Prop} [DecidablePred gets] {hdls : List Nat}
    (distinct : hdls.Nodup)
    (each : ∀ hdl ∈ hdls, body hdl = .ok (if gets hdl then [⟨hdl, data, .binary⟩] else []))
    (c : Nat) : (walk body hdls).handed.filter (·.hdl = c) =
      if c ∈ hdls ∧ gets c then [⟨c, data, .binary⟩] else [] := by
  induction hdls with
  | nil => simp [walk]
  | cons hdl rest ih =>
    obtain ⟨fresh, distinct⟩ := List.nodup_cons.mp distinct
    obtain ⟨first, each⟩ := List.forall_mem_cons.mp each
    rw [walk, first]
    simp only [List.filter_append, ih distinct each]
    by_cases here : c = hdl
    · subst here
      by_cases wanted : gets c <;> simp [wanted, fresh]
    · have apart : hdl ≠ c := fun eq => here eq.symm
      by_cases wanted : gets hdl <;> simp [wanted, here, apart]

end

section
variable {sessions : Nat → Option Session} {data : Text} {hdl : Nat}

theorem send_opened (opened : sessions hdl = some .opened) :
    send sessions hdl data = .ok [⟨hdl, data, .binary⟩] := by
  simp [send, opened]

theorem send_returns_iff :
    (∃ out, send sessions hdl data = .ok out) ↔ sessions hdl = some .opened := by
  constructor
  · intro done
    obtain ⟨out, sent⟩ := done
    unfold send at sent
    split at sent
    · contradiction
    · rename_i state found
      split at sent
      · rename_i opened
        rw [found, opened]
      · contradiction
  · intro opened
    exact ⟨_, send_opened opened⟩

end

section
variable (s : Server) (sessions : Nat → Option Session) (data : Text)

theorem sendToAll_served_iff (excludeId : Option Nat) (listening : s.listening = true) :
    Served s sessions data excludeId
        (WebsocketServerTransporter.sendToAll s sessions data excludeId) ↔
      ∀ c ∈ s.m_connections.hdls, sessions c ≠ none → excludeId ≠ some c →
        sessions c = some .opened := by
  unfold WebsocketServerTransporter.sendToAll Served
  rw [if_pos listening]
  constructor
  · intro served c listed live included
    obtain ⟨out, did⟩ := (walk_returns_iff _).mp served.1 c listed
    rw [if_pos (Option.isSome_iff_ne_none.mpr live), if_neg included] at did
    exact send_returns_iff.mp ⟨out, did⟩
  · intro reachable
    have each : ∀ hdl ∈ s.m_connections.hdls,
        (if (sessions hdl).isSome then
          if excludeId = some hdl then .ok [] else send sessions hdl data
        else .ok []) = Except.ok (if sessions hdl = some .opened ∧ excludeId ≠ some hdl then
          [⟨hdl, data, .binary⟩] else []) := by
      intro hdl listed
      by_cases live : sessions hdl = none
      · simp [live]
      · by_cases included : excludeId = some hdl
        · simp [included]
        · have opened := reachable hdl listed live included
          simp [opened, included, send_opened opened]
    exact ⟨(walk_returns_iff _).mpr fun hdl listed => ⟨_, each hdl listed⟩,
      walk_handed s.m_connections.distinct each⟩

theorem send_served_iff :
    Served s sessions data none (WebsocketServerImpl.send s sessions data) ↔
      ∀ c ∈ s.m_connections.hdls, sessions c = some .opened := by
  unfold WebsocketServerImpl.send Served
  constructor
  · intro served c listed
    exact send_returns_iff.mp ((walk_returns_iff _).mp served.1 c listed)
  · intro opened
    have each : ∀ hdl ∈ s.m_connections.hdls, send sessions hdl data =
        .ok (if sessions hdl = some .opened ∧ none ≠ some hdl then
          [⟨hdl, data, .binary⟩] else []) := by
      intro hdl listed
      simp [opened hdl listed, send_opened (opened hdl listed)]
    exact ⟨(walk_returns_iff _).mpr fun hdl listed => ⟨_, each hdl listed⟩,
      walk_handed s.m_connections.distinct each⟩

/-- One connection of the set that is not open cuts off those behind it, so the call serves
    the others exactly when there is none: an expired handle is passed over by `sendToAll`
    but not by `send`. -/
theorem served_iff (excludeId : Option Nat) (listening : s.listening = true) :
    (Served s sessions data excludeId
        (WebsocketServerTransporter.sendToAll s sessions data excludeId) ↔
      ∀ c ∈ s.m_connections.hdls, sessions c ≠ none → excludeId ≠ some c →
        sessions c = some .opened) ∧
    (Served s sessions data none (WebsocketServerImpl.send s sessions data) ↔
      ∀ c ∈ s.m_connections.hdls, sessions c = some .opened) :=
  ⟨sendToAll_served_iff s sessions data excludeId listening, send_served_iff s sessions data⟩

end

/-- Two clients; the first one met in the set closes, and its UNSUBSCRIBE is still queued. -/
def closeQueued : List Event :=
  [.run 10000, .listens 0, .worker true, .worker true,
    .handler 0 .opened, .notify 0, .worker true, .worker true, .worker true, .worker true,
    .handler 0 .opened, .notify 0, .worker true, .worker true, .worker true, .worker true,
    .handler 0 (.closed 1)]

def afterClose : Nat → Option Session
  | 0 => some .opened
  | 1 => some .closed
  | _ => none

theorem served_iff_after_close : ∃ s, Runs.run step .create closeQueued = some s ∧
    (Served s afterClose [] none
        (WebsocketServerTransporter.sendToAll s afterClose [] none) ↔
      ∀ c ∈ s.m_connections.hdls, afterClose c ≠ none → none ≠ some c →
        afterClose c = some .opened) ∧
    (Served s afterClose [] none (WebsocketServerImpl.send s afterClose []) ↔
      ∀ c ∈ s.m_connections.hdls, afterClose c = some .opened) :=
  ⟨_, rfl, served_iff _ afterClose [] none rfl⟩

/-- Nothing reaches the open client behind it. -/
theorem open_client_cut_off : ∃ s, Runs.run step .create closeQueued = some s ∧
    s.listening = true ∧ 0 ∈ s.m_connections.hdls ∧ afterClose 0 = some .opened ∧
    WebsocketServerTransporter.sendToAll s afterClose [] none = ⟨[], some .invalid_state⟩ ∧
    WebsocketServerImpl.send s afterClose [] = ⟨[], some .invalid_state⟩ ∧
    ¬ Served s afterClose [] none (WebsocketServerTransporter.sendToAll s afterClose [] none) ∧
    ¬ Served s afterClose [] none (WebsocketServerImpl.send s afterClose []) := by
  refine ⟨_, rfl, rfl, by decide, rfl, rfl, rfl, ?_, ?_⟩
  · intro served
    exact absurd served.1 (by decide)
  · intro served
    exact absurd served.1 (by decide)

end ServerSend
