import RcpFlext.Chunking
import RcpFlext.ServerRoster

/- ws.server: `m_server`, which the constructor and `listen` set, replace and clear, and the
   methods that call through it on the main thread and on those of its servers. -/
namespace WsServer
open Atoms WebsocketServer ServerRoster Chunking

/-- Where `m_listen` stands: the old server is being destroyed before the new one is run, or
    a server is only removed. -/
inductive Listen where
  | idle
  | replacing (port : BitVec 16)
  | removing
  deriving DecidableEq

/-- `dying` is a server no longer held whose destructor still runs. -/
structure PdWebsocketServer where
  m_server : Option Server
  dying : Option Server
  phase : Listen
  deriving DecidableEq

inductive Callback where
  | connected
  | disconnected
  | received (data : List Char8)
  | socketerror (reason : String)
  deriving DecidableEq

/-- `list` and `listen` are messages, `next` is the next step of `listen`, `current` and
    `dying` are steps of the one server and of the other, and `calls` runs a callback. -/
inductive Event where
  | list (argv : List Atom)
  | listen (p : Int)
  | next
  | current (e : WebsocketServer.Event)
  | dying (e : WebsocketServer.Event)
  | calls (c : Callback)
  deriving DecidableEq

inductive Outcome where
  | nothing
  | sent (data : List Char8)
  | outInt (outlet : Nat) (v : Int)
  | outList (outlet : Nat) (atoms : List Atom)
  | posted (line : String)
  | bindError (port : Nat) (reason : String)
  | null
  deriving DecidableEq

/-- Such a call may have begun long ago, but its thread has not ended: the worker's, or one
    of `_do_run`. -/
def Callback.MayRun (t : Server) : Callback → Prop
  | .socketerror _ => ∃ thread ∈ t.threads, thread ≠ .ended
  | _ => t.ws_thread ≠ none ∧ t.ws_thread ≠ some .done

instance (t : Server) : (c : Callback) → Decidable (c.MayRun t)
  | .socketerror _ => inferInstanceAs (Decidable (∃ thread ∈ t.threads, thread ≠ .ended))
  | .connected | .disconnected | .received _ => inferInstanceAs (Decidable (_ ∧ _))

def createPort : List Atom → Int
  | [] => 0
  | a :: _ =>
    if canbeInt a then
      let p := getAInt a (-1)
      if 0 < p.toInt ∧ p.toInt ≤ 65535 then p.toInt else 0
    else 0

namespace PdWebsocketServer

def create (argv : List Atom) : PdWebsocketServer :=
  let port := createPort argv
  if 0 < port then ⟨some (Server.create.run (BitVec.ofInt 16 port)), none, .idle⟩
  else ⟨none, none, .idle⟩

def mList (s : PdWebsocketServer) (argv : List Atom) : Outcome :=
  match BytePorts.PdWebsocketServer.mList (s.m_server.map fun _ => ()) argv with
  | .on data => .sent data
  | .dropped report => .posted (report.getD "")
  | .undefined => .null

def hear (s : PdWebsocketServer) : Callback → Outcome
  | .connected | .disconnected =>
    match s.m_server with
    | some t => .outInt 1 t.m_connections.size
    | none => .null
  | .received data => .outList 0 (BytePorts.PdWebsocketServer.received data)
  | .socketerror reason =>
    match s.m_server with
    | some t => .bindError t.m_port.toNat reason
    | none => .null

def listen (s : PdWebsocketServer) (p : Int) : PdWebsocketServer :=
  if 65535 < p then s
  else if ∃ t, s.m_server = some t ∧ p = t.m_port.toNat then s
  else if 0 < p then
    { m_server := some .create, dying := s.m_server, phase := .replacing (BitVec.ofInt 16 p) }
  else if s.m_server.isSome then { m_server := none, dying := s.m_server, phase := .removing }
  else s

def Destroyed (s : PdWebsocketServer) : Prop := ∀ t, s.dying = some t → t.main = .gone

instance (s : PdWebsocketServer) : Decidable s.Destroyed :=
  inferInstanceAs (Decidable (∀ t, s.dying = some t → t.main = .gone))

def next (s : PdWebsocketServer) : Option PdWebsocketServer :=
  match s.phase with
  | .idle => none
  | .replacing port =>
    if s.Destroyed then
      some { m_server := s.m_server.map (·.run port), dying := none, phase := .idle }
    else none
  | .removing => if s.Destroyed then some { s with dying := none, phase := .idle } else none

def MayCall (s : PdWebsocketServer) (c : Callback) : Prop :=
  (∃ t, s.m_server = some t ∧ c.MayRun t) ∨ ∃ t, s.dying = some t ∧ c.MayRun t

instance (s : PdWebsocketServer) (c : Callback) : Decidable (s.MayCall c) :=
  inferInstanceAs (Decidable ((∃ t, s.m_server = some t ∧ c.MayRun t) ∨
    ∃ t, s.dying = some t ∧ c.MayRun t))

end PdWebsocketServer

/-- A server is never run or stopped from outside `listen`. -/
def step : Runs.Machine PdWebsocketServer Event Outcome := fun s e =>
  match e with
  | .list argv => if s.phase = .idle then some (s, s.mList argv) else none
  | .listen p => if s.phase = .idle then some (s.listen p, .nothing) else none
  | .next => s.next.map fun s => (s, .nothing)
  | .current e =>
    if Serves e then
      s.m_server.bind fun t => (WebsocketServer.step t e).map fun (t, _) =>
        ({ s with m_server := some t }, .nothing)
    else none
  | .dying e =>
    if Serves e ∨ e = .destroy ∨ e = .main then
      s.dying.bind fun t => (WebsocketServer.step t e).map fun (t, _) =>
        ({ s with dying := some t }, .nothing)
    else none
  | .calls c => if s.MayCall c then some (s, s.hear c) else none

def outcomes (argv : List Atom) (es : List Event) : List Outcome :=
  Runs.told step (fun _ _ next => [next.2]) (.create argv) es

def Uses : Event → Prop
  | .list argv => ∀ a ∈ argv, (admissible a).isSome = true
  | .calls (.received _) => False
  | .calls _ => True
  | _ => False

def asks (asked : Bool) : Event → Bool
  | .listen p => if 65535 < p then asked else decide (0 < p)
  | _ => asked

/-- Nothing calls through `m_server` while the last port asked for is none to listen on. -/
def Careful : Bool → List Event → Prop
  | _, [] => True
  | asked, e :: es => (Uses e → asked = true) ∧ Careful (asks asked e) es

/-- There is a server exactly where one was asked for, and it has a port as soon as `listen`
    has returned. -/
structure Kept (s : PdWebsocketServer) (asked : Bool) : Prop where
  held : s.m_server.isSome = asked
  phased : match s.phase with
    | .idle => ∀ t, s.m_server = some t → 0 < t.m_port.toNat
    | .replacing port => 0 < port.toNat
    | .removing => s.m_server = none

section
variable {s : PdWebsocketServer} {asked : Bool} {next : PdWebsocketServer × Outcome}

theorem port_toNat {p : Int} (low : 0 < p) (high : p ≤ 65535) :
    ((BitVec.ofInt 16 p).toNat : Int) = p := by
  rw [BitVec.toNat_ofInt]
  omega

theorem createPort_range (argv : List Atom) : createPort argv ≤ 65535 := by
  cases argv with
  | nil => decide
  | cons a argv =>
    simp only [createPort]
    split
    · split <;> omega
    · omega

theorem create_kept (argv : List Atom) :
    Kept (.create argv) (decide (0 < createPort argv)) := by
  by_cases port : 0 < createPort argv
  · rw [PdWebsocketServer.create, if_pos port]
    refine ⟨by simp [port], ?_⟩
    intro t held
    cases held
    have value := port_toNat port (createPort_range argv)
    simp only [Server.run]
    omega
  · rw [PdWebsocketServer.create, if_neg port]
    exact ⟨by simp [port], fun t held => absurd held (by simp)⟩

theorem listen_kept (kept : Kept s asked) (idle : s.phase = .idle) (p : Int) :
    Kept (s.listen p) (asks asked (.listen p)) := by
  have ports := kept.phased
  rw [idle] at ports
  have turn : asks asked (.listen p) = if 65535 < p then asked else decide (0 < p) := rfl
  rw [turn, PdWebsocketServer.listen]
  by_cases above : 65535 < p
  · rw [if_pos above, if_pos above]
    exact kept
  · rw [if_neg above, if_neg above]
    by_cases same : ∃ t, s.m_server = some t ∧ p = t.m_port.toNat
    · obtain ⟨t, held, port⟩ := same
      have low := ports t held
      rw [if_pos ⟨t, held, port⟩]
      refine ⟨?_, kept.phased⟩
      rw [held]
      simp only [Option.isSome_some]
      exact (decide_eq_true (by omega)).symm
    · rw [if_neg same]
      by_cases low : 0 < p
      · have value := port_toNat low (by omega)
        rw [if_pos low]
        refine ⟨by simp [low], ?_⟩
        show 0 < (BitVec.ofInt 16 p).toNat
        omega
      · rw [if_neg low]
        by_cases some_server : s.m_server.isSome = true
        · rw [if_pos some_server]
          exact ⟨by simp [low], rfl⟩
        · rw [if_neg some_server]
          exact ⟨by simp [low, some_server], kept.phased⟩

theorem next_kept (kept : Kept s asked) {t : PdWebsocketServer} (went : s.next = some t) :
    Kept t asked := by
  have phased := kept.phased
  unfold PdWebsocketServer.next at went
  split at went
  · contradiction
  · rename_i port at_phase
    rw [at_phase] at phased
    simp only [Option.ite_none_right_eq_some] at went
    cases went.2
    refine ⟨by simpa using kept.held, ?_⟩
    intro u held
    obtain ⟨v, _, eq⟩ := Option.map_eq_some_iff.mp held
    rw [← eq]
    exact phased
  · rename_i at_phase
    rw [at_phase] at phased
    simp only [Option.ite_none_right_eq_some] at went
    cases went.2
    exact ⟨kept.held, fun t held => absurd held (by simp [phased])⟩

theorem current_kept (kept : Kept s asked) {t u : Server} (held : s.m_server = some t)
    (port : u.m_port = t.m_port) : Kept { s with m_server := some u } asked := by
  have phased := kept.phased
  refine ⟨by rw [← kept.held, held]; rfl, ?_⟩
  simp only
  split
  · rename_i at_phase
    rw [at_phase] at phased
    intro v same
    cases same
    rw [port]
    exact phased t held
  · rename_i at_phase
    rw [at_phase] at phased
    exact phased
  · rename_i at_phase
    rw [at_phase] at phased
    exact absurd (held.symm.trans phased) (by simp)

theorem step_kept {e : Event} (kept : Kept s asked) (stepped : step s e = some next) :
    Kept next.1 (asks asked e) := by
  cases e with
  | list argv =>
    simp only [step, Option.ite_none_right_eq_some] at stepped
    cases stepped.2
    exact kept
  | listen p =>
    simp only [step, Option.ite_none_right_eq_some] at stepped
    obtain ⟨idle, eq⟩ := stepped
    cases eq
    exact listen_kept kept idle p
  | next =>
    obtain ⟨t, went, eq⟩ := Option.map_eq_some_iff.mp stepped
    cases eq
    exact next_kept kept went
  | current e =>
    simp only [step, Option.ite_none_right_eq_some, Option.bind_eq_some_iff,
      Option.map_eq_some_iff] at stepped
    obtain ⟨serves, t, held, u, went, eq⟩ := stepped
    cases eq
    exact current_kept kept held (serves_keeps serves went).1
  | dying e =>
    simp only [step, Option.ite_none_right_eq_some, Option.bind_eq_some_iff,
      Option.map_eq_some_iff] at stepped
    obtain ⟨_, t, _, u, _, eq⟩ := stepped
    cases eq
    exact ⟨kept.held, kept.phased⟩
  | calls c =>
    simp only [step, Option.ite_none_right_eq_some] at stepped
    cases stepped.2
    exact kept

theorem strict_survives_iff (argv : List Atom) :
    (∃ data, Cells.survivors BytePorts.strictByte argv = .ok data) ↔
      ∀ a ∈ argv, (admissible a).isSome = true := by
  induction argv with
  | nil => exact ⟨fun _ _ none => absurd none List.not_mem_nil, fun _ => ⟨[], rfl⟩⟩
  | cons a argv ih =>
    have verdict := strictByte_admissible a
    rw [List.forall_mem_cons, ← ih]
    cases byte : admissible a with
    | some c =>
      rw [byte] at verdict
      rw [Cells.survivors_keep argv verdict]
      cases Cells.survivors BytePorts.strictByte argv <;> simp [Except.map]
    | none =>
      rw [byte] at verdict
      rw [Cells.survivors_abort argv verdict]
      simp

theorem mList_null_iff (argv : List Atom) :
    s.mList argv = .null ↔ s.m_server = none ∧ ∀ a ∈ argv, (admissible a).isSome = true := by
  rw [← strict_survives_iff, PdWebsocketServer.mList, BytePorts.PdWebsocketServer.mList,
    BytePorts.throughBuffer_eq]
  cases Cells.survivors BytePorts.strictByte argv with
  | error why => simp
  | ok data => cases s.m_server <;> simp

theorem hear_null_iff (c : Callback) :
    s.hear c = .null ↔ s.m_server = none ∧ Uses (.calls c) := by
  cases c with
  | connected | disconnected | socketerror =>
    cases held : s.m_server <;> simp [PdWebsocketServer.hear, held, Uses]
  | received data => simp [PdWebsocketServer.hear, Uses]

/-- A step goes through a null pointer exactly if it uses `m_server` and none was asked for. -/
theorem step_null_iff {e : Event} (kept : Kept s asked) (stepped : step s e = some next) :
    next.2 = .null ↔ Uses e ∧ asked = false := by
  have missing : s.m_server = none ↔ asked = false := by
    rw [← kept.held]
    cases s.m_server <;> simp
  cases e with
  | list argv =>
    simp only [step, Option.ite_none_right_eq_some] at stepped
    cases stepped.2
    rw [mList_null_iff, missing, and_comm]
    rfl
  | calls c =>
    simp only [step, Option.ite_none_right_eq_some] at stepped
    cases stepped.2
    rw [hear_null_iff, missing, and_comm]
  | listen p =>
    simp only [step, Option.ite_none_right_eq_some] at stepped
    cases stepped.2
    simp [Uses]
  | next =>
    obtain ⟨t, _, eq⟩ := Option.map_eq_some_iff.mp stepped
    cases eq
    simp [Uses]
  | current e | dying e =>
    simp only [step, Option.ite_none_right_eq_some, Option.bind_eq_some_iff,
      Option.map_eq_some_iff] at stepped
    obtain ⟨_, _, _, _, _, eq⟩ := stepped
    cases eq
    simp [Uses]

theorem run_null_iff (kept : Kept s asked) (es : List Event) {t : PdWebsocketServer}
    (ran : Runs.run step s es = some t) :
    Outcome.null ∉ Runs.told step (fun _ _ next => [next.2]) s es ↔ Careful asked es := by
  induction es generalizing s asked with
  | nil => simp [Runs.told, Careful]
  | cons e es ih =>
    obtain ⟨next, stepped, rest⟩ := Option.bind_eq_some_iff.mp ran
    rw [Runs.told_cons stepped, Careful, ← ih (step_kept kept stepped) rest, List.mem_append,
      not_or, List.mem_singleton]
    have here := step_null_iff kept stepped
    apply and_congr_left
    intro _
    rw [eq_comm, here]
    cases asked <;> simp

/-- No null pointer is used in a run exactly if whoever calls through `m_server` comes while
    the last port asked for is one to listen on. -/
theorem never_null_iff (argv : List Atom) (es : List Event) (t : PdWebsocketServer)
    (ran : Runs.run step (.create argv) es = some t) :
    Outcome.null ∉ outcomes argv es ↔ Careful (decide (0 < createPort argv)) es :=
  run_null_iff (create_kept argv) es ran

theorem never_null_replaced : Outcome.null ∉ outcomes [.int 9000]
    [.list [.int 1], .listen 9001, .calls .connected] := by
  obtain ⟨t, ran⟩ : ∃ t, Runs.run step (.create [.int 9000])
    [.list [.int 1], .listen 9001, .calls .connected] = some t := ⟨_, rfl⟩
  apply (never_null_iff _ _ t ran).mpr
  have port : decide (0 < createPort [.int 9000]) = true := by decide
  rw [port]
  simp [Careful, asks]

def clientComes : List Event :=
  [.current (.listens 0), .current (.handler 0 .opened), .current (.notify 0)] ++
    List.replicate 4 (.current (.worker true))

theorem missing_server_used : Outcome.null ∈ outcomes [] [.list [.int 1]] ∧
    Outcome.null ∈ outcomes [.int 9000] (clientComes ++ [.listen 0, .calls .connected]) := by
  decide

end

end WsServer
