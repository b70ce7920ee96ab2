import RcpFlext.ClientCount
import RcpFlext.WsServer

/- `listen` of rcp.server and of ws.server, from any state of either: both start a server and
   let it bind, but they do not mean the same by a port that has not changed. -/
namespace BindAttempts
open WebsocketServer ServerRoster Runs

def Attempted (held : Option Server) (p : Int) : Prop :=
  ∃ t, held = some t ∧ (t.m_port.toNat : Int) = p ∧ t.threads.length = 1

/-- The server in use was listening on the port already, or the call puts a new one in its
    place, and has let it bind to the port when it returns. -/
def Answered {S E O : Type} (step : Machine S E O) (busy : S → Prop) (held : S → Option Server)
    (s next : S) (p : Int) : Prop :=
  (∃ t, held s = some t ∧ t.listening = true ∧ (t.m_port.toNat : Int) = p) ∨
    held next = some .create ∧ busy next ∧ ∀ u, Settles step busy next u → Attempted (held u) p

namespace PdWebsocketServer
open WsServer

def Busy (s : PdWebsocketServer) : Prop := s.phase ≠ .idle

def Answers (s : PdWebsocketServer) : WsServer.Event → Prop
  | .listen p => ∀ next, WsServer.step s (.listen p) = some next →
      (1 ≤ p → p ≤ 65535 →
        Answered WsServer.step Busy PdWebsocketServer.m_server s next.1 p) ∧
      (65535 < p → next.1 = s)
  | _ => True

/-- No server of this port is there that is not listening: its bind has failed, or is still
    to come. -/
def Careful (s : PdWebsocketServer) : WsServer.Event → Prop
  | .listen p => 1 ≤ p → ∀ t, s.m_server = some t → (t.m_port.toNat : Int) = p → t.listening = true
  | _ => True

def Opening (p : Int) (s : PdWebsocketServer) : Prop :=
  match s.phase with
  | .idle => Attempted s.m_server p
  | .replacing port => (port.toNat : Int) = p ∧ ∃ t, s.m_server = some t ∧ t.threads = []
  | .removing => False

end PdWebsocketServer

namespace ParameterServer
open ClientCount

def Busy (s : ParameterServer) : Prop := s.phase ≠ .idle

def Answers (s : ParameterServer) : ClientCount.Event → Prop
  | .listen p => ∀ next, ClientCount.step s (.listen p) = some next →
      (1 ≤ p → p ≤ 65535 →
        Answered ClientCount.step Busy ParameterServer.m_transporter s next.1 p) ∧
      (65535 < p → { next.1 with errors := s.errors } = s)
  | _ => True

def Opening (p : Int) (s : ParameterServer) : Prop :=
  match s.phase with
  | .idle | .resetting => Attempted s.m_transporter p
  | .replacing port | .binding port =>
    (port.toNat : Int) = p ∧ ∃ t, s.m_transporter = some t ∧ t.threads = []
  | .removing => False

end ParameterServer

theorem attempted_run {t : Server} (fresh : t.threads = []) (port : BitVec 16) :
    Attempted (some (t.run port)) port.toNat :=
  ⟨_, rfl, rfl, by simp [Server.run, fresh]⟩

section
variable {t : Server} {u : Server × Option Effect} {e : WebsocketServer.Event}

theorem fresh_serves (serves : Serves e) (stepped : WebsocketServer.step t e = some u)
    (fresh : t.threads = []) : u.1.threads = [] := by
  have same := (serves_keeps serves stepped).2
  rw [fresh] at same
  exact List.length_eq_zero_iff.mp same

theorem attempted_serves {p : Int} (serves : Serves e)
    (stepped : WebsocketServer.step t e = some u) (attempted : Attempted (some t) p) :
    Attempted (some u.1) p := by
  obtain ⟨v, eq, port, once⟩ := attempted
  cases eq
  obtain ⟨same_port, same⟩ := serves_keeps serves stepped
  exact ⟨u.1, rfl, by rw [same_port, port], same.trans once⟩

end

namespace PdWebsocketServer
open WsServer

section
variable {s : PdWebsocketServer} {next : PdWebsocketServer × Outcome} {p : Int}

theorem step_opening {e : WsServer.Event} (opening : Opening p s) (busy : Busy s)
    (stepped : WsServer.step s e = some next) : Opening p next.1 := by
  unfold Opening at opening
  cases at_phase : s.phase with
  | idle => exact absurd at_phase busy
  | removing =>
    rw [at_phase] at opening
    exact opening.elim
  | replacing port =>
    rw [at_phase] at opening
    obtain ⟨same, t, held, fresh⟩ := opening
    cases e with
    | list argv | listen q =>
      simp [WsServer.step, at_phase] at stepped
    | next =>
      obtain ⟨after, went, eq⟩ := Option.map_eq_some_iff.mp stepped
      cases eq
      simp only [PdWebsocketServer.next, at_phase, Option.ite_none_right_eq_some] at went
      cases went.2
      rw [← same, held]
      exact attempted_run fresh port
    | current e =>
      simp only [WsServer.step, Option.ite_none_right_eq_some, Option.bind_eq_some_iff,
        Option.map_eq_some_iff] at stepped
      obtain ⟨serves, v, there, u, went, eq⟩ := stepped
      cases eq
      cases held.symm.trans there
      simp only [Opening, at_phase]
      exact ⟨same, u.1, rfl, fresh_serves serves went fresh⟩
    | dying e =>
      simp only [WsServer.step, Option.ite_none_right_eq_some, Option.bind_eq_some_iff,
        Option.map_eq_some_iff] at stepped
      obtain ⟨_, _, _, _, _, eq⟩ := stepped
      cases eq
      simp only [Opening, at_phase]
      exact ⟨same, t, held, fresh⟩
    | calls c =>
      simp only [WsServer.step, Option.ite_none_right_eq_some] at stepped
      cases stepped.2
      simp only [Opening, at_phase]
      exact ⟨same, t, held, fresh⟩

theorem settles_attempted {u : PdWebsocketServer} (opening : Opening p s)
    (settles : Settles WsServer.step Busy s u) : Attempted u.m_server p := by
  obtain ⟨opened, rests⟩ := settles_keeps (fun _ _ _ => step_opening) opening settles
  have at_rest : u.phase = .idle := Classical.not_not.mp rests
  rw [Opening, at_rest] at opened
  exact opened

theorem next_rests (destroyed : s.Destroyed) (busy : Busy s) :
    ∃ after, s.next = some after ∧ ¬ Busy after := by
  cases at_phase : s.phase with
  | idle => exact absurd at_phase busy
  | replacing port =>
    refine ⟨⟨s.m_server.map (·.run port), none, .idle⟩, ?_, fun later => later rfl⟩
    simp only [PdWebsocketServer.next, at_phase, if_pos destroyed]
  | removing =>
    refine ⟨⟨s.m_server, none, .idle⟩, ?_, fun later => later rfl⟩
    simp only [PdWebsocketServer.next, at_phase, if_pos destroyed]

/-- A call of `listen` waits for nothing but the destructor of the old server. -/
theorem call_ends (destroyed : s.Destroyed) : ∃ u, Settles WsServer.step Busy s u := by
  by_cases busy : Busy s
  · obtain ⟨after, went, rests⟩ := next_rests destroyed busy
    have stepped : WsServer.step s .next = some (after, .nothing) := by
      simp only [WsServer.step, went, Option.map_some]
    exact ⟨after, .later busy stepped (.now rests)⟩
  · exact ⟨s, .now busy⟩

theorem listen_new (low : 1 ≤ p) (high : p ≤ 65535)
    (other : ¬ ∃ t, s.m_server = some t ∧ p = t.m_port.toNat) :
    s.listen p = ⟨some .create, s.m_server, .replacing (BitVec.ofInt 16 p)⟩ := by
  rw [PdWebsocketServer.listen, if_neg (by omega), if_neg other, if_pos (by omega)]

theorem answers_iff (s : PdWebsocketServer) (e : WsServer.Event) (next : PdWebsocketServer × Outcome)
    (stepped : WsServer.step s e = some next) : Answers s e ↔ Careful s e := by
  cases e with
  | list | next | current | dying | calls => exact Iff.rfl
  | listen p =>
    have took := stepped
    simp only [WsServer.step, Option.ite_none_right_eq_some] at stepped
    have first : next.1 = s.listen p := by rw [← Option.some.inj stepped.2]
    constructor
    · intro answers low t held port
      have high : p ≤ 65535 := by omega
      rcases (answers next took).1 low high with ⟨u, there, listening, _⟩ | ⟨new, _⟩
      · cases held.symm.trans there
        exact listening
      · -- nothing new was made, since the port is that of the server in use
        have same : s.listen p = s := by
          rw [PdWebsocketServer.listen, if_neg (by omega), if_pos ⟨t, held, port.symm⟩]
        rw [first, same, held] at new
        cases new
        have unset : (Server.create.m_port.toNat : Int) = 0 := rfl
        omega
    · intro careful after taken
      cases took.symm.trans taken
      refine ⟨fun low high => ?_, fun above => ?_⟩
      · by_cases same : ∃ t, s.m_server = some t ∧ p = t.m_port.toNat
        · obtain ⟨t, held, port⟩ := same
          exact .inl ⟨t, held, careful low t held port.symm, port.symm⟩
        · right
          rw [first, listen_new low high same]
          have opening : Opening p ⟨some .create, s.m_server, .replacing (BitVec.ofInt 16 p)⟩ :=
            ⟨port_toNat (by omega) high, _, rfl, rfl⟩
          exact ⟨rfl, by simp [Busy], fun u => settles_attempted opening⟩
      · rw [first, PdWebsocketServer.listen, if_pos above]

end

end PdWebsocketServer

namespace ParameterServer
open ClientCount

section
variable {s : ParameterServer} {next : ParameterServer × Option Effect} {p : Int}

theorem opening_congr {r : ParameterServer} (transporter : r.m_transporter = s.m_transporter)
    (phase : r.phase = s.phase) (opening : Opening p s) : Opening p r := by
  unfold Opening at opening ⊢
  rw [transporter, phase]
  exact opening

theorem next_opening {after : ParameterServer} (opening : Opening p s) (busy : Busy s)
    (went : s.next = some after) : Opening p after := by
  unfold Opening at opening
  cases at_phase : s.phase with
  | idle => exact absurd at_phase busy
  | removing =>
    rw [at_phase] at opening
    exact opening.elim
  | replacing port =>
    rw [at_phase] at opening
    simp only [ParameterServer.next, at_phase, Option.ite_none_right_eq_some] at went
    cases went.2
    exact opening
  | binding port =>
    rw [at_phase] at opening
    obtain ⟨same, t, held, fresh⟩ := opening
    simp only [ParameterServer.next, at_phase] at went
    cases went
    simp only [Opening, held, Option.map_some]
    rw [← same]
    exact attempted_run fresh port
  | resetting =>
    rw [at_phase] at opening
    simp only [ParameterServer.next, at_phase] at went
    cases went
    exact opening

theorem current_opening {t : Server} {u : Server × Option Effect} {e : WebsocketServer.Event}
    (opening : Opening p s) (held : s.m_transporter = some t) (serves : Serves e)
    (went : WebsocketServer.step t e = some u) :
    Opening p { s with m_transporter := some u.1 } := by
  unfold Opening at opening ⊢
  cases at_phase : s.phase with
  | idle | resetting =>
    simp only [at_phase, held] at opening ⊢
    exact attempted_serves serves went opening
  | replacing port | binding port =>
    simp only [at_phase, held] at opening ⊢
    obtain ⟨same, v, there, fresh⟩ := opening
    cases there
    exact ⟨same, u.1, rfl, fresh_serves serves went fresh⟩
  | removing =>
    rw [at_phase] at opening
    exact opening.elim

theorem step_opening {e : ClientCount.Event} (opening : Opening p s) (busy : Busy s)
    (stepped : ClientCount.step s e = some next) : Opening p next.1 := by
  cases e with
  | listen q =>
    simp only [ClientCount.step, Option.ite_none_right_eq_some] at stepped
    exact absurd stepped.1 busy
  | next =>
    obtain ⟨after, went, eq⟩ := Option.map_eq_some_iff.mp stepped
    cases eq
    exact next_opening opening busy went
  | current e =>
    simp only [ClientCount.step, Option.ite_none_right_eq_some, Option.bind_eq_some_iff,
      Option.map_eq_some_iff] at stepped
    obtain ⟨serves, t, held, u, went, eq⟩ := stepped
    cases eq
    obtain ⟨transporter, _, phase⟩ := hear_beside { s with m_transporter := some u.1 } u.2
    exact opening_congr transporter phase (current_opening opening held serves went)
  | dying e =>
    simp only [ClientCount.step, Option.ite_none_right_eq_some, Option.bind_eq_some_iff,
      Option.map_eq_some_iff] at stepped
    obtain ⟨_, t, _, u, _, eq⟩ := stepped
    cases eq
    obtain ⟨transporter, _, phase⟩ := hear_beside { s with dying := some u.1 } u.2
    exact opening_congr transporter phase opening

theorem settles_attempted {u : ParameterServer} (opening : Opening p s)
    (settles : Settles ClientCount.step Busy s u) : Attempted u.m_transporter p := by
  obtain ⟨opened, rests⟩ := settles_keeps (fun _ _ _ => step_opening) opening settles
  have at_rest : u.phase = .idle := Classical.not_not.mp rests
  rw [Opening, at_rest] at opened
  exact opened

theorem call_ends (destroyed : s.Destroyed) : ∃ u, Settles ClientCount.step Busy s u := by
  have goes {a b : ParameterServer} (went : a.next = some b) :
      ClientCount.step a .next = some (b, none) := by
    simp only [ClientCount.step, went, Option.map_some]
  have resets (a : ParameterServer) (at_phase : a.phase = .resetting) :
      ∃ u, Settles ClientCount.step Busy a u := by
    refine ⟨{ a.toOutInt 0 with phase := .idle }, .later (by simp [Busy, at_phase]) (goes ?_)
      (.now (fun later => later rfl))⟩
    simp only [ParameterServer.next, at_phase]
  have binds (a : ParameterServer) (port : BitVec 16) (at_phase : a.phase = .binding port) :
      ∃ u, Settles ClientCount.step Busy a u := by
    obtain ⟨u, settles⟩ := resets
      { a with m_transporter := a.m_transporter.map (·.run port), phase := .resetting } rfl
    refine ⟨u, .later (by simp [Busy, at_phase]) (goes ?_) settles⟩
    simp only [ParameterServer.next, at_phase]
  cases at_phase : s.phase with
  | idle => exact ⟨s, .now (fun busy => busy at_phase)⟩
  | resetting => exact resets s at_phase
  | binding port => exact binds s port at_phase
  | replacing port =>
    obtain ⟨u, settles⟩ := binds { s with dying := none, phase := .binding port } port rfl
    refine ⟨u, .later (by simp [Busy, at_phase]) (goes ?_) settles⟩
    simp only [ParameterServer.next, at_phase, if_pos destroyed]
  | removing =>
    refine ⟨{ s with dying := none, phase := .idle }, .later (by simp [Busy, at_phase]) (goes ?_)
      (.now (fun later => later rfl))⟩
    simp only [ParameterServer.next, at_phase, if_pos destroyed]

theorem answers_always (s : ParameterServer) (e : ClientCount.Event) : Answers s e := by
  cases e with
  | next | current | dying => trivial
  | listen p =>
    intro next stepped
    simp only [ClientCount.step, Option.ite_none_right_eq_some] at stepped
    have first : next.1 = s.listen p := by rw [← Option.some.inj stepped.2]
    rw [first]
    by_cases same : ∃ t, s.m_transporter = some t ∧ t.listening = true ∧ p = t.m_port.toNat
    · have kept : s.listen p = s := by rw [ParameterServer.listen, if_pos same]
      obtain ⟨t, held, listening, port⟩ := same
      rw [kept]
      exact ⟨fun _ _ => .inl ⟨t, held, listening, port.symm⟩, fun _ => rfl⟩
    · refine ⟨fun low high => .inr ?_, fun above => ?_⟩
      · have new : s.listen p = { s with
            m_transporter := some .create
            dying := s.m_transporter
            phase := .replacing (BitVec.ofInt 16 p) } := by
          rw [ParameterServer.listen, if_neg same, if_neg (by omega), if_pos (by omega)]
        rw [new]
        have opening : Opening p { s with
            m_transporter := some .create
            dying := s.m_transporter
            phase := .replacing (BitVec.ofInt 16 p) } :=
          ⟨WsServer.port_toNat (by omega) high, _, rfl, rfl⟩
        exact ⟨rfl, by simp [Busy], fun u => settles_attempted opening⟩
      · rw [ParameterServer.listen, if_neg same, if_pos above]
        rfl

end

end ParameterServer

/-- Along any run of ws.server its calls are answered exactly if none comes for the port of a
    server that is not listening; along any run of rcp.server they always are. A call that is
    under way ends as soon as the server it replaces is destroyed. -/
theorem answered_run_iff (argv : List Atoms.Atom) (es : List WsServer.Event)
    (fs : List ClientCount.Event) :
    (Steps WsServer.step PdWebsocketServer.Answers (.create argv) es ↔
      Steps WsServer.step PdWebsocketServer.Careful (.create argv) es) ∧
    Steps ClientCount.step ParameterServer.Answers .create fs ∧
    (∀ s : WsServer.PdWebsocketServer, s.Destroyed →
      ∃ u, Settles WsServer.step PdWebsocketServer.Busy s u) ∧
    ∀ s : ClientCount.ParameterServer, s.Destroyed →
      ∃ u, Settles ClientCount.step ParameterServer.Busy s u :=
  ⟨steps_congr (fun _ => True) (fun _ _ _ _ _ => trivial)
      (fun s e next _ stepped => PdWebsocketServer.answers_iff s e next stepped) trivial es,
    steps_of_all ParameterServer.answers_always _ fs,
    fun _ => PdWebsocketServer.call_ends, fun _ => ParameterServer.call_ends⟩

/-- The bind fails in its thread, and the same port is asked for once more. -/
theorem retry_not_answered : ¬ Steps WsServer.step PdWebsocketServer.Answers
    (.create [.int 9000]) [.current (.ends 0), .listen 9000] := by
  intro steps
  have retried := (steps _ rfl).2 _ rfl
  rcases (retried.1 _ rfl).1 (by decide) (by decide) with ⟨t, held, listening, _⟩ | ⟨new, _⟩
  · cases held
    contradiction
  · exact absurd new (by decide)

end BindAttempts
