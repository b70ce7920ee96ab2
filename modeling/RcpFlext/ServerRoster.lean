import RcpFlext.WebsocketServer
import RcpFlext.Library.Rosters

/- A server that nobody stops: its set of connections is a roster, and what the worker has
   in hand or in the queue are the changes still to come. -/
namespace ServerRoster
open WebsocketServer Rosters

def rosterChange : Action → Option (Change Nat)
  | .subscribe hdl => some (.join hdl)
  | .unsubscribe hdl => some (.leave hdl)
  | .message _ _ => none

/-- An action popped but not yet applied comes before those in the queue. -/
def toCome (s : Server) : List Action :=
  match s.ws_thread with
  | some (.changing a) => a :: s.m_actions
  | _ => s.m_actions

def changes (s : Server) : List (Change Nat) := (toCome s).filterMap rosterChange

/-- Every change fits, and in the end the roster is that of the open connections. -/
structure Roster (s : Server) : Prop where
  main : s.main = .idle
  derived : s.derived = true
  fits : AllFit s.m_connections.hdls (changes s)
  opens : ∀ c, c ∈ after s.m_connections.hdls (changes s) ↔ s.opens[c]? = some true

def Serves : Event → Prop
  | .worker _ => True
  | .spurious => True
  | .listens _ => True
  | .ends _ => True
  | .handler _ _ => True
  | .notify _ => True
  | _ => False

instance : (e : Event) → Decidable (Serves e)
  | .worker _ | .spurious | .listens _ | .ends _ | .handler _ _ | .notify _ => isTrue trivial
  | .run _ | .stop | .destroy | .main => isFalse id

section
variable {s : Server} {next : Server × Option Effect}

theorem create_roster : Roster Server.create where
  main := rfl
  derived := rfl
  fits := trivial
  opens c := by simp [after, changes, toCome, Server.create, ConList.clear]

theorem change_hdls (a : Action) (l : ConList) :
    (a.change l).hdls = after l.hdls (rosterChange a).toList := by
  cases a <;> rfl

theorem changes_queued {w : Worker} (stands : s.ws_thread = some w)
    (empty_handed : ∀ a, w ≠ .changing a) : changes s = s.m_actions.filterMap rosterChange := by
  unfold changes toCome
  rw [stands]
  cases w with
  | changing a => exact absurd rfl (empty_handed a)
  | starting | testing | locking | waiting | calling | done => rfl

theorem changes_in_hand {a : Action} (stands : s.ws_thread = some (.changing a)) :
    changes s = (rosterChange a).toList ++ s.m_actions.filterMap rosterChange := by
  rw [changes, toCome, stands]
  cases a <;> rfl

theorem wake_toCome (s : Server) : toCome s.wake = toCome s := by
  unfold toCome Server.wake
  cases s.ws_thread with
  | none => rfl
  | some w => cases w <;> rfl

theorem run_toCome (s : Server) (port : BitVec 16) : toCome (s.run port) = toCome s := by
  unfold toCome Server.run
  cases s.ws_thread <;> rfl

theorem push_toCome (s : Server) (a : Action) : toCome (s.push a) = toCome s ++ [a] := by
  unfold toCome Server.push
  cases s.ws_thread with
  | none => rfl
  | some w => cases w <;> rfl

theorem wake_changes (s : Server) : changes s.wake = changes s := by
  rw [changes, wake_toCome, changes]

theorem push_changes (s : Server) (a : Action) :
    changes (s.push a) = changes s ++ (rosterChange a).toList := by
  rw [changes, push_toCome, List.filterMap_append]
  cases a <;> rfl

theorem roster_of_same {t : Server} (roster : Roster s) (main : t.main = s.main)
    (derived : t.derived = s.derived) (conns : t.m_connections = s.m_connections)
    (coming : changes t = changes s) (opens : t.opens = s.opens) : Roster t where
  main := main.trans roster.main
  derived := derived.trans roster.derived
  fits := by
    rw [conns, coming]
    exact roster.fits
  opens c := by
    rw [conns, coming, opens]
    exact roster.opens c

theorem works_roster {locks : Bool} (roster : Roster s) (works : Works s locks next) :
    Roster next.1 := by
  cases works with
  | starts stands | goes_on stands | waits stands | calls a stands =>
    exact roster_of_same roster rfl rfl rfl (changes_queued stands (by simp)).symm rfl
  | leaves stands =>
    rcases stands with stands | stands <;>
      exact roster_of_same roster rfl rfl rfl (changes_queued stands (by simp)).symm rfl
  | pops a rest stands _ queue =>
    refine roster_of_same roster rfl rfl rfl ?_ rfl
    rw [changes_queued stands (by simp), queue]
    rfl
  | changes a stands =>
    have fits := roster.fits
    have opens := roster.opens
    rw [changes_in_hand stands] at fits opens
    refine ⟨roster.main, roster.derived, ?_, ?_⟩
    · rw [change_hdls]
      exact ((allFit_append _ _).mp fits).2
    · intro c
      rw [change_hdls, ← opens c, after_append]
      exact Iff.rfl

theorem push_roster (roster : Roster s) (a : Action) (c : Change Nat)
    (stands_for : rosterChange a = some c)
    (fits : c.Fits (after s.m_connections.hdls (changes s))) (opens : List Bool)
    (then_open : ∀ d, d ∈ c.apply (after s.m_connections.hdls (changes s)) ↔
      opens[d]? = some true) : Roster ({ s with opens := opens }.push a) := by
  have coming : changes ({ s with opens := opens }.push a) = changes s ++ [c] := by
    rw [push_changes, stands_for]
    rfl
  refine ⟨roster.main, roster.derived, ?_, ?_⟩
  · rw [coming]
    exact (allFit_append _ _).mpr ⟨roster.fits, fits, trivial⟩
  · intro d
    rw [coming, after_append]
    exact then_open d

theorem handler_roster {n : Network} {t : Server} (roster : Roster s)
    (handled : s.handler n = some t) : Roster t := by
  cases n with
  | opened =>
    cases handled
    apply push_roster roster _ (.join s.opens.length) rfl
    · intro there
      have opened := (roster.opens _).mp there
      rw [List.getElem?_eq_none (Nat.le_refl _)] at opened
      contradiction
    · intro d
      rw [join_mem, roster.opens d]
      by_cases last : d = s.opens.length
      · simp [last]
      · by_cases before : d < s.opens.length
        · simp [last, List.getElem?_append_left before]
        · have outside : s.opens.length ≤ d := by omega
          simp [last, List.getElem?_eq_none outside, List.getElem?_append_right outside,
            show d - s.opens.length ≠ 0 by omega]
  | closed hdl =>
    simp only [Server.handler, Option.ite_none_right_eq_some] at handled
    obtain ⟨opened, eq⟩ := handled
    cases eq
    apply push_roster roster _ (.leave hdl) rfl
    · exact (roster.opens hdl).mpr opened
    · intro d
      rw [leave_mem (after_nodup s.m_connections.distinct _), roster.opens d, List.getElem?_set]
      by_cases here : hdl = d
      · subst here
        by_cases inside : hdl < s.opens.length <;> simp [inside]
      · have apart : d ≠ hdl := fun eq => here eq.symm
        simp [here, apart]
  | message hdl msg =>
    simp only [Server.handler, Option.ite_none_right_eq_some] at handled
    obtain ⟨_, eq⟩ := handled
    cases eq
    refine roster_of_same roster rfl rfl rfl ?_ rfl
    rw [push_changes]
    exact List.append_nil _

theorem io_roster {e : Event} (io : e.IsIo) (roster : Roster s)
    (stepped : step s e = some next) : Roster next.1 := by
  cases e with
  | handler i n =>
    simp only [step, Option.ite_none_right_eq_some, Option.map_eq_some_iff] at stepped
    obtain ⟨_, handled, did, eq⟩ := stepped
    subst eq
    exact roster_of_same (handler_roster roster did) rfl rfl rfl rfl rfl
  | listens i | ends i =>
    simp only [step, Option.ite_none_right_eq_some] at stepped
    cases stepped.2
    exact roster_of_same roster rfl rfl rfl rfl rfl
  | notify i =>
    simp only [step, Option.ite_none_right_eq_some] at stepped
    cases stepped.2
    exact roster_of_same roster rfl rfl rfl (wake_changes (s.goes i .polling)) rfl
  | run | stop | destroy | main | worker | spurious => exact absurd io id

theorem step_roster {e : Event} (serves : Serves e) (roster : Roster s)
    (stepped : step s e = some next) : Roster next.1 := by
  cases e with
  | worker locks => exact works_roster roster (step_works stepped)
  | spurious =>
    simp only [step, Option.ite_none_right_eq_some] at stepped
    cases stepped.2
    exact roster_of_same roster rfl rfl rfl (wake_changes s) rfl
  | listens i | ends i | handler i n | notify i => exact io_roster (by trivial) roster stepped
  | run | stop | destroy | main => exact absurd serves id

theorem handler_keeps {n : Network} {t : Server} (handled : s.handler n = some t) :
    t.m_port = s.m_port ∧ t.threads = s.threads := by
  cases n with
  | opened =>
    cases handled
    exact ⟨rfl, rfl⟩
  | closed hdl =>
    simp only [Server.handler, Option.ite_none_right_eq_some] at handled
    cases handled.2
    exact ⟨rfl, rfl⟩
  | message hdl msg =>
    simp only [Server.handler, Option.ite_none_right_eq_some] at handled
    cases handled.2
    exact ⟨rfl, rfl⟩

theorem serves_keeps {e : Event} (serves : Serves e) (stepped : step s e = some next) :
    next.1.m_port = s.m_port ∧ next.1.threads.length = s.threads.length := by
  cases e with
  | worker locks => cases step_works stepped <;> exact ⟨rfl, rfl⟩
  | spurious =>
    simp only [step, Option.ite_none_right_eq_some] at stepped
    cases stepped.2
    exact ⟨rfl, rfl⟩
  | listens i | ends i | notify i =>
    simp only [step, Option.ite_none_right_eq_some] at stepped
    cases stepped.2
    exact ⟨rfl, List.length_set⟩
  | handler i n =>
    simp only [step, Option.ite_none_right_eq_some, Option.map_eq_some_iff] at stepped
    obtain ⟨_, handled, did, eq⟩ := stepped
    subst eq
    obtain ⟨port, threads⟩ := handler_keeps did
    exact ⟨port, List.length_set.trans (congrArg List.length threads)⟩
  | run | stop | destroy | main => exact absurd serves id

theorem run_roster (roster : Roster s) (port : BitVec 16) : Roster (s.run port) := by
  refine roster_of_same roster rfl rfl rfl ?_ rfl
  rw [changes, run_toCome, changes]

end

end ServerRoster
