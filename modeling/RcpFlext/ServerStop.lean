import RcpFlext.WebsocketServer

/- Whether `stop` comes to an end and leaves nothing behind. The worker sets m_run by itself
   when it is first scheduled, and nothing ever empties the queue. -/
namespace ServerStop
open WebsocketServer

def Changes : Action → Prop
  | .subscribe _ => True
  | .unsubscribe _ => True
  | .message _ _ => False

instance : (a : Action) → Decidable (Changes a)
  | .subscribe _ => isTrue trivial
  | .unsubscribe _ => isTrue trivial
  | .message _ _ => isFalse id

/-- `stop` joins the worker, which waits with m_run set and nobody to notify it. -/
def Deadlocked (s : Server) : Prop :=
  s.main = .joiningWorker ∧ s.ws_thread = some .waiting ∧ s.m_run = true ∧
    ∀ t ∈ s.threads, t = .ended

instance (s : Server) : Decidable (Deadlocked s) :=
  inferInstanceAs (Decidable (_ ∧ _ ∧ _ ∧ _))

/-- Where `stop` returns, it leaves no connection and no action that makes or drops one. -/
def LeavesNothing (s : Server) (e : Event) : Prop :=
  ∀ next, step s e = some next → next.2 = some .returned →
    next.1.m_connections.hdls = [] ∧ ∀ a ∈ next.1.m_actions, ¬ Changes a

def remaining (s : Server) : ConList :=
  match s.ws_thread with
  | some (.changing a) => a.change s.m_connections
  | _ => s.m_connections

/-- The worker has begun, what it has in hand leaves the set empty, and nothing that would
    change the set is queued or can still be. -/
structure Settled (s : Server) : Prop where
  begun : s.ws_thread ≠ some .starting
  empty : (remaining s).hdls = []
  queue : ∀ a ∈ s.m_actions, ¬ Changes a
  ended : ∀ t ∈ s.threads, t = .ended

instance (s : Server) : Decidable (Settled s) :=
  decidable_of_iff (s.ws_thread ≠ some .starting ∧ (remaining s).hdls = [] ∧
      (∀ a ∈ s.m_actions, ¬ Changes a) ∧ ∀ t ∈ s.threads, t = .ended)
    ⟨fun h => ⟨h.1, h.2.1, h.2.2.1, h.2.2.2⟩, fun h => ⟨h.1, h.2, h.3, h.4⟩⟩

/-- What a step must respect, in the state before it: the step that clears m_run, and the
    last one of a `stop` that finds no worker. -/
def Careful (s : Server) : Event → Prop
  | .main => (s.main = .clearingRun → Settled s) ∧
      (s.main = .joiningServer → s.ws_thread = none → ∀ a ∈ s.m_actions, ¬ Changes a)
  | _ => True

instance (s : Server) : (e : Event) → Decidable (Careful s e)
  | .main => inferInstanceAs (Decidable (_ ∧ _))
  | .run _ | .stop | .destroy | .worker _ | .spurious => isTrue trivial
  | .listens _ | .ends _ | .handler _ _ | .notify _ => isTrue trivial

structure Kept (s : Server) : Prop where
  absent : s.main = .joiningServer → s.ws_thread = none → s.m_connections.hdls = []
  settled : s.main = .notifying ∨ s.main = .joiningWorker → s.m_run = false ∧ Settled s

section
variable {s : Server} {next : Server × Option Effect}

theorem kept_of_main (m : Main) (main : s.main = m)
    (elsewhere : m ≠ .joiningServer ∧ m ≠ .notifying ∧ m ≠ .joiningWorker) : Kept s where
  absent at_join := absurd (main.symm.trans at_join) elsewhere.1
  settled stopping := by
    rcases stopping with h | h
    · exact absurd (main.symm.trans h) elsewhere.2.1
    · exact absurd (main.symm.trans h) elsewhere.2.2

theorem create_kept : Kept Server.create := kept_of_main .idle rfl (by decide)

theorem returned_kept (s : Server) : Kept s.returned.1 := by
  by_cases derived : s.derived = true
  · exact kept_of_main .idle (if_pos derived) (by decide)
  · exact kept_of_main .gone (if_neg derived) (by decide)

theorem wake_remaining (s : Server) : remaining s.wake = remaining s := by
  unfold remaining Server.wake
  cases s.ws_thread with
  | none => rfl
  | some w => cases w <;> rfl

theorem wake_settled (settled : Settled s) : Settled s.wake where
  begun := by
    intro starting
    obtain ⟨w, is, woken⟩ := Option.map_eq_some_iff.mp starting
    split at woken
    · contradiction
    · rw [woken] at is
      exact settled.begun is
  empty := by
    rw [wake_remaining]
    exact settled.empty
  queue := settled.queue
  ended := settled.ended

theorem main_kept (kept : Kept s) (careful : Careful s .main)
    (stepped : step s .main = some next) : Kept next.1 := by
  cases step_stops stepped with
  | refuses => exact kept_of_main .clearing rfl (by decide)
  | clears =>
    refine ⟨fun _ _ => rfl, ?_⟩
    intro stopping
    rcases stopping with h | h <;> contradiction
  | returns_early => exact returned_kept _
  | joins => exact kept_of_main .clearingRun rfl (by decide)
  | clears_run at_run =>
    have settled := careful.1 at_run
    refine ⟨?_, fun _ => ⟨rfl, settled.begun, settled.empty, settled.queue, settled.ended⟩⟩
    intro at_join
    contradiction
  | notifies at_notify =>
    obtain ⟨off, settled⟩ := kept.settled (.inl at_notify)
    have woken := wake_settled settled
    refine ⟨?_, fun _ => ⟨off, woken.begun, woken.empty, woken.queue, woken.ended⟩⟩
    intro at_join
    contradiction
  | returns => exact returned_kept _

theorem worker_settled {locks : Bool} (off : s.m_run = false) (settled : Settled s)
    (works : Works s locks next) : next.1.m_run = false ∧ Settled next.1 := by
  have empty := settled.empty
  cases works with
  | starts at_start => exact absurd at_start settled.begun
  | goes_on _ on => exact absurd (off.symm.trans on) (by decide)
  | leaves at_test =>
    refine ⟨off, ⟨by simp, ?_, settled.queue, settled.ended⟩⟩
    rcases at_test with h | h <;> rw [remaining, h] at empty <;> exact empty
  | waits _ on => exact absurd (off.symm.trans on) (by decide)
  | pops _ _ _ on => exact absurd (off.symm.trans on) (by decide)
  | changes a at_change =>
    rw [remaining, at_change] at empty
    exact ⟨off, by simp, empty, settled.queue, settled.ended⟩
  | calls a at_call =>
    rw [remaining, at_call] at empty
    exact ⟨off, by simp, empty, settled.queue, settled.ended⟩

theorem worker_kept {locks : Bool} (kept : Kept s)
    (stepped : step s (.worker locks) = some next) : Kept next.1 := by
  have works := step_works stepped
  obtain ⟨_, main, present⟩ := works_beside works
  constructor
  · intro _ absent
    exact absurd absent present
  · intro stopping
    rw [main] at stopping
    obtain ⟨off, settled⟩ := kept.settled stopping
    exact worker_settled off settled works

theorem io_kept {e : Event} (io : e.IsIo) (kept : Kept s) (stepped : step s e = some next) :
    Kept next.1 := by
  have beside := io_beside io stepped
  constructor
  · intro at_join absent
    rw [beside.main] at at_join
    rw [beside.m_connections]
    apply kept.absent at_join
    rcases beside.ws_thread with same | woken
    · rw [← same, absent]
    · rw [woken] at absent
      exact Option.map_eq_none_iff.mp absent
  · intro stopping
    rw [beside.main] at stopping
    obtain ⟨t, found, running⟩ := beside.live
    exact absurd ((kept.settled stopping).2.ended t found) running

theorem spurious_kept (kept : Kept s) (stepped : step s .spurious = some next) : Kept next.1 := by
  simp only [step, Option.ite_none_right_eq_some] at stepped
  obtain ⟨waiting, eq⟩ := stepped
  cases eq
  constructor
  · intro _ absent
    rw [Server.wake, waiting] at absent
    contradiction
  · intro stopping
    obtain ⟨off, settled⟩ := kept.settled stopping
    exact ⟨off, wake_settled settled⟩

theorem step_kept (s : Server) (e : Event) (next : Server × Option Effect) (kept : Kept s)
    (careful : Careful s e) (stepped : step s e = some next) : Kept next.1 := by
  cases e with
  | main => exact main_kept kept careful stepped
  | worker locks => exact worker_kept kept stepped
  | spurious => exact spurious_kept kept stepped
  | listens i => exact io_kept (e := .listens i) trivial kept stepped
  | ends i => exact io_kept (e := .ends i) trivial kept stepped
  | handler i n => exact io_kept (e := .handler i n) trivial kept stepped
  | notify i => exact io_kept (e := .notify i) trivial kept stepped
  | run port =>
    simp only [step, Option.ite_none_right_eq_some] at stepped
    obtain ⟨idle, eq⟩ := stepped
    cases eq
    exact kept_of_main .idle idle (by decide)
  | stop =>
    simp only [step, Option.ite_none_right_eq_some] at stepped
    obtain ⟨idle, eq⟩ := stepped
    cases eq
    exact kept_of_main .stopping rfl (by decide)
  | destroy =>
    simp only [step, Option.ite_none_right_eq_some] at stepped
    obtain ⟨idle, eq⟩ := stepped
    cases eq
    exact kept_of_main .stopping rfl (by decide)

theorem kept_not_deadlocked (kept : Kept s) : ¬ Deadlocked s := by
  intro deadlocked
  obtain ⟨joining, _, on, _⟩ := deadlocked
  exact absurd ((kept.settled (.inr joining)).1.symm.trans on) (by decide)

theorem callback_ne_returned (a : Action) (derived locks : Bool) :
    a.callback derived locks ≠ some .returned := by
  cases a with
  | subscribe hdl => cases derived <;> simp [Action.callback]
  | unsubscribe hdl => cases derived <;> simp [Action.callback]
  | message hdl msg =>
    by_cases binary : msg.opcode = .binary <;> cases locks <;> cases derived <;>
      simp [Action.callback, binary]

theorem returns_cases {e : Event} (stepped : step s e = some next)
    (returned : next.2 = some .returned) :
    e = .main ∧ (s.main = .joiningServer ∧ s.ws_thread = none ∨
      s.main = .joiningWorker ∧ s.ws_thread = some .done) ∧
      next.1.m_connections = s.m_connections ∧ next.1.m_actions = s.m_actions := by
  rcases effect_cases stepped returned with ⟨locks, a, _, _, called⟩ | ⟨main, _⟩
  · exact absurd called (callback_ne_returned a s.derived locks)
  · subst main
    cases step_stops stepped with
    | returns_early at_join _ absent => exact ⟨rfl, .inl ⟨at_join, absent⟩, rfl, rfl⟩
    | returns at_join done => exact ⟨rfl, .inr ⟨at_join, done⟩, rfl, rfl⟩
    | refuses | clears | joins | clears_run | notifies => contradiction

theorem step_leavesNothing (s : Server) (e : Event) (next : Server × Option Effect)
    (kept : Kept s) (careful : Careful s e) (stepped : step s e = some next) :
    LeavesNothing s e := by
  intro next' stepped' returned
  obtain ⟨main, place, conns, queue⟩ := returns_cases stepped' returned
  subst main
  rw [conns, queue]
  rcases place with ⟨at_join, absent⟩ | ⟨at_join, done⟩
  · exact ⟨kept.absent at_join absent, careful.2 at_join absent⟩
  · have settled := (kept.settled (.inr at_join)).2
    have empty := settled.empty
    rw [remaining, done] at empty
    exact ⟨empty, settled.queue⟩

end

/-- In every run whose steps are careful `stop` comes to its end and leaves nothing. -/
theorem stops_careful_run {events : List Event}
    (careful : Runs.Steps step Careful .create events) :
    Runs.Visits step (fun s => ¬ Deadlocked s) .create events ∧
      Runs.Steps step LeavesNothing .create events :=
  ⟨Runs.visits_of_steps Kept step_kept (fun _ => kept_not_deadlocked) create_kept careful,
    Runs.steps_of_steps Kept step_kept step_leavesNothing create_kept careful⟩

def stopWithClient : List Event :=
  [.run 10000, .worker true, .worker true, .worker true, .listens 0,
    .handler 0 .opened, .notify 0, .worker true, .worker true, .worker true, .worker true,
    .worker true, .stop, .main, .ends 0, .main, .main, .main, .main, .worker true, .main]

theorem stops_careful_run_with_client :
    Runs.Visits step (fun s => ¬ Deadlocked s) .create stopWithClient ∧
      Runs.Steps step LeavesNothing .create stopWithClient :=
  stops_careful_run (by decide)

/-- `stop` before the first step of the worker, and `stop` with a SUBSCRIBE in the queue and
    another in the hand of the worker. -/
theorem stop_fails :
    (∃ s, Runs.run step .create [.stop, .main, .main, .main, .main, .main, .worker true,
      .worker true, .worker true] = some s ∧ Deadlocked s) ∧
    ∃ s next, Runs.run step .create [.run 10000, .worker true, .worker true, .listens 0,
      .handler 0 .opened, .notify 0, .worker true, .handler 0 .opened, .notify 0, .stop, .main,
      .main, .worker true, .ends 0, .main, .main, .main, .worker true, .worker true] = some s ∧
      step s .main = some next ∧ next.2 = some .returned ∧
      next.1.m_connections.hdls = [0] ∧ next.1.m_actions = [.subscribe 1] := by
  constructor
  · exact ⟨_, rfl, by decide⟩
  · exact ⟨_, _, rfl, rfl, rfl, rfl, rfl⟩

end ServerStop
