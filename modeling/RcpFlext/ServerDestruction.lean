import RcpFlext.WebsocketServer

/- Destruction of a WebsocketServerTransporter or WebsocketServerImpl. The base destructor
   stops the worker, and by then the callbacks of the derived class are gone. -/
namespace ServerDestruction
open WebsocketServer

def NoPureCall (s : Server) (e : Event) : Prop :=
  ∀ next, step s e = some next → next.2 ≠ some .pureCall

def inHand (s : Server) : List Action :=
  match s.ws_thread with
  | some (.changing a) => [a]
  | some (.calling a) => [a]
  | _ => []

/-- There is no worker, or nothing it will still come to calls the listener. -/
def Harmless (s : Server) : Prop :=
  s.ws_thread = none ∨
    (∀ t ∈ s.threads, t = .ended) ∧ ∀ a ∈ inHand s ++ s.m_actions, ¬ a.Calls

instance (s : Server) : Decidable (Harmless s) := inferInstanceAs (Decidable (_ ∨ _ ∧ _))

def Quiet (s : Server) : Event → Prop
  | .destroy => Harmless s
  | _ => True

instance (s : Server) : (e : Event) → Decidable (Quiet s e)
  | .destroy => inferInstanceAs (Decidable (Harmless s))
  | .run _ | .stop | .main | .worker _ | .spurious => isTrue trivial
  | .listens _ | .ends _ | .handler _ _ | .notify _ => isTrue trivial

def Kept (s : Server) : Prop := s.derived = false → s.main ≠ .idle ∧ Harmless s

section
variable {s : Server} {next : Server × Option Effect}

theorem wake_inHand (s : Server) : inHand s.wake = inHand s := by
  unfold inHand Server.wake
  cases s.ws_thread with
  | none => rfl
  | some w => cases w <;> rfl

theorem wake_absent (absent : s.ws_thread = none) : s.wake.ws_thread = none := by
  rw [Server.wake, absent]
  rfl

theorem wake_harmless (harmless : Harmless s) : Harmless s.wake := by
  rcases harmless with absent | ⟨ended, silent⟩
  · exact .inl (wake_absent absent)
  · right
    rw [wake_inHand]
    exact ⟨ended, silent⟩

theorem works_inHand {locks : Bool} (works : Works s locks next) {a : Action}
    (still : a ∈ inHand next.1 ++ next.1.m_actions) : a ∈ inHand s ++ s.m_actions := by
  cases works with
  | starts | goes_on | leaves | waits | calls => exact List.mem_append_right _ still
  | pops b rest at_lock on queue =>
    rw [queue]
    exact List.mem_append_right _ still
  | changes b at_change =>
    rw [inHand, at_change]
    exact still

theorem works_harmless {locks : Bool} (harmless : Harmless s) (works : Works s locks next) :
    Harmless next.1 := by
  have present : s.ws_thread ≠ none := by
    cases works with
    | leaves at_test => rcases at_test with h | h <;> simp [h]
    | starts h | goes_on h | waits h | pops _ _ h | changes _ h | calls _ h => simp [h]
  rcases harmless with absent | ⟨ended, silent⟩
  · exact absurd absent present
  · right
    constructor
    · cases works <;> exact ended
    · intro a still
      exact silent a (works_inHand works still)

theorem stops_harmless (harmless : Harmless s) (stops : Stops s next) : Harmless next.1 := by
  cases stops with
  | notifies => exact wake_harmless harmless
  | returns => exact .inl rfl
  | refuses | clears | returns_early | joins | clears_run => exact harmless

theorem stops_not_idle (half : s.derived = false) (stops : Stops s next) :
    next.1.main ≠ .idle := by
  cases stops with
  | returns_early => simp [Server.returned, half]
  | returns => simp [Server.returned, half]
  | refuses | clears | joins | clears_run | notifies => simp

theorem beside_harmless {after : Server} (beside : Beside s after) (harmless : Harmless s) :
    Harmless after := by
  rcases harmless with absent | ⟨ended, _⟩
  · left
    rcases beside.ws_thread with same | woken
    · rw [same, absent]
    · rw [woken, wake_absent absent]
  · obtain ⟨t, found, running⟩ := beside.live
    exact absurd (ended t found) running

theorem io_kept {e : Event} (io : e.IsIo) (kept : Kept s) (stepped : step s e = some next) :
    Kept next.1 := by
  have beside := io_beside io stepped
  intro half
  rw [beside.derived] at half
  obtain ⟨busy, harmless⟩ := kept half
  rw [beside.main]
  exact ⟨busy, beside_harmless beside harmless⟩

theorem step_kept (s : Server) (e : Event) (next : Server × Option Effect) (kept : Kept s)
    (quiet : Quiet s e) (stepped : step s e = some next) : Kept next.1 := by
  cases e with
  | main =>
    have stops := step_stops stepped
    intro half
    rw [stops_derived stops] at half
    exact ⟨stops_not_idle half stops, stops_harmless (kept half).2 stops⟩
  | worker locks =>
    have works := step_works stepped
    intro half
    obtain ⟨derived, main, _⟩ := works_beside works
    rw [derived] at half
    obtain ⟨busy, harmless⟩ := kept half
    rw [main]
    exact ⟨busy, works_harmless harmless works⟩
  | spurious =>
    simp only [step, Option.ite_none_right_eq_some] at stepped
    cases stepped.2
    intro half
    obtain ⟨busy, harmless⟩ := kept half
    exact ⟨busy, wake_harmless harmless⟩
  | listens i | ends i | handler i n | notify i => exact io_kept (by trivial) kept stepped
  | run port | stop =>
    simp only [step, Option.ite_none_right_eq_some] at stepped
    obtain ⟨idle, eq⟩ := stepped
    cases eq
    intro half
    exact absurd idle (kept half).1
  | destroy =>
    simp only [step, Option.ite_none_right_eq_some] at stepped
    cases stepped.2
    intro _
    exact ⟨by simp, quiet⟩

theorem calls_of_pureCall {a : Action} {derived locks : Bool}
    (called : a.callback derived locks = some .pureCall) : derived = false ∧ a.Calls := by
  cases a with
  | subscribe hdl => cases derived <;> simp_all [Action.callback, Action.Calls]
  | unsubscribe hdl => cases derived <;> simp_all [Action.callback, Action.Calls]
  | message hdl msg =>
    by_cases binary : msg.opcode = .binary <;> cases locks <;> cases derived <;>
      simp_all [Action.callback, Action.Calls]

theorem step_noPureCall (s : Server) (e : Event) (next : Server × Option Effect) (kept : Kept s)
    (_ : Quiet s e) (_ : step s e = some next) : NoPureCall s e := by
  intro after stepped pure
  rcases effect_cases stepped pure with ⟨locks, a, _, at_call, called⟩ | ⟨_, eq⟩
  · obtain ⟨half, calls⟩ := calls_of_pureCall called
    rcases (kept half).2 with absent | ⟨_, silent⟩
    · exact absurd (absent.symm.trans at_call) (by simp)
    · apply silent a _ calls
      rw [inHand, at_call]
      exact List.mem_append_left _ (List.mem_singleton_self a)
  · contradiction

end

/-- In every run that destroys the server only at quiet moments the worker never calls into
    the base class alone. -/
theorem no_pure_call_run {events : List Event} (quiet : Runs.Steps step Quiet .create events) :
    Runs.Steps step NoPureCall .create events :=
  Runs.steps_of_steps Kept step_kept step_noPureCall (fun half => absurd half (by decide)) quiet

/-- The server is destroyed after its network thread has ended and its queue is empty. -/
def destroyedIdle : List Event :=
  [.run 10000, .worker true, .worker true, .worker true, .listens 0, .handler 0 .opened,
    .notify 0, .worker true, .worker true, .worker true, .worker true, .worker true, .ends 0,
    .destroy, .main, .main, .main, .main, .main, .worker true, .main]

theorem no_pure_call_run_idle : Runs.Steps step NoPureCall .create destroyedIdle :=
  no_pure_call_run (by decide)

/-- The port is changed while a client connects: SUBSCRIBE is queued, the derived destructor
    ends, and the worker takes the action before it is told to stop. -/
theorem subscribe_after_destruction : ∃ s next, Runs.run step .create [.run 10000, .worker true,
      .worker true, .listens 0, .handler 0 .opened, .destroy, .worker true, .worker true] =
        some s ∧ s.derived = false ∧ step s (.worker true) = some next ∧
      next.2 = some .pureCall ∧ ¬ NoPureCall s (.worker true) := by
  refine ⟨_, _, rfl, rfl, rfl, rfl, ?_⟩
  intro never
  exact never _ rfl rfl

end ServerDestruction
