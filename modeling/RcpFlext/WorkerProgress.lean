import RcpFlext.EventReplay

/- The worker of a websocketServer never sleeps on work. Who queues an action or clears m_run
   notifies after it, so once nothing more comes, every queued action is processed within a
   number of steps that the state tells. -/
namespace WorkerProgress
open WebsocketServer Rosters ServerRoster EventReplay
open ClientCount (inCall)

/-- What a waiting worker relies on: a notify is still to come for whatever it should see. -/
structure Alert (s : Server) : Prop where
  queued : s.ws_thread = some .waiting → s.m_actions ≠ [] → Thread.notifying ∈ s.threads
  stopped : s.ws_thread = some .waiting → s.m_run = false → s.main = .notifying

/-- A notify of a handler or of `stop`, and no other step, takes the worker out of its wait. -/
def Woken (s : Server) : Prop :=
  ∃ e next, (e = .main ∨ ∃ i, e = .notify i) ∧ WebsocketServer.step s e = some next ∧
    next.1.ws_thread = some .locking

section
variable {s : Server} {next : Server × Option Effect}

theorem create_alert : Alert Server.create where
  queued waiting := by contradiction
  stopped waiting := by contradiction

theorem alert_elsewhere (elsewhere : s.ws_thread ≠ some .waiting) : Alert s where
  queued waiting := absurd waiting elsewhere
  stopped waiting := absurd waiting elsewhere

theorem wake_not_waiting (s : Server) : s.wake.ws_thread ≠ some .waiting := by
  intro waiting
  obtain ⟨w, _, woken⟩ := Option.map_eq_some_iff.mp waiting
  split at woken
  · contradiction
  · contradiction

theorem notifying_stays {i : Nat} {t : Thread} (other : s.threads[i]? ≠ some .notifying)
    (there : Thread.notifying ∈ s.threads) : Thread.notifying ∈ s.threads.set i t := by
  obtain ⟨j, at_j⟩ := List.mem_iff_getElem?.mp there
  apply List.mem_iff_getElem?.mpr
  refine ⟨j, ?_⟩
  have apart : i ≠ j := by
    intro same
    rw [same] at other
    exact other at_j
  rw [List.getElem?_set_ne apart]
  exact at_j

theorem goes_alert {i : Nat} {t : Thread} (other : s.threads[i]? ≠ some .notifying)
    (alert : Alert s) : Alert (s.goes i t) where
  queued waiting work := notifying_stays other (alert.queued waiting work)
  stopped := alert.stopped

theorem pushed_alert {t : Server} {i : Nat} (polling : s.threads[i]? = some .polling)
    (threads : t.threads = s.threads) (worker : t.ws_thread = s.ws_thread)
    (m_run : t.m_run = s.m_run) (main : t.main = s.main) (alert : Alert s) :
    Alert (t.goes i .notifying) where
  queued _ _ := by
    have inside : i < s.threads.length := (List.getElem?_eq_some_iff.mp polling).1
    rw [Server.goes, threads]
    exact List.mem_set inside .notifying
  stopped waiting off := by
    have waits : s.ws_thread = some .waiting := worker ▸ waiting
    have cleared : s.m_run = false := m_run ▸ off
    exact main.trans (alert.stopped waits cleared)

theorem handler_quiet {n : Network} {t : Server} (handled : s.handler n = some t) :
    t.ws_thread = s.ws_thread ∧ t.m_run = s.m_run ∧ t.main = s.main := by
  cases n with
  | opened =>
    cases handled
    exact ⟨rfl, rfl, rfl⟩
  | closed hdl | message hdl msg =>
    simp only [Server.handler, Option.ite_none_right_eq_some] at handled
    cases handled.2
    exact ⟨rfl, rfl, rfl⟩

theorem works_alert {locks : Bool} (works : Works s locks next) : Alert next.1 := by
  cases works with
  | waits _ on empty =>
    constructor
    · intro _ work
      exact absurd empty work
    · intro _ off
      exact absurd (on.symm.trans off) (by decide)
  | starts | goes_on | leaves | pops | changes | calls => exact alert_elsewhere (by simp)

theorem stops_alert (alert : Alert s) (stops : Stops s next) : Alert next.1 := by
  -- a worker that waits with m_run off is about to be notified by this very thread
  have on_track (elsewhere : s.main ≠ .notifying) (waiting : s.ws_thread = some .waiting)
      (off : s.m_run = false) : False := elsewhere (alert.stopped waiting off)
  cases stops with
  | refuses at_stop | clears at_stop | joins at_stop =>
    refine ⟨alert.queued, fun waiting off => ?_⟩
    exact (on_track (by simp [at_stop]) waiting off).elim
  | clears_run at_run => exact ⟨alert.queued, fun _ _ => rfl⟩
  | notifies => exact alert_elsewhere (wake_not_waiting s)
  | returns_early _ _ absent => exact alert_elsewhere (by simp [Server.returned, absent])
  | returns => exact alert_elsewhere (by simp [Server.returned])

theorem step_alert {e : WebsocketServer.Event} (alert : Alert s)
    (stepped : WebsocketServer.step s e = some next) : Alert next.1 := by
  cases e with
  | main => exact stops_alert alert (step_stops stepped)
  | worker locks => exact works_alert (step_works stepped)
  | run port =>
    simp only [WebsocketServer.step, Option.ite_none_right_eq_some] at stepped
    obtain ⟨idle, eq⟩ := stepped
    cases eq
    have waited (waiting : (s.run port).ws_thread = some .waiting) :
        s.ws_thread = some .waiting := by
      cases stands : s.ws_thread with
      | none => simp [Server.run, stands] at waiting
      | some w => simpa [Server.run, stands] using waiting
    constructor
    · intro waiting work
      exact List.mem_append_left _ (alert.queued (waited waiting) work)
    · intro waiting off
      exact alert.stopped (waited waiting) off
  | stop | destroy =>
    simp only [WebsocketServer.step, Option.ite_none_right_eq_some] at stepped
    obtain ⟨idle, eq⟩ := stepped
    cases eq
    refine ⟨alert.queued, fun waiting off => ?_⟩
    exact absurd (idle.symm.trans (alert.stopped waiting off)) (by decide)
  | spurious =>
    simp only [WebsocketServer.step, Option.ite_none_right_eq_some] at stepped
    cases stepped.2
    exact alert_elsewhere (wake_not_waiting s)
  | listens i =>
    simp only [WebsocketServer.step, Option.ite_none_right_eq_some] at stepped
    obtain ⟨starting, eq⟩ := stepped
    cases eq
    have other : s.threads[i]? ≠ some .notifying := by simp [starting]
    have still : Alert (s.goes i .polling) := goes_alert other alert
    exact ⟨still.queued, still.stopped⟩
  | ends i =>
    simp only [WebsocketServer.step, Option.ite_none_right_eq_some] at stepped
    obtain ⟨running, eq⟩ := stepped
    cases eq
    have other : s.threads[i]? ≠ some .notifying := by
      rcases running with starting | polling
      · simp [starting]
      · simp [polling]
    exact goes_alert other alert
  | handler i n =>
    simp only [WebsocketServer.step, Option.ite_none_right_eq_some, Option.map_eq_some_iff] at stepped
    obtain ⟨polling, t, handled, eq⟩ := stepped
    subst eq
    obtain ⟨worker, m_run, main⟩ := handler_quiet handled
    exact pushed_alert polling (handler_keeps handled).2 worker m_run main alert
  | notify i =>
    simp only [WebsocketServer.step, Option.ite_none_right_eq_some] at stepped
    cases stepped.2
    exact alert_elsewhere (wake_not_waiting (s.goes i .polling))

theorem wake_locking (waiting : s.ws_thread = some .waiting) :
    s.wake.ws_thread = some .locking := by
  simp [Server.wake, waiting]

theorem alert_woken (alert : Alert s) (waiting : s.ws_thread = some .waiting)
    (due : s.m_actions ≠ [] ∨ s.m_run = false) : Woken s := by
  rcases due with work | off
  · obtain ⟨i, notifying⟩ := List.mem_iff_getElem?.mp (alert.queued waiting work)
    refine ⟨.notify i, ((s.goes i .polling).wake, none), .inr ⟨i, rfl⟩, ?_, wake_locking waiting⟩
    simp [WebsocketServer.step, notifying]
  · have main := alert.stopped waiting off
    refine ⟨.main, ({ s.wake with main := .joiningWorker }, none), .inl rfl, ?_,
      wake_locking waiting⟩
    simp [WebsocketServer.step, Server.stopStep, main]

end

/-- However `run`, `stop`, the destructor, the handlers and the worker interleave, a worker that
    waits while an action is queued or m_run is off has a notify still to come. -/
theorem no_lost_wakeup (es : List WebsocketServer.Event) (s : Server)
    (ran : Runs.run WebsocketServer.step Server.create es = some s)
    (waiting : s.ws_thread = some .waiting) (due : s.m_actions ≠ [] ∨ s.m_run = false) :
    Woken s :=
  alert_woken (Runs.run_keeps (fun _ _ _ => step_alert) create_alert ran) waiting due

def opensWhileWaiting : List WebsocketServer.Event :=
  [.run 9000, .listens 0, .worker true, .worker true, .worker true, .handler 0 .opened]

theorem opening_wakes : ∃ s, Runs.run WebsocketServer.step Server.create opensWhileWaiting = some s ∧
    s.m_actions = [.subscribe 0] ∧ Woken s :=
  ⟨_, rfl, rfl, no_lost_wakeup opensWhileWaiting _ rfl rfl (.inl (by decide))⟩

def Drains : EventReplay.Event → Prop
  | .beside (.worker _) => True
  | .beside (.notify _) => True
  | _ => False

instance : (e : EventReplay.Event) → Decidable (Drains e)
  | .handler _ _ => isFalse id
  | .beside e =>
    match e with
    | .worker _ | .notify _ => isTrue trivial
    | .run _ | .stop | .destroy | .main | .spurious | .listens _ | .ends _ | .handler _ _ =>
      isFalse id

/-- What goes on in a server while nothing more comes from the network. -/
def drain : Runs.Machine Server EventReplay.Event (Option Effect) :=
  fun s e => if Drains e then EventReplay.step s e else none

def position : Option Worker → Nat
  | some .starting => 3
  | some .testing => 2
  | some .locking => 1
  | some (.changing _) => 4
  | some (.calling _) => 3
  | _ => 0

/-- An action takes four steps, and a notify may send the worker round once more. -/
def work (s : Server) : Nat :=
  4 * s.m_actions.length + position s.ws_thread + 2 * s.threads.count .notifying

structure Up (s : Server) : Prop where
  alert : Alert s
  worker : ∃ w, s.ws_thread = some w ∧ w ≠ .done ∧ (w ≠ .starting → s.m_run = true)

section
variable {s : Server} {next : Server × Option Effect}

theorem drain_step {e : EventReplay.Event} (stepped : drain s e = some next) :
    EventReplay.step s e = some next := by
  simp only [drain, Option.ite_none_right_eq_some] at stepped
  exact stepped.2

theorem drain_cases {e : EventReplay.Event} (stepped : drain s e = some next) :
    (∃ locks, e = .beside (.worker locks) ∧ Works s locks next) ∨
    ∃ i, e = .beside (.notify i) ∧ s.threads[i]? = some .notifying ∧
      next = ((s.goes i .polling).wake, none) := by
  have drains : Drains e := by
    simp only [drain, Option.ite_none_right_eq_some] at stepped
    exact stepped.1
  cases EventReplay.step_does (drain_step stepped) with
  | works locks _ works => exact .inl ⟨locks, rfl, works⟩
  | notifies i notifying => exact .inr ⟨i, rfl, notifying, rfl⟩
  | handles | runs | wakes | listens | ends => exact absurd drains id

theorem works_work {locks : Bool} (works : Works s locks next) : work next.1 + 1 ≤ work s := by
  cases works with
  | starts stands | goes_on stands | waits stands | changes a stands | calls a stands =>
    simp only [work, stands, position]
    omega
  | leaves stands =>
    rcases stands with stands | stands <;>
    · simp only [work, stands, position]
      omega
  | pops a rest stands _ queue =>
    simp only [work, stands, queue, position, List.length_cons]
    omega

theorem wake_position (s : Server) : position s.wake.ws_thread ≤ position s.ws_thread + 1 := by
  unfold Server.wake
  cases s.ws_thread with
  | none => exact Nat.zero_le _
  | some w => cases w <;> simp [position]

theorem notify_work {i : Nat} (notifying : s.threads[i]? = some .notifying) :
    work (s.goes i .polling).wake + 1 ≤ work s := by
  obtain ⟨inside, at_i⟩ := List.getElem?_eq_some_iff.mp notifying
  have woken := wake_position (s.goes i .polling)
  have one : s.threads.count .notifying =
      (s.threads.set i .polling).count .notifying + 1 := by
    have there : 0 < s.threads.count .notifying :=
      List.count_pos_iff.mpr (List.mem_of_getElem? notifying)
    rw [List.count_set inside, at_i]
    simp only [beq_self_eq_true, ↓reduceIte]
    have apart : (Thread.polling == Thread.notifying) = false := rfl
    simp only [apart, Bool.false_eq_true, ↓reduceIte]
    omega
  have rest : work (s.goes i .polling).wake = 4 * s.m_actions.length +
      position (s.goes i .polling).wake.ws_thread +
        2 * (s.threads.set i .polling).count .notifying := rfl
  have same : (s.goes i .polling).ws_thread = s.ws_thread := rfl
  rw [same] at woken
  rw [rest, work, one]
  omega

theorem drain_falls (s : Server) (e : EventReplay.Event) (next : Server × Option Effect)
    (stepped : drain s e = some next) : work next.1 < work s := by
  rcases drain_cases stepped with ⟨locks, _, works⟩ | ⟨i, _, notifying, eq⟩
  · exact works_work works
  · rw [eq]
    exact notify_work notifying

theorem create_up : Up Server.create where
  alert := create_alert
  worker := ⟨.starting, rfl, by simp, by simp⟩

theorem up_of_same {t : Server} (up : Up s) (alert : Alert t)
    (worker : t.ws_thread = s.ws_thread) (m_run : t.m_run = s.m_run) : Up t where
  alert := alert
  worker := by
    rw [worker, m_run]
    exact up.worker

theorem wake_up {t : Server} (up : Up s) (alert : Alert t.wake)
    (worker : t.ws_thread = s.ws_thread) (m_run : t.m_run = s.m_run) : Up t.wake where
  alert := alert
  worker := by
    obtain ⟨w, stands, there, on⟩ := up.worker
    refine ⟨if w = .waiting then .locking else w, by simp [Server.wake, worker, stands], ?_, ?_⟩
    · split
      · simp
      · exact there
    · intro begun
      by_cases waits : w = .waiting
      · exact m_run.trans (on (by simp [waits]))
      · rw [if_neg waits] at begun
        exact m_run.trans (on begun)

theorem works_up {locks : Bool} (up : Up s) (works : Works s locks next) : Up next.1 := by
  refine ⟨works_alert works, ?_⟩
  obtain ⟨w, stands, _, on⟩ := up.worker
  cases works with
  | starts => exact ⟨_, rfl, by simp, by simp⟩
  | goes_on _ running | waits _ running | pops _ _ _ running =>
    exact ⟨_, rfl, by simp, fun _ => running⟩
  | leaves at_test off =>
    have begun : w ≠ .starting := by
      rcases at_test with h | h <;> rw [stands] at h <;> cases h <;> simp
    exact absurd (off.symm.trans (on begun)) (by decide)
  | changes a at_change =>
    rw [stands] at at_change
    cases at_change
    exact ⟨_, rfl, by simp, fun _ => on (by simp)⟩
  | calls a at_call =>
    rw [stands] at at_call
    cases at_call
    exact ⟨_, rfl, by simp, fun _ => on (by simp)⟩

theorem step_up {e : EventReplay.Event} (up : Up s) (stepped : EventReplay.step s e = some next) :
    Up next.1 := by
  have alert {e} (did : EventReplay.step s (.beside e) = some next) : Alert next.1 :=
    step_alert up.alert (EventReplay.step_beside did)
  cases EventReplay.step_does stepped with
  | handles i a polling =>
    exact up_of_same up (pushed_alert polling rfl rfl rfl rfl up.alert) rfl rfl
  | works locks _ works => exact works_up up works
  | runs port =>
    obtain ⟨w, stands, there⟩ := up.worker
    exact ⟨alert stepped, w, by simp [Server.run, stands], there⟩
  | wakes => exact wake_up up (alert stepped) rfl rfl
  | listens i | ends i => exact up_of_same up (alert stepped) rfl rfl
  | notifies i => exact wake_up up (alert stepped) rfl rfl

theorem resting_worker (up : Up s) (rests : ∀ e, drain s e = none) :
    s.ws_thread = some .waiting := by
  obtain ⟨w, stands, there, on⟩ := up.worker
  have blocked : s.workerStep true w = none := by
    have none_left : WebsocketServer.step s (.worker true) = none := rests (.beside (.worker true))
    simpa [WebsocketServer.step, stands] using none_left
  cases w with
  | waiting => exact stands
  | done => exact absurd rfl there
  | locking =>
    have running := on (by simp)
    cases queue : s.m_actions <;> simp [Server.workerStep, running, queue] at blocked
  | starting | testing | changing a | calling a => simp [Server.workerStep] at blocked

/-- Where neither the worker nor a notify can go on, there is nothing left to do. -/
theorem rest_done (up : Up s) (rests : ∀ e, drain s e = none) :
    toCome s = [] ∧ inCall s = none := by
  have waiting := resting_worker up rests
  have empty : s.m_actions = [] := by
    by_contra work
    obtain ⟨i, notifying⟩ := List.mem_iff_getElem?.mp (up.alert.queued waiting work)
    have left : WebsocketServer.step s (.notify i) = none := rests (.beside (.notify i))
    simp [WebsocketServer.step, notifying] at left
  exact ⟨by simp [toCome, waiting, empty], by simp [inCall, waiting]⟩

theorem drain_queues_nothing {t : Server} {fs : List EventReplay.Event}
    (ran : Runs.run drain s fs = some t) :
    Runs.told EventReplay.step (fun _ e _ => queued e) s fs = [] := by
  induction fs generalizing s with
  | nil => rfl
  | cons f fs ih =>
    obtain ⟨next, stepped, rest⟩ := Option.bind_eq_some_iff.mp ran
    rw [Runs.told_cons (drain_step stepped), ih rest]
    rcases drain_cases stepped with ⟨_, eq, _⟩ | ⟨_, eq, _⟩ <;> rw [eq] <;> rfl

end

/-- Once nothing more comes from the network, an unstopped server takes at most `work s` steps,
    whichever thread is scheduled, and then every queued event has been processed, in order and
    once, and the set holds who has come and not gone. -/
theorem server_drains (es : List EventReplay.Event) (s : Server)
    (ran : Runs.run EventReplay.step Server.create es = some s) :
    (∃ fs t, Runs.run drain s fs = some t ∧ ∀ e, drain t e = none) ∧
    ∀ fs t, Runs.run drain s fs = some t → fs.length ≤ work s ∧
      ((∀ e, drain t e = none) → (processedIn (es ++ fs)).map Prod.fst = queuedIn es ∧
        callbacksIn (es ++ fs) = (processedIn (es ++ fs)).filterMap answer ∧
        (Ordered (queuedIn es) → ∀ hdl, hdl ∈ t.m_connections.hdls ↔
          Action.subscribe hdl ∈ queuedIn es ∧ Action.unsubscribe hdl ∉ queuedIn es)) := by
  refine ⟨Runs.run_to_rest drain_falls s, fun fs t drained => ⟨?_, fun rests => ?_⟩⟩
  · have bound := Runs.run_length_le drain_falls drained
    omega
  have whole : Runs.run EventReplay.step Server.create (es ++ fs) = some t := by
    rw [Runs.run_append, ran]
    exact Runs.run_within (fun _ _ _ => drain_step) drained
  have up : Up t := Runs.run_keeps (fun _ _ _ => step_up) create_up whole
  obtain ⟨nothing, silent⟩ := rest_done up rests
  have queue := queued_run whole
  have none_more : queuedIn (es ++ fs) = queuedIn es := by
    rw [queuedIn, Runs.told_append ran, drain_queues_nothing drained, List.append_nil, queuedIn]
  have set := set_run whole
  simp only [none_more, nothing, silent, Option.toList_none, List.append_nil] at queue set
  refine ⟨queue.symm, callbacks_run (es ++ fs), fun ordered hdl => ?_⟩
  rw [set, ← queue]
  exact mem_after_iff ordered hdl

def unworked : List EventReplay.Event :=
  [.beside (.run 9000), .beside (.listens 0), .handler 0 (.subscribe 3), .beside (.notify 0),
    .handler 0 (.message 3 ⟨.binary, [1]⟩)]

theorem unworked_drains : ∃ fs t, Runs.run drain
      ((Runs.run EventReplay.step Server.create unworked).getD Server.create) fs = some t ∧
    (processedIn (unworked ++ fs)).map Prod.fst = [.subscribe 3, .message 3 ⟨.binary, [1]⟩] := by
  obtain ⟨⟨fs, t, drained, rests⟩, all⟩ := server_drains unworked _ rfl
  exact ⟨fs, t, drained, ((all fs t drained).2 rests).1⟩

end WorkerProgress
