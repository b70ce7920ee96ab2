import RcpFlext.RabbitHole

/- When the reconnect logic leaves an open tunnel alone: as long as the try-connect timer
   is not pending beside it. Four kinds of event can bring the two together. -/
namespace TunnelKept
open Atoms Websocket RabbitHole Transporter Client

/-- The events that may end connection `c`: the three commands, and its own peer. -/
def Ends (c : Nat) : Event → Prop
  | .connect _ _ _ => True
  | .setInterval i => i ≤ 0
  | .unbind => True
  | .failed d _ => d = c
  | .closed d _ => d = c
  | _ => False

/-- What happens next cannot disturb the open connection. -/
structure Undisturbed (noSsl : Bool) (t : Transporter) : Prop where
  expiry : ∀ c, t.websocket.Open c → ∀ attempt next, step noSsl t (.timer attempt) = some next →
    ∀ uri, .websocketConnect uri ∉ next.2
  lasting : ∀ c, t.websocket.Open c → ∀ e next, step noSsl t e = some next → ¬ Ends c e →
    next.1.websocket.Open c

def Careful (t : Transporter) : Event → Prop
  | .connect uri _ _ => ws <+: rewritten uri ∨ rewritten uri = [] ∨ t.m_tryConnectTimer = none ∨
      ∀ c, ¬ t.websocket.Open c
  | .setInterval i => i ≤ 0 ∨ t.m_connectInterval ≤ 0 ∨ t.m_uri = [] ∨ ∀ c, ¬ t.websocket.Open c
  | .opened c => t.websocket.IsCurrent c → t.m_tryConnectTimer = none ∨ t.m_uri = []
  | .closed c _ => t.m_doTryConnect = false ∨ t.m_connectInterval ≤ 0 ∨ t.m_uri = [] ∨
      ∀ d, d ≠ c → ¬ t.websocket.Open d
  | _ => True

/-- No expiry that would reconnect is pending beside an open tunnel. -/
def Quiet (t : Transporter) : Prop :=
  ∀ c, t.websocket.Open c → t.m_tryConnectTimer = none ∨ t.m_uri = []

section
variable (t : Transporter)

theorem tryConnect_quiet_iff (quiet : Quiet t) :
    Quiet t.tryConnect ↔
      t.m_connectInterval ≤ 0 ∨ t.m_uri = [] ∨ ∀ c, ¬ t.websocket.Open c := by
  by_cases arms : 0 < t.m_connectInterval ∧ t.m_uri ≠ []
  · have armed : t.tryConnect = { t with m_tryConnectTimer := some t.m_connectInterval } := by
      rw [tryConnect, if_pos arms]
    rw [armed]
    constructor
    · intro quiet
      right; right
      intro c opened
      rcases quiet c opened with none | empty
      · contradiction
      · exact arms.2 empty
    · rintro (off | empty | closed)
      · exact absurd arms.1 (by omega)
      · exact absurd empty arms.2
      · exact fun c opened => absurd opened (closed c)
  · have same : t.tryConnect = t := by rw [tryConnect, if_neg arms]
    rw [same]
    constructor
    · intro _
      by_cases on : 0 < t.m_connectInterval
      · right; left
        by_contra some_uri
        exact arms ⟨on, some_uri⟩
      · left
        omega
    · exact fun _ => quiet

theorem quiet_of_not_open (closed : ∀ c, ¬ t.websocket.Open c) : Quiet t :=
  fun c opened => absurd opened (closed c)

end

variable {t : Transporter} {noSsl : Bool} {next : Transporter × List Effect}

theorem connect_quiet_iff (uri subprotocol : Text) (attempt : Attempt) :
    Quiet (t.connect noSsl uri subprotocol attempt).1 ↔
      Careful t (.connect uri subprotocol attempt) := by
  by_cases web : ws <+: rewritten uri
  · simp only [Transporter.connect, web, ↓reduceIte, Careful, true_or, iff_true]
    apply quiet_of_not_open
    exact connect_not_open noSsl t.websocket (rewritten uri) subprotocol attempt
  · simp only [Transporter.connect, web, ↓reduceIte, Careful, false_or, Quiet]
    constructor
    · intro later
      by_cases empty : rewritten uri = []
      · exact .inl empty
      by_cases none : t.m_tryConnectTimer = none
      · exact .inr (.inl none)
      right; right
      intro c opened
      rcases later c opened with h | h
      · exact none h
      · exact empty h
    · rintro (empty | none | closed) c opened
      · exact .inr empty
      · exact .inl none
      · exact absurd opened (closed c)

theorem setInterval_quiet_iff (quiet : Quiet t) (i : Int) :
    Quiet (t.setInterval i) ↔ Careful t (.setInterval i) := by
  by_cases off : i ≤ 0
  · rw [setInterval_off t off]
    simp only [Careful, off, true_or, iff_true]
    apply quiet_of_not_open
    exact disconnect_not_open t.websocket
  · have same : Quiet { t with m_connectInterval := i } := quiet
    have armed := tryConnect_quiet_iff { t with m_connectInterval := i } same
    simp only [off, false_or] at armed
    rw [setInterval_on t (by omega)]
    by_cases was : 0 < t.m_connectInterval
    · have positive : ¬ t.m_connectInterval ≤ 0 := by omega
      simp only [was, ↓reduceIte, Careful, off, positive, false_or]
      exact armed
    · have zero : t.m_connectInterval ≤ 0 := by omega
      simp only [was, ↓reduceIte, Careful, zero, true_or, or_true, iff_true]
      exact same

theorem timer_quiet (attempt : Attempt)
    (stepped : step noSsl t (.timer attempt) = some next) : Quiet next.1 := by
  obtain ⟨_, _, eq⟩ := Option.map_eq_some_iff.mp stepped
  subst eq
  unfold tryConnectTimerTimeout
  split
  · exact fun _ _ => .inl rfl
  · apply quiet_of_not_open
    exact connect_not_open noSsl t.websocket t.m_uri [] attempt

theorem opened_quiet_iff (quiet : Quiet t) (c : Nat)
    (stepped : step noSsl t (.opened c) = some next) : Quiet next.1 ↔ Careful t (.opened c) := by
  obtain ⟨connecting, settled, timer, uri⟩ := step_opened_cases stepped
  simp only [Quiet, Careful, settled, timer, uri, open_settle_opened connecting]
  constructor
  · intro later current
    exact later c (.inl ⟨rfl, current⟩)
  · intro careful d opened
    rcases opened with ⟨_, current⟩ | before
    · exact careful current
    · exact quiet d before

theorem failed_quiet (slots : Slots t.websocket) (quiet : Quiet t) (c : Nat) (code : BitVec 16)
    (stepped : step noSsl t (.failed c code) = some next) : Quiet next.1 := by
  obtain ⟨settled, current | silent⟩ := step_failed_cases slots stepped
  · apply quiet_of_not_open
    intro d opened
    rw [settled] at opened
    have other := open_settle_closed.mp opened
    exact other.1 (current_unique slots other.2.1 current)
  · rw [silent]
    intro d opened
    exact quiet d (open_settle_closed.mp opened).2

theorem closed_quiet_iff (slots : Slots t.websocket) (quiet : Quiet t) (c : Nat)
    (code : BitVec 16) (stepped : step noSsl t (.closed c code) = some next) :
    Quiet next.1 ↔ Careful t (.closed c code) := by
  have settledQuiet : Quiet { t with websocket := t.websocket.settle c .closed } :=
    fun d opened => quiet d (open_settle_closed.mp opened).2
  have others : (∀ d, ¬ (t.websocket.settle c .closed).Open d) ↔
      ∀ d, d ≠ c → ¬ t.websocket.Open d := by
    simp only [open_settle_closed, not_and]
  have armed := tryConnect_quiet_iff _ settledQuiet
  rw [others] at armed
  rw [step_closed_cases slots stepped, disconnected, Careful]
  by_cases trying : t.m_doTryConnect = true
  · have on : ¬ t.m_doTryConnect = false := by simp [trying]
    rw [if_pos trying, or_iff_right on]
    exact armed
  · have off : t.m_doTryConnect = false := by simpa using trying
    rw [if_neg trying]
    simp only [off, true_or, iff_true]
    exact settledQuiet

theorem step_quiet_iff (slots : Slots t.websocket) (quiet : Quiet t) (e : Event)
    (stepped : step noSsl t e = some next) : Quiet next.1 ↔ Careful t e := by
  cases e with
  | connect uri subprotocol attempt =>
    cases stepped
    exact connect_quiet_iff uri subprotocol attempt
  | setInterval i =>
    cases stepped
    exact setInterval_quiet_iff quiet i
  | unbind =>
    cases stepped
    simp only [Careful, iff_true]
    exact fun _ _ => .inl rfl
  | timer attempt =>
    simp only [Careful, iff_true]
    exact timer_quiet attempt stepped
  | opened c => exact opened_quiet_iff quiet c stepped
  | failed c code =>
    simp only [Careful, iff_true]
    exact failed_quiet slots quiet c code stepped
  | closed c code => exact closed_quiet_iff slots quiet c code stepped

theorem step_slots (slots : Slots t.websocket) (e : Event)
    (stepped : step noSsl t e = some next) : Slots next.1.websocket := by
  obtain ⟨es, _, ran⟩ := step_runs stepped
  exact Runs.run_keeps (ClientRuns.step_slots noSsl) slots ran

theorem lasting_step (slots : Slots t.websocket) (quiet : Quiet t) {c : Nat}
    (opened : t.websocket.Open c) (e : Event) (stepped : step noSsl t e = some next)
    (spared : ¬ Ends c e) : next.1.websocket.Open c := by
  cases e with
  | connect uri subprotocol attempt => exact absurd trivial spared
  | setInterval i =>
    have on : ¬ i ≤ 0 := spared
    cases stepped
    rw [setInterval_on t (by omega)]
    split
    · rw [tryConnect_websocket]
      exact opened
    · exact opened
  | unbind => exact absurd trivial spared
  | timer attempt =>
    obtain ⟨delay, armed, eq⟩ := Option.map_eq_some_iff.mp stepped
    subst eq
    rcases quiet c opened with none | empty
    · rw [none] at armed
      contradiction
    · rw [tryConnectTimerTimeout, if_pos empty]
      exact opened
  | opened d =>
    obtain ⟨connecting, settled, _⟩ := step_opened_cases stepped
    rw [settled]
    exact (open_settle_opened connecting).mpr (.inr opened)
  | failed d code =>
    rw [(step_failed_cases slots stepped).1]
    exact open_settle_closed.mpr ⟨fun same => spared same.symm, opened⟩
  | closed d code =>
    rw [step_closed_websocket slots stepped]
    exact open_settle_closed.mpr ⟨fun same => spared same.symm, opened⟩

theorem undisturbed_iff_quiet (slots : Slots t.websocket) : Undisturbed noSsl t ↔ Quiet t := by
  constructor
  · intro undisturbed c opened
    by_contra pending
    rw [not_or] at pending
    obtain ⟨delay, armed⟩ := Option.ne_none_iff_exists'.mp pending.1
    have expired : step noSsl t (.timer .started) =
        some ({ t with m_tryConnectTimer := none }.tryConnectTimerTimeout noSsl .started) := by
      simp [step, armed]
    apply undisturbed.expiry c opened .started _ expired t.m_uri
    rw [tryConnectTimerTimeout, if_neg pending.2]
    exact List.mem_singleton.mpr rfl
  · intro quiet
    constructor
    · intro c opened attempt next expired uri
      obtain ⟨delay, armed, eq⟩ := Option.map_eq_some_iff.mp expired
      subst eq
      rcases quiet c opened with none | empty
      · rw [none] at armed
        contradiction
      · rw [tryConnectTimerTimeout, if_pos empty]
        exact List.not_mem_nil
    · intro c opened e next stepped spared
      exact lasting_step slots quiet opened e stepped spared

/-- In every run the open tunnel stays undisturbed exactly when every step is careful. -/
theorem undisturbed_run_iff (noSsl : Bool) (events : List Event) :
    Runs.Visits (step noSsl) (Undisturbed noSsl) .create events ↔
      Runs.Steps (step noSsl) Careful .create events := by
  have kept : ∀ (t : Transporter) e next, Slots t.websocket → step noSsl t e = some next →
      Slots next.1.websocket := fun t e next slots stepped => step_slots slots e stepped
  have start : Quiet .create := fun c opened => .inl rfl
  rw [Runs.visits_congr (fun t : Transporter => Slots t.websocket) kept
    (fun t slots => undisturbed_iff_quiet slots) fresh_slots events]
  exact Runs.visits_iff_steps (fun t : Transporter => Slots t.websocket) kept
    (fun t e next slots quiet stepped => step_quiet_iff slots quiet e stepped)
    fresh_slots start events

def lateClose : List Event :=
  [.connect addressA [] .started, .opened 0,
    .connect addressB [] .started, .opened 1, .closed 0 1000]

/-- The timer that close armed replaces the open tunnel. -/
theorem late_close_drops_tunnel :
    ∃ t next, Runs.run (step false) .create lateClose = some t ∧ t.websocket.Open 1 ∧
      step false t (.timer .started) = some next ∧
      .websocketConnect addressB ∈ next.2 ∧ ¬ next.1.websocket.Open 1 ∧
      ¬ Undisturbed false t := by
  refine ⟨_, _, rfl, by decide, rfl, by decide, by decide, ?_⟩
  intro undisturbed
  exact undisturbed.expiry 1 (by decide) .started _ rfl addressB (by decide)

end TunnelKept
