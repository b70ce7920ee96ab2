import RcpFlext.RabbitHole

/- Whether the reconnect loop keeps going: with nothing under way and a tunnel wanted, the
   try-connect timer has to be pending, since nothing else will start the next attempt. -/
namespace ReconnectLoop
open Atoms Websocket Client RabbitHole Transporter

def Creatable (accepts : Text → Bool) (noSsl : Bool) (uri : Text) : Prop :=
  ws <+: uri ∧ (wss <+: uri → noSsl = false) ∧ accepts uri = true

/-- websocketpp starts a connection for every uri it accepts. -/
def Answers (accepts : Text → Bool) (t : Transporter) : Event → Prop
  | .connect uri _ attempt => accepts (rewritten uri) = true → attempt = .started
  | .timer attempt => accepts t.m_uri = true → attempt = .started
  | _ => True

instance (accepts : Text → Bool) (t : Transporter) : (e : Event) → Decidable (Answers accepts t e)
  | .connect _ _ _ => inferInstanceAs (Decidable (_ → _))
  | .timer _ => inferInstanceAs (Decidable (_ → _))
  | .setInterval _ | .unbind | .opened _ | .failed _ _ | .closed _ _ => isTrue trivial

def tunnel (accepts : Text → Bool) (noSsl : Bool) : Runs.Machine Transporter Event (List Effect) :=
  fun t e => if Answers accepts t e then step noSsl t e else none

/-- Connection `c` is under way: connecting, open or still to deliver its close. -/
def UnderWay (w : Client) (c : Nat) : Prop :=
  w.stateOf c = some .connecting ∨ w.stateOf c = some .opened ∨ w.stateOf c = some .closing

section
variable (accepts : Text → Bool) (noSsl : Bool)

/-- A tunnel is wanted and only the timer could start it. -/
def Waiting (t : Transporter) : Prop :=
  t.m_doTryConnect = true ∧ Creatable accepts noSsl t.m_uri ∧ ∀ c, ¬ UnderWay t.websocket c

def Running (t : Transporter) : Prop :=
  0 < t.m_connectInterval → Waiting accepts noSsl t → t.m_tryConnectTimer ≠ none

def Careful (t : Transporter) : Event → Prop
  | .setInterval i => 0 < i → t.m_connectInterval ≤ 0 → Waiting accepts noSsl t →
      t.m_tryConnectTimer ≠ none
  | .failed c _ => t.websocket.IsCurrent c ∨ (0 < t.m_connectInterval →
      t.m_doTryConnect = true → Creatable accepts noSsl t.m_uri →
      (∀ d, d ≠ c → ¬ UnderWay t.websocket d) → t.m_tryConnectTimer ≠ none)
  | _ => True

end

section
variable {accepts : Text → Bool} {noSsl : Bool} {t : Transporter}
  {next : Transporter × List Effect}

theorem creatable_ne_nil {uri : Text} (creatable : Creatable accepts noSsl uri) : uri ≠ [] := by
  intro empty
  rw [empty] at creatable
  exact absurd creatable.1 (by decide)

theorem connect_under_way {uri : Text} (creatable : Creatable accepts noSsl uri) (w : Client)
    (subprotocol : Text) :
    UnderWay (w.connect noSsl uri subprotocol .started) w.disconnect.connections.length := by
  have some_uri := creatable_ne_nil creatable
  obtain ⟨web, secure, _⟩ := creatable
  left
  by_cases ssl : wss <+: uri
  · simp [Client.connect, some_uri, web, ssl, secure ssl, stateOf, Connection.create]
  · simp [Client.connect, some_uri, web, ssl, stateOf, Connection.create]

theorem settle_under_way_iff (w : Client) (c d : Nat) :
    UnderWay (w.settle c .closed) d ↔ d ≠ c ∧ UnderWay w d := by
  unfold UnderWay
  rw [settle_stateOf]
  by_cases here : c = d
  · subst here
    cases w.stateOf c <;> simp
  · have apart : d ≠ c := fun eq => here eq.symm
    simp [here, apart]

theorem tryConnect_running (t : Transporter) : Running accepts noSsl t.tryConnect := by
  intro on waiting
  rw [tryConnect_interval] at on
  by_cases arms : 0 < t.m_connectInterval ∧ t.m_uri ≠ []
  · rw [tryConnect, if_pos arms]
    exact Option.some_ne_none _
  · rw [tryConnect, if_neg arms] at waiting
    exact absurd ⟨on, creatable_ne_nil waiting.2.1⟩ arms

theorem running_of_off (off : t.m_doTryConnect = false) : Running accepts noSsl t := by
  intro _ waiting
  have on := waiting.1
  rw [off] at on
  contradiction

theorem running_of_under_way {c : Nat} (way : UnderWay t.websocket c) : Running accepts noSsl t :=
  fun _ waiting => absurd way (waiting.2.2 c)

theorem retry_running (t : Transporter) :
    Running accepts noSsl (if t.m_doTryConnect then t.tryConnect else t) := by
  by_cases wanted : t.m_doTryConnect = true
  · rw [if_pos wanted]
    exact tryConnect_running t
  · rw [if_neg wanted]
    exact running_of_off (Bool.eq_false_iff.mpr wanted)

theorem connect_running (uri subprotocol : Text) (attempt : Attempt)
    (answers : Answers accepts t (.connect uri subprotocol attempt)) :
    Running accepts noSsl (t.connect noSsl uri subprotocol attempt).1 := by
  intro on waiting
  obtain ⟨_, creatable, idle⟩ := waiting
  unfold Transporter.connect at creatable idle
  simp only at creatable idle
  split at creatable
  · rename_i web
    have started : attempt = .started := answers creatable.2.2
    subst started
    rw [if_pos web] at idle
    exact absurd (connect_under_way creatable t.websocket subprotocol) (idle _)
  · exact absurd creatable.1 ‹_›

theorem timer_running (attempt : Attempt) (answers : Answers accepts t (.timer attempt))
    (stepped : step noSsl t (.timer attempt) = some next) : Running accepts noSsl next.1 := by
  obtain ⟨_, _, eq⟩ := Option.map_eq_some_iff.mp stepped
  subst eq
  intro on waiting
  obtain ⟨_, creatable, idle⟩ := waiting
  unfold tryConnectTimerTimeout at creatable idle
  split at creatable
  · rename_i empty
    exact absurd empty (creatable_ne_nil creatable)
  · rename_i some_uri
    have started : attempt = .started := answers creatable.2.2
    subst started
    rw [if_neg some_uri] at idle
    exact absurd (connect_under_way creatable t.websocket []) (idle _)

theorem setInterval_running_iff (i : Int) :
    Running accepts noSsl (t.setInterval i) ↔ Careful accepts noSsl t (.setInterval i) := by
  by_cases off : i ≤ 0
  · rw [setInterval_off t off]
    constructor
    · intro _ positive
      omega
    · intro _ positive
      have on : 0 < i := positive
      omega
  · rw [setInterval_on t (by omega)]
    by_cases was : 0 < t.m_connectInterval
    · simp only [was, ↓reduceIte, Careful]
      constructor
      · intro _ _ zero
        omega
      · intro _
        exact tryConnect_running _
    · simp only [was, ↓reduceIte, Careful]
      constructor
      · intro running positive _ waiting
        exact running positive waiting
      · intro careful positive waiting
        exact careful positive (by omega) waiting

theorem failed_running_iff (kept : ClientRuns.Kept t.websocket) (c : Nat) (code : BitVec 16)
    (stepped : step noSsl t (.failed c code) = some next) :
    Running accepts noSsl next.1 ↔ Careful accepts noSsl t (.failed c code) := by
  obtain ⟨⟨w, call⟩, done, eq⟩ := Option.map_eq_some_iff.mp stepped
  obtain ⟨_, settled, report⟩ := ClientRuns.onFail_reports kept.slots kept.heard done
  subst eq settled report
  by_cases current : t.websocket.IsCurrent c
  · simp only [current, ↓reduceIte, callback, Careful, true_or, iff_true]
    exact retry_running _
  · simp only [current, ↓reduceIte, callback, Careful, false_or, Running, Waiting,
      settle_under_way_iff, not_and, and_imp]

theorem step_running_iff (kept : ClientRuns.Kept t.websocket) (e : Event)
    (answers : Answers accepts t e) (stepped : step noSsl t e = some next) :
    Running accepts noSsl next.1 ↔ Careful accepts noSsl t e := by
  cases e with
  | connect uri subprotocol attempt =>
    cases stepped
    simp only [Careful, iff_true]
    exact connect_running uri subprotocol attempt answers
  | setInterval i =>
    cases stepped
    exact setInterval_running_iff i
  | unbind =>
    cases stepped
    simp only [Careful, iff_true]
    exact running_of_off rfl
  | timer attempt =>
    simp only [Careful, iff_true]
    exact timer_running attempt answers stepped
  | opened c =>
    obtain ⟨connecting, settled, _⟩ := step_opened_cases stepped
    simp only [Careful, iff_true]
    apply running_of_under_way
    right; left
    rw [settled, settle_stateOf, if_pos rfl, connecting]
    rfl
  | failed c code => exact failed_running_iff kept c code stepped
  | closed c code =>
    rw [step_closed_cases kept.slots stepped]
    simp only [Careful, iff_true]
    exact retry_running _

end

theorem tunnel_step {accepts : Text → Bool} {noSsl : Bool} {t : Transporter} {e : Event}
    {next : Transporter × List Effect} (stepped : tunnel accepts noSsl t e = some next) :
    Answers accepts t e ∧ step noSsl t e = some next := by
  unfold tunnel at stepped
  split at stepped
  · exact ⟨‹_›, stepped⟩
  · contradiction

/-- In every run the loop keeps going exactly when no step of two kinds stops it: an interval
    made positive again while nothing is under way, and the failure of a connection that was
    let go, as the last one under way. -/
theorem running_run_iff (accepts : Text → Bool) (noSsl : Bool) (events : List Event) :
    Runs.Visits (tunnel accepts noSsl) (Running accepts noSsl) .create events ↔
      Runs.Steps (tunnel accepts noSsl) (Careful accepts noSsl) .create events := by
  have kept : ∀ (t : Transporter) e next, ClientRuns.Kept t.websocket →
      tunnel accepts noSsl t e = some next → ClientRuns.Kept next.1.websocket := by
    intro t e next kept stepped
    obtain ⟨es, _, ran⟩ := step_runs (tunnel_step stepped).2
    exact Runs.run_keeps (ClientRuns.step_kept noSsl) kept ran
  apply Runs.visits_iff_steps (fun t : Transporter => ClientRuns.Kept t.websocket) kept _
    ClientRuns.fresh_kept (running_of_off rfl) events
  intro t e next kept _ stepped
  obtain ⟨answers, stepped⟩ := tunnel_step stepped
  exact step_running_iff kept e answers stepped

/-- The interval goes to 0 and back while the tunnel is down, and the loop stands still. -/
theorem interval_back_stands_still :
    ∃ t, Runs.run (tunnel (fun _ => true) false) .create
        [.connect addressA [] .started, .opened 0, .setInterval 0,
          .closed 0 1000, .setInterval 5] = some t ∧
      t.m_connectInterval = 5 ∧ Waiting (fun _ => true) false t ∧ t.m_tryConnectTimer = none ∧
      ¬ Running (fun _ => true) false t := by
  have waiting : Waiting (fun _ => true) false
      ⟨⟨[⟨addressA, [], .closed, false, false, true, false⟩], none, none⟩,
        addressA, true, none, 5, true⟩ := by
    refine ⟨rfl, ⟨by decide, by decide, rfl⟩, ?_⟩
    intro c way
    rcases c with _ | c <;> rcases way with h | h | h <;> contradiction
  refine ⟨_, rfl, rfl, waiting, rfl, ?_⟩
  intro running
  exact absurd rfl (running (by decide) waiting)

end ReconnectLoop
