import RcpFlext.RabbitHole

/- Whether the tunnel stays off once it is switched off. unbind stops the try-connect timer;
   setInterval leaves it running, and its expiry does not ask for the interval. -/
namespace TunnelOff
open Atoms Websocket RabbitHole Transporter Client

def SwitchesOff : Event → Prop
  | .setInterval i => i ≤ 0
  | .unbind => True
  | _ => False

def SwitchesOn : Event → Prop
  | .connect _ _ _ => True
  | .setInterval i => 0 < i
  | _ => False

def created (t : Transporter) : Nat := t.websocket.connections.length

section
variable (noSsl : Bool)

/-- Whatever happens after a switch-off, short of a switch-on, creates no connection. -/
def StaysOff (t : Transporter) (e : Event) : Prop :=
  SwitchesOff e → ∀ next, step noSsl t e = some next → ∀ es u, (∀ e ∈ es, ¬ SwitchesOn e) →
    Runs.run (step noSsl) next.1 es = some u → created u = created next.1

def Careful (t : Transporter) : Event → Prop
  | .setInterval i => i ≤ 0 → t.m_tryConnectTimer = none ∨ ¬ Asks noSsl t.m_uri
  | _ => True

/-- Neither the timer nor a callback can start an attempt. -/
structure Off (t : Transporter) : Prop where
  timer : t.m_tryConnectTimer = none ∨ ¬ Asks noSsl t.m_uri
  callbacks : t.m_connectInterval ≤ 0 ∨ t.m_doTryConnect = false

end

section
variable {noSsl : Bool} {t : Transporter} {next : Transporter × List Effect} {e : Event}

theorem connect_asked {uri : Text} (asked : Asks noSsl uri) (w : Client) (subprotocol : Text) :
    (w.connect noSsl uri subprotocol .started).connections.length = w.connections.length + 1 := by
  have some_uri : uri ≠ [] := by
    intro empty
    rw [empty] at asked
    exact absurd asked.1 (by decide)
  obtain ⟨web, secure⟩ := asked
  by_cases ssl : wss <+: uri
  · simp [Client.connect, some_uri, web, ssl, secure ssl, disconnect_length]
  · simp [Client.connect, some_uri, web, ssl, disconnect_length]

theorem callback_off (off : t.m_connectInterval ≤ 0 ∨ t.m_doTryConnect = false)
    (call : Option Callback) :
    (t.callback call).1.m_tryConnectTimer = t.m_tryConnectTimer ∧
      (t.callback call).1.m_uri = t.m_uri ∧
      (t.callback call).1.m_connectInterval = t.m_connectInterval ∧
      (t.callback call).1.m_doTryConnect = t.m_doTryConnect := by
  have idle : ¬ 0 < t.m_connectInterval ∨ t.m_doTryConnect = false := by
    rcases off with zero | no
    · exact .inl (by omega)
    · exact .inr no
  match call with
  | none => exact ⟨rfl, rfl, rfl, rfl⟩
  | some .connected => exact ⟨rfl, rfl, rfl, rfl⟩
  | some (.failed code) =>
    simp only [callback, failed, tryConnect]
    rcases idle with zero | no
    · split <;> simp [zero]
    · split <;> simp [no]
  | some (.disconnected code) =>
    simp only [callback, disconnected, tryConnect]
    rcases idle with zero | no
    · simp [zero]
    · simp [no]

theorem callback_keeps_off (off : Off noSsl t) (w : Client)
    (same : w.connections.length = t.websocket.connections.length) (call : Option Callback) :
    Off noSsl ({ t with websocket := w }.callback call).1 ∧
      created ({ t with websocket := w }.callback call).1 = created t := by
  obtain ⟨timer, uri, interval, trying⟩ :=
    @callback_off { t with websocket := w } off.callbacks call
  refine ⟨⟨?_, ?_⟩, ?_⟩
  · rw [timer, uri]
    exact off.timer
  · rw [interval, trying]
    exact off.callbacks
  · rw [created, callback_websocket]
    exact same

theorem step_off (off : Off noSsl t) (stays : ¬ SwitchesOn e)
    (stepped : step noSsl t e = some next) :
    Off noSsl next.1 ∧ created next.1 = created t := by
  cases e with
  | connect uri subprotocol attempt => exact absurd trivial stays
  | setInterval i =>
    have zero : i ≤ 0 := Int.not_lt.mp stays
    cases stepped
    rw [setInterval_off t zero]
    exact ⟨⟨off.timer, .inl zero⟩, disconnect_length t.websocket⟩
  | unbind =>
    cases stepped
    exact ⟨⟨.inl rfl, .inr rfl⟩, disconnect_length t.websocket⟩
  | timer attempt =>
    obtain ⟨delay, armed, eq⟩ := Option.map_eq_some_iff.mp stepped
    subst eq
    have unasked : ¬ Asks noSsl t.m_uri := by
      rcases off.timer with none | unasked
      · rw [none] at armed
        contradiction
      · exact unasked
    unfold tryConnectTimerTimeout
    split
    · exact ⟨⟨.inl rfl, off.callbacks⟩, rfl⟩
    · refine ⟨⟨.inl rfl, off.callbacks⟩, ?_⟩
      simp only [created, connect_unasked unasked]
      exact disconnect_length t.websocket
  | opened c =>
    obtain ⟨⟨w, call⟩, done, eq⟩ := Option.map_eq_some_iff.mp stepped
    subst eq
    obtain ⟨_, settled, _⟩ := Client.onOpen_cases done
    exact callback_keeps_off off w (settled ▸ settle_length t.websocket c .opened) call
  | failed c code | closed c code =>
    obtain ⟨⟨w, call⟩, done, eq⟩ := Option.map_eq_some_iff.mp stepped
    subst eq
    obtain ⟨k, _, rest⟩ := Option.bind_eq_some_iff.mp done
    split at rest
    · cases rest
      exact callback_keeps_off off _ (settle_length t.websocket c .closed) _
    · contradiction

theorem run_off {es : List Event} {u : Transporter} (off : Off noSsl t)
    (stays : ∀ e ∈ es, ¬ SwitchesOn e) (ran : Runs.run (step noSsl) t es = some u) :
    created u = created t := by
  induction es generalizing t with
  | nil =>
    cases ran
    rfl
  | cons e es ih =>
    obtain ⟨next, stepped, rest⟩ := Option.bind_eq_some_iff.mp ran
    obtain ⟨off_next, same⟩ := step_off off (stays e (.head _)) stepped
    rw [ih off_next (fun e later => stays e (.tail _ later)) rest, same]

theorem careful_off (careful : Careful noSsl t e) (switches : SwitchesOff e)
    (stepped : step noSsl t e = some next) : Off noSsl next.1 := by
  cases e with
  | setInterval i =>
    have zero : i ≤ 0 := switches
    cases stepped
    rw [setInterval_off t zero]
    exact ⟨careful zero, .inl zero⟩
  | unbind =>
    cases stepped
    exact ⟨.inl rfl, .inr rfl⟩
  | connect | timer | opened | failed | closed => exact absurd switches id

theorem armed_creates {i : Int} (off : i ≤ 0) {delay : Int}
    (armed : t.m_tryConnectTimer = some delay) (asked : Asks noSsl t.m_uri) :
    ∃ u, Runs.run (step noSsl) (t.setInterval i) [.timer .started] = some u ∧
      created u = created (t.setInterval i) + 1 := by
  have some_uri : t.m_uri ≠ [] := by
    intro empty
    rw [empty] at asked
    exact absurd asked.1 (by decide)
  rw [setInterval_off t off]
  refine ⟨_, by simp only [Runs.run, step, armed]; rfl, ?_⟩
  rw [tryConnectTimerTimeout, if_neg some_uri]
  exact connect_asked asked t.websocket.disconnect []

theorem staysOff_iff : StaysOff noSsl t e ↔ Careful noSsl t e := by
  constructor
  · intro stays
    cases e with
    | setInterval i =>
      intro zero
      by_contra starts
      rw [not_or, not_not] at starts
      obtain ⟨delay, armed⟩ := Option.ne_none_iff_exists'.mp starts.1
      obtain ⟨u, ran, more⟩ := armed_creates zero armed starts.2
      have same : created u = created (t.setInterval i) :=
        stays zero _ rfl [.timer .started] u (by simp [SwitchesOn]) ran
      omega
    | connect | unbind | timer | opened | failed | closed => trivial
  · intro careful switches next stepped es u stays ran
    exact run_off (careful_off careful switches stepped) stays ran

end

/-- In every run each switch-off holds exactly when none by setInterval comes while the timer
    is armed for a uri that would be asked for. -/
theorem stays_off_run_iff (noSsl : Bool) (events : List Event) :
    Runs.Steps (step noSsl) (StaysOff noSsl) .create events ↔
      Runs.Steps (step noSsl) (Careful noSsl) .create events :=
  Runs.steps_congr (fun _ => True) (fun _ _ _ _ _ => trivial)
    (fun _ _ _ _ _ => staysOff_iff) trivial events

/-- The first attempt fails, the interval goes to 0, and the timer armed before connects. -/
theorem armed_timer_connects :
    (∃ t u, Runs.run (step false) .create
        [.connect addressA [] .started, .failed 0 500, .setInterval 0] = some t ∧
      created t = 1 ∧ Runs.run (step false) t [.timer .started] = some u ∧ created u = 2) ∧
    ¬ Runs.Steps (step false) (StaysOff false) .create
        [.connect addressA [] .started, .failed 0 500, .setInterval 0] := by
  refine ⟨⟨_, _, rfl, rfl, rfl, rfl⟩, ?_⟩
  intro steps
  have stays := ((steps _ rfl).2 _ rfl).2 _ rfl
  have same := stays.1 (Int.le_refl 0) _ rfl [.timer .started] _ (by simp [SwitchesOn]) rfl
  exact absurd same (by decide)

end TunnelOff
