import RcpFlext.ClientRuns

/- RabbitHoleServerTransporter: the tunnel, the try-connect timer and the flags between
   them, one event at a time. -/
namespace RabbitHole
open Atoms Websocket

structure Transporter where
  websocket : Client
  m_uri : Text
  m_oneTimeError : Bool
  m_tryConnectTimer : Option Int
  m_connectInterval : Int
  m_doTryConnect : Bool
  deriving DecidableEq

/-- Calls of `websocketClient::connect`, and what reaches the console. -/
inductive Effect where
  | websocketConnect (uri : Text)
  | error (message : String)
  | post (message : String)
  | print (message : String)
  deriving DecidableEq

namespace Transporter

def create : Transporter := ⟨.fresh, [], true, none, 2, false⟩

def tryConnect (t : Transporter) : Transporter :=
  if 0 < t.m_connectInterval ∧ t.m_uri ≠ [] then
    { t with m_tryConnectTimer := some t.m_connectInterval }
  else t

def unbind (t : Transporter) : Transporter :=
  { t with m_doTryConnect := false, m_tryConnectTimer := none, websocket := t.websocket.disconnect }

def connected (t : Transporter) : Transporter := { t with m_oneTimeError := true }

def failMessage (code : BitVec 16) : Effect :=
  if code = 400 then .error "Rabbithole: no tunnel name provided"
  else if code = 412 then .error "Rabbithole: tunnel name too short"
  else if code = 423 then .error "Rabbithole: tunnel already in use - please use a different public tunnel or consider using a private tunnel."
  else .print ("unhandled fail code: " ++ toString code.toNat)

def failed (t : Transporter) (code : BitVec 16) : Transporter × List Effect :=
  let report := code ≠ 200 ∧ t.m_oneTimeError = true
  let next := if report then { t with m_oneTimeError := false } else t
  (if next.m_doTryConnect then next.tryConnect else next, if report then [failMessage code] else [])

def publicPath : Text :=
  text ['/', 'p', 'u', 'b', 'l', 'i', 'c', '/', 'r', 'c', 'p', 's', 'e', 'r', 'v', 'e', 'r', '/',
    'c', 'o', 'n', 'n', 'e', 'c', 't']

def disconnected (t : Transporter) (code : BitVec 16) : Transporter × List Effect :=
  (if t.m_doTryConnect then t.tryConnect else t,
    if code = 4500 ∧ publicPath <:+: t.m_uri then
      [.post "Rabbithole: public tunnel closed - please reconnect your client or use a private tunnel"]
    else [])

def http : Text := text ['h', 't', 't', 'p']
def https : Text := text ['h', 't', 't', 'p', 's']

def rewritten (uri : Text) : Text :=
  if https <+: uri then Client.wss ++ uri.drop 5
  else if http <+: uri then Client.ws ++ uri.drop 4
  else uri

def connect (noSsl : Bool) (t : Transporter) (uri subprotocol : Text) (attempt : Attempt) :
    Transporter × List Effect :=
  let t := { t with m_uri := rewritten uri }
  if Client.ws <+: t.m_uri then
    ({ t with
        m_doTryConnect := true
        m_oneTimeError := true
        websocket := t.websocket.connect noSsl t.m_uri subprotocol attempt },
      [.websocketConnect t.m_uri])
  else (t, [])

/-- The old interval decides whether the timer is armed, the new one for how long. -/
def setInterval (t : Transporter) (i : Int) : Transporter :=
  let start_after := 0 < t.m_connectInterval
  let t := { t with m_connectInterval := i }
  let t := if start_after then t.tryConnect else t
  if t.m_connectInterval ≤ 0 then { t with websocket := t.websocket.disconnect } else t

def tryConnectTimerTimeout (noSsl : Bool) (t : Transporter) (attempt : Attempt) :
    Transporter × List Effect :=
  if t.m_uri = [] then (t, [])
  else ({ t with websocket := t.websocket.connect noSsl t.m_uri [] attempt },
    [.websocketConnect t.m_uri])

def callback (t : Transporter) : Option Callback → Transporter × List Effect
  | none => (t, [])
  | some .connected => (t.connected, [])
  | some (.failed code) => t.failed code
  | some (.disconnected code) => t.disconnected code

end Transporter

inductive Event where
  | connect (uri subprotocol : Text) (attempt : Attempt)
  | setInterval (i : Int)
  | unbind
  | timer (attempt : Attempt)
  | opened (c : Nat)
  | failed (c : Nat) (code : BitVec 16)
  | closed (c : Nat) (code : BitVec 16)
  deriving DecidableEq

/-- The timer expires only while it is armed, a connection opens or fails only while it is
    connecting and closes only from an open or closing session. -/
def step (noSsl : Bool) : Runs.Machine Transporter Event (List Effect) := fun t e =>
  match e with
  | .connect uri subprotocol attempt => some (t.connect noSsl uri subprotocol attempt)
  | .setInterval i => some (t.setInterval i, [])
  | .unbind => some (t.unbind, [])
  | .timer attempt => t.m_tryConnectTimer.map fun _ =>
      { t with m_tryConnectTimer := none }.tryConnectTimerTimeout noSsl attempt
  | .opened c => (t.websocket.onOpen c).map fun (websocket, call) =>
      { t with websocket := websocket }.callback call
  | .failed c code => (t.websocket.onFail c code).map fun (websocket, call) =>
      { t with websocket := websocket }.callback call
  | .closed c code => (t.websocket.onClose c code).map fun (websocket, call) =>
      { t with websocket := websocket }.callback call

namespace Transporter

theorem tryConnect_websocket (t : Transporter) : t.tryConnect.websocket = t.websocket := by
  unfold tryConnect
  split <;> rfl

theorem tryConnect_interval (t : Transporter) :
    t.tryConnect.m_connectInterval = t.m_connectInterval := by
  unfold tryConnect
  split <;> rfl

theorem callback_websocket (t : Transporter) (call : Option Callback) :
    (t.callback call).1.websocket = t.websocket := by
  match call with
  | none => rfl
  | some .connected => rfl
  | some (.failed code) =>
    simp only [callback, failed]
    split <;> split <;> simp [tryConnect_websocket]
  | some (.disconnected code) =>
    simp only [callback, disconnected]
    split
    · exact tryConnect_websocket t
    · rfl

theorem setInterval_on (t : Transporter) {i : Int} (on : 0 < i) :
    t.setInterval i = if 0 < t.m_connectInterval then
      { t with m_connectInterval := i }.tryConnect else { t with m_connectInterval := i } := by
  have positive : ¬ i ≤ 0 := by omega
  by_cases was : 0 < t.m_connectInterval
  · simp only [setInterval, was, ↓reduceIte, tryConnect_interval, positive]
  · simp only [setInterval, was, ↓reduceIte, positive]

theorem setInterval_off (t : Transporter) {i : Int} (off : i ≤ 0) :
    t.setInterval i =
      { t with m_connectInterval := i, websocket := t.websocket.disconnect } := by
  have idle : { t with m_connectInterval := i }.tryConnect = { t with m_connectInterval := i } := by
    have : ¬ 0 < i := by omega
    rw [tryConnect, if_neg (fun arms => this arms.1)]
  by_cases was : 0 < t.m_connectInterval
  · simp only [setInterval, was, ↓reduceIte, idle, off]
  · simp only [setInterval, was, ↓reduceIte, off]

end Transporter

section
variable {noSsl : Bool} {t : Transporter} {next : Transporter × List Effect} {c : Nat}
  {code : BitVec 16}

theorem step_opened_cases (stepped : step noSsl t (.opened c) = some next) :
    t.websocket.stateOf c = some .connecting ∧
      next.1.websocket = t.websocket.settle c .opened ∧
      next.1.m_tryConnectTimer = t.m_tryConnectTimer ∧ next.1.m_uri = t.m_uri := by
  obtain ⟨⟨w, call⟩, done, eq⟩ := Option.map_eq_some_iff.mp stepped
  obtain ⟨connecting, settled, called⟩ := Client.onOpen_cases done
  subst eq settled
  rcases called with h | h <;> subst h <;> exact ⟨connecting, rfl, rfl, rfl⟩

theorem step_failed_cases (slots : t.websocket.Slots)
    (stepped : step noSsl t (.failed c code) = some next) :
    next.1.websocket = t.websocket.settle c .closed ∧
      (t.websocket.IsCurrent c ∨
        next = ({ t with websocket := t.websocket.settle c .closed }, [])) := by
  obtain ⟨⟨w, call⟩, done, eq⟩ := Option.map_eq_some_iff.mp stepped
  obtain ⟨_, settled, called⟩ := Client.onFail_cases slots done
  subst eq settled
  refine ⟨Transporter.callback_websocket _ call, ?_⟩
  rcases called with h | ⟨current, _⟩
  · subst h
    exact .inr rfl
  · exact .inl current

theorem step_closed_cases (slots : t.websocket.Slots)
    (stepped : step noSsl t (.closed c code) = some next) :
    next = { t with websocket := t.websocket.settle c .closed }.disconnected
      (t.websocket.codeOf c code) := by
  obtain ⟨⟨w, call⟩, done, eq⟩ := Option.map_eq_some_iff.mp stepped
  obtain ⟨_, settled, called⟩ := Client.onClose_cases slots done
  subst eq settled called
  rfl

theorem step_closed_websocket (slots : t.websocket.Slots)
    (stepped : step noSsl t (.closed c code) = some next) :
    next.1.websocket = t.websocket.settle c .closed := by
  rw [step_closed_cases slots stepped]
  exact Transporter.callback_websocket _ (some (.disconnected (t.websocket.codeOf c code)))

end

/-- What a step of the tunnel does to its client is at most one step of the client; a retry
    by the timer is a connect. -/
theorem step_runs {noSsl : Bool} {t : Transporter} {e : Event}
    {next : Transporter × List Effect}
    (stepped : step noSsl t e = some next) :
    ∃ es : List ClientRuns.Event, es.length ≤ 1 ∧
      Runs.run (ClientRuns.step noSsl) t.websocket es = some next.1.websocket := by
  cases e with
  | connect uri subprotocol attempt =>
    cases stepped
    unfold Transporter.connect
    simp only
    split
    · exact ⟨[.connect (Transporter.rewritten uri) subprotocol attempt], Nat.le_refl 1, rfl⟩
    · exact ⟨[], Nat.zero_le 1, rfl⟩
  | setInterval i =>
    cases stepped
    by_cases off : i ≤ 0
    · rw [Transporter.setInterval_off t off]
      exact ⟨[.disconnect], Nat.le_refl 1, rfl⟩
    · rw [Transporter.setInterval_on t (by omega)]
      refine ⟨[], Nat.zero_le 1, ?_⟩
      split
      · rw [Transporter.tryConnect_websocket]
        rfl
      · rfl
  | unbind =>
    cases stepped
    exact ⟨[.disconnect], Nat.le_refl 1, rfl⟩
  | timer attempt =>
    obtain ⟨_, _, eq⟩ := Option.map_eq_some_iff.mp stepped
    subst eq
    unfold Transporter.tryConnectTimerTimeout
    split
    · exact ⟨[], Nat.zero_le 1, rfl⟩
    · exact ⟨[.connect t.m_uri [] attempt], Nat.le_refl 1, rfl⟩
  | opened c =>
    obtain ⟨⟨w, call⟩, done, eq⟩ := Option.map_eq_some_iff.mp stepped
    subst eq
    refine ⟨[.opened c], Nat.le_refl 1, ?_⟩
    rw [Transporter.callback_websocket]
    exact Option.bind_eq_some_iff.mpr ⟨_, done, rfl⟩
  | failed c code =>
    obtain ⟨⟨w, call⟩, done, eq⟩ := Option.map_eq_some_iff.mp stepped
    subst eq
    refine ⟨[.failed c code], Nat.le_refl 1, ?_⟩
    rw [Transporter.callback_websocket]
    exact Option.bind_eq_some_iff.mpr ⟨_, done, rfl⟩
  | closed c code =>
    obtain ⟨⟨w, call⟩, done, eq⟩ := Option.map_eq_some_iff.mp stepped
    subst eq
    refine ⟨[.closed c code], Nat.le_refl 1, ?_⟩
    rw [Transporter.callback_websocket]
    exact Option.bind_eq_some_iff.mpr ⟨_, done, rfl⟩

theorem run_runs {noSsl : Bool} {t u : Transporter} {es : List Event}
    (ran : Runs.run (step noSsl) t es = some u) :
    ∃ fs, Runs.run (ClientRuns.step noSsl) t.websocket fs = some u.websocket := by
  induction es generalizing t with
  | nil =>
    cases ran
    exact ⟨[], rfl⟩
  | cons e es ih =>
    obtain ⟨next, stepped, rest⟩ := Option.bind_eq_some_iff.mp ran
    obtain ⟨first, _, reached⟩ := step_runs stepped
    obtain ⟨later, ended⟩ := ih rest
    refine ⟨first ++ later, ?_⟩
    rw [Runs.run_append, reached]
    exact ended

end RabbitHole
