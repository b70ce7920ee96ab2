import RcpFlext.ClientRuns

/- The objects around a websocketClient, rcp.client and ws.client, and the status they send
   to outlet 2. The handlers do not say which connection they speak for, and a superseded
   connection still reports its close. -/
namespace ClientStatus
open Atoms Websocket Client ClientRuns

inductive Object where
  | rcpClient (m_transporter : Bool)
  | wsClient
  deriving DecidableEq

inductive Effect where
  | callConnectedCb
  | callDisconnectedCb
  | toOutInt (outlet : Nat) (v : CInt)
  deriving DecidableEq

def Object.connected : Object → List Effect
  | .rcpClient true => [.callConnectedCb, .toOutInt 2 1]
  | .rcpClient false => [.toOutInt 2 1]
  | .wsClient => [.toOutInt 2 1]

/-- Failed and disconnected do the same, whatever the code. -/
def Object.disconnected : Object → List Effect
  | .rcpClient true => [.callDisconnectedCb, .toOutInt 2 0]
  | .rcpClient false => [.toOutInt 2 0]
  | .wsClient => [.toOutInt 2 0]

def Object.callback (object : Object) : Option Callback → List Effect
  | none => []
  | some .connected => object.connected
  | some (.failed _) => object.disconnected
  | some (.disconnected _) => object.disconnected

def lastStatus (status : Option CInt) : List Effect → Option CInt
  | [] => status
  | .toOutInt 2 v :: effects => lastStatus (some v) effects
  | _ :: effects => lastStatus status effects

structure Instance where
  websocket : Client
  status : Option CInt
  deriving DecidableEq

inductive Event where
  | mOpen (uri : Text) (attempt : Attempt)
  | mClose
  | opened (c : Nat)
  | failed (c : Nat) (code : BitVec 16)
  | closed (c : Nat) (code : BitVec 16)
  deriving DecidableEq

def Event.toClient : Event → ClientRuns.Event
  | .mOpen uri attempt => .connect uri [] attempt
  | .mClose => .disconnect
  | .opened c => .opened c
  | .failed c code => .failed c code
  | .closed c code => .closed c code

def step (noSsl : Bool) (object : Object) : Runs.Machine Instance Event (List Effect) :=
  fun t e => (ClientRuns.step noSsl t.websocket e.toClient).map fun (websocket, call) =>
    let effects := object.callback call
    (⟨websocket, lastStatus t.status effects⟩, effects)

def create : Instance := ⟨Client.fresh, none⟩

/-- While the current connection is open, the last status is 1. -/
def Shown (t : Instance) : Prop := ∀ c, t.websocket.Open c → t.status = some 1

/-- No other connection closes while the current one is open. -/
def Careful (t : Instance) : Event → Prop
  | .closed c _ => ∀ d, d ≠ c → ¬ t.websocket.Open d
  | _ => True

def Superseded (t : Instance) : Event → Prop
  | .opened c | .failed c _ | .closed c _ => ¬ t.websocket.IsCurrent c
  | _ => False

def Silent (noSsl : Bool) (object : Object) (t : Instance) (e : Event) : Prop :=
  Superseded t e → ∀ next, step noSsl object t e = some next → next.2 = []

def OwnClose (t : Instance) : Event → Prop
  | .closed c _ => t.websocket.IsCurrent c
  | _ => True

theorem connected_status (object : Object) (status : Option CInt) :
    lastStatus status object.connected = some 1 := by
  cases object with
  | rcpClient m_transporter => cases m_transporter <;> rfl
  | wsClient => rfl

theorem disconnected_status (object : Object) (status : Option CInt) :
    lastStatus status object.disconnected = some 0 := by
  cases object with
  | rcpClient m_transporter => cases m_transporter <;> rfl
  | wsClient => rfl

theorem disconnected_speaks (object : Object) : object.disconnected ≠ [] := by
  cases object with
  | rcpClient m_transporter => cases m_transporter <;> exact List.cons_ne_nil _ _
  | wsClient => exact List.cons_ne_nil _ _

section
variable {noSsl : Bool} {object : Object} {t : Instance} {next : Instance × List Effect} {c : Nat}
  {code : BitVec 16}

theorem step_cases {e : Event} (stepped : step noSsl object t e = some next) :
    ∃ w call, ClientRuns.step noSsl t.websocket e.toClient = some (w, call) ∧
      next = (⟨w, lastStatus t.status (object.callback call)⟩, object.callback call) := by
  obtain ⟨⟨w, call⟩, done, eq⟩ := Option.map_eq_some_iff.mp stepped
  exact ⟨w, call, done, eq.symm⟩

theorem step_kept (e : Event) (kept : Kept t.websocket)
    (stepped : step noSsl object t e = some next) : Kept next.1.websocket := by
  obtain ⟨w, call, done, eq⟩ := step_cases stepped
  subst eq
  exact ClientRuns.step_kept noSsl t.websocket e.toClient (w, call) kept done

theorem opened_shown (kept : Kept t.websocket) (shown : Shown t)
    (stepped : step noSsl object t (.opened c) = some next) : Shown next.1 := by
  obtain ⟨w, call, done, eq⟩ := step_cases stepped
  obtain ⟨connecting, settled, report⟩ := onOpen_reports kept.slots kept.heard done
  subst eq settled report
  intro d opened
  by_cases current : t.websocket.IsCurrent c
  · simp only [current, ↓reduceIte, Object.callback]
    exact connected_status object t.status
  · simp only [current, ↓reduceIte, Object.callback]
    rcases (open_settle_opened connecting).mp opened with ⟨_, now⟩ | before
    · exact absurd now current
    · exact shown d before

theorem failed_shown (kept : Kept t.websocket) (shown : Shown t)
    (stepped : step noSsl object t (.failed c code) = some next) : Shown next.1 := by
  obtain ⟨w, call, done, eq⟩ := step_cases stepped
  obtain ⟨_, settled, report⟩ := onFail_reports kept.slots kept.heard done
  subst eq settled report
  intro d opened
  obtain ⟨apart, before⟩ := open_settle_closed.mp opened
  by_cases current : t.websocket.IsCurrent c
  · exact absurd (current_unique kept.slots before.1 current) apart
  · simp only [current, ↓reduceIte, Object.callback]
    exact shown d before

theorem closed_shown_iff (kept : Kept t.websocket)
    (stepped : step noSsl object t (.closed c code) = some next) :
    Shown next.1 ↔ Careful t (.closed c code) := by
  obtain ⟨w, call, done, eq⟩ := step_cases stepped
  obtain ⟨_, settled, report⟩ := onClose_cases kept.slots done
  subst eq settled report
  have status : lastStatus t.status object.disconnected = some 0 := disconnected_status object t.status
  constructor
  · intro shown d apart opened
    have one := shown d (open_settle_closed.mpr ⟨apart, opened⟩)
    have zero : some (0 : CInt) = some 1 := status.symm.trans one
    exact absurd zero (by decide)
  · intro careful d opened
    obtain ⟨apart, before⟩ := open_settle_closed.mp opened
    exact absurd before (careful d apart)

theorem step_shown_iff (e : Event) (kept : Kept t.websocket) (shown : Shown t)
    (stepped : step noSsl object t e = some next) : Shown next.1 ↔ Careful t e := by
  cases e with
  | mOpen uri attempt =>
    cases stepped
    simp only [Careful, iff_true]
    intro c opened
    exact absurd opened (connect_not_open noSsl t.websocket uri [] attempt c)
  | mClose =>
    cases stepped
    simp only [Careful, iff_true]
    intro c opened
    exact absurd opened (disconnect_not_open t.websocket c)
  | opened c =>
    simp only [Careful, iff_true]
    exact opened_shown kept shown stepped
  | failed c code =>
    simp only [Careful, iff_true]
    exact failed_shown kept shown stepped
  | closed c code => exact closed_shown_iff kept stepped

theorem step_silent_iff (e : Event) (kept : Kept t.websocket)
    (stepped : step noSsl object t e = some next) : Silent noSsl object t e ↔ OwnClose t e := by
  obtain ⟨w, call, done, eq⟩ := step_cases stepped
  have only : ∀ other, step noSsl object t e = some other → other = next :=
    fun other again => Option.some.inj (again.symm.trans stepped)
  cases e with
  | mOpen uri attempt => simp [Silent, Superseded, OwnClose]
  | mClose => simp [Silent, Superseded, OwnClose]
  | opened c =>
    obtain ⟨_, _, report⟩ := onOpen_reports kept.slots kept.heard done
    simp only [OwnClose, iff_true]
    intro other again took
    rw [only again took, eq, report, if_neg other]
    rfl
  | failed c code =>
    obtain ⟨_, _, report⟩ := onFail_reports kept.slots kept.heard done
    simp only [OwnClose, iff_true]
    intro other again took
    rw [only again took, eq, report, if_neg other]
    rfl
  | closed c code =>
    obtain ⟨_, _, report⟩ := onClose_cases kept.slots done
    simp only [OwnClose]
    constructor
    · intro silent
      by_contra other
      have nothing := silent other next stepped
      rw [eq, report] at nothing
      exact disconnected_speaks object nothing
    · intro current other
      exact absurd current other

end

/-- In every run the status is right exactly when no other connection closes while the
    current one is open, and connections that were let go are silent exactly when none of
    them closes. -/
theorem status_run_iff (noSsl : Bool) (object : Object) (events : List Event) :
    (Runs.Visits (step noSsl object) Shown create events ↔
      Runs.Steps (step noSsl object) Careful create events) ∧
    (Runs.Steps (step noSsl object) (Silent noSsl object) create events ↔
      Runs.Steps (step noSsl object) OwnClose create events) := by
  have kept : ∀ (t : Instance) e next, Kept t.websocket → step noSsl object t e = some next →
      Kept next.1.websocket := fun t e next kept stepped => step_kept e kept stepped
  have start : Shown create := fun c opened => absurd opened (by simp [create, fresh, Open, IsCurrent])
  constructor
  · exact Runs.visits_iff_steps (fun t : Instance => Kept t.websocket) kept
      (fun t e next kept shown stepped => step_shown_iff e kept shown stepped) fresh_kept start events
  · exact Runs.steps_congr (fun t : Instance => Kept t.websocket) kept
      (fun t e next kept stepped => step_silent_iff e kept stepped) fresh_kept events

/-- A second open while the first connection is open; its close comes when the second one
    has opened. -/
theorem late_close_reported :
    ∃ t, Runs.run (step false (.rcpClient true)) create
        [.mOpen addressA .started, .opened 0,
          .mOpen addressB .started, .opened 1, .closed 0 1000] = some t ∧
      t.websocket.Open 1 ∧ t.status = some 0 ∧ ¬ Shown t := by
  refine ⟨_, rfl, by decide, by decide, ?_⟩
  intro shown
  exact absurd (shown 1 (by decide)) (by decide)

end ClientStatus
