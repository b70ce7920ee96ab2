import RcpFlext.RabbitHole

/- What the tunnel puts on the console while it keeps trying. `failed` reports once and then
   holds its tongue until a connection opens or a new address is set. -/
namespace FailureReports
open Atoms Websocket Client RabbitHole Transporter

def IsReport : Effect → Prop
  | .error _ => True
  | .print _ => True
  | _ => False

instance : (effect : Effect) → Decidable (IsReport effect)
  | .error _ | .print _ => isTrue trivial
  | .websocketConnect _ | .post _ => isFalse id

def reports (effects : List Effect) : List Effect := effects.filter fun effect => IsReport effect

/-- The current connection fails, with a code that means something. -/
def failures (t : Transporter) : Event → List (BitVec 16)
  | .failed c code => if t.websocket.IsCurrent c ∧ code ≠ 200 then [code] else []
  | _ => []

/-- The current connection opens, or an address is set that can be one of a websocket. -/
def Resets (t : Transporter) : Event → Prop
  | .connect uri _ _ => ws <+: rewritten uri
  | .opened c => t.websocket.IsCurrent c
  | _ => False

instance (t : Transporter) : (e : Event) → Decidable (Resets t e)
  | .connect _ _ _ => inferInstanceAs (Decidable (_ <+: _))
  | .opened _ => inferInstanceAs (Decidable (t.websocket.IsCurrent _))
  | .setInterval _ | .unbind | .timer _ | .failed _ _ | .closed _ _ => isFalse id

def resets (t : Transporter) (e : Event) : List Event := if Resets t e then [e] else []

def allowed (t : Transporter) : Nat := if t.m_oneTimeError then 1 else 0

section Run
variable (noSsl : Bool) (t : Transporter) (es : List Event)

def reportsIn : List Effect :=
  Runs.told (RabbitHole.step noSsl) (fun _ _ next => reports next.2) t es

def failuresIn : List (BitVec 16) :=
  Runs.told (RabbitHole.step noSsl) (fun t e _ => failures t e) t es

def resetsIn : List Event := Runs.told (RabbitHole.step noSsl) (fun t e _ => resets t e) t es

def Outage : Prop := Runs.Steps (RabbitHole.step noSsl) (fun t e => ¬ Resets t e) t es

end Run

def Sound (t : Transporter) : Prop := ClientRuns.Kept t.websocket

section
variable {noSsl : Bool} {t : Transporter} {next : Transporter × List Effect}

theorem step_sound (t : Transporter) (e : Event) (next : Transporter × List Effect)
    (sound : Sound t) (stepped : RabbitHole.step noSsl t e = some next) : Sound next.1 := by
  obtain ⟨es, _, ran⟩ := step_runs stepped
  exact Runs.run_keeps (fun w e next => ClientRuns.step_kept noSsl w e next) sound ran

theorem failMessage_report (code : BitVec 16) : IsReport (failMessage code) := by
  unfold failMessage
  split
  · trivial
  split
  · trivial
  split <;> trivial

theorem tryConnect_flag (t : Transporter) : t.tryConnect.m_oneTimeError = t.m_oneTimeError := by
  unfold tryConnect
  split <;> rfl

theorem setInterval_flag (t : Transporter) (i : Int) :
    (t.setInterval i).m_oneTimeError = t.m_oneTimeError := by
  by_cases off : i ≤ 0
  · rw [setInterval_off t off]
  · rw [setInterval_on t (by omega)]
    split
    · exact tryConnect_flag _
    · rfl

theorem reports_failMessage (code : BitVec 16) :
    reports [failMessage code] = [failMessage code] := by
  have report : decide (IsReport (failMessage code)) = true :=
    decide_eq_true (failMessage_report code)
  rw [reports, List.filter_cons, if_pos report, List.filter_nil]

theorem failed_reports (t : Transporter) (code : BitVec 16) :
    reports (t.failed code).2 =
        ((if code ≠ 200 then [code] else []).take (allowed t)).map failMessage ∧
      allowed (t.failed code).1 = if code ≠ 200 then 0 else allowed t := by
  have later (u : Transporter) :
      (if u.m_doTryConnect then u.tryConnect else u).m_oneTimeError = u.m_oneTimeError := by
    split
    · exact tryConnect_flag u
    · rfl
  by_cases good : code ≠ 200
  · rw [if_pos good, if_pos good]
    by_cases flag : t.m_oneTimeError = true
    · have report : code ≠ 200 ∧ t.m_oneTimeError = true := ⟨good, flag⟩
      constructor
      · simp only [failed, if_pos report, allowed, if_pos flag]
        exact reports_failMessage code
      · rw [allowed, if_neg]
        simp only [failed, if_pos report]
        exact (later { t with m_oneTimeError := false }).trans_ne Bool.false_ne_true
    · have silent : ¬ (code ≠ 200 ∧ t.m_oneTimeError = true) := fun report => flag report.2
      constructor
      · simp only [failed, if_neg silent, allowed, if_neg flag]
        rfl
      · simp only [failed, if_neg silent, allowed, later, if_neg flag]
  · have silent : ¬ (code ≠ 200 ∧ t.m_oneTimeError = true) := fun report => good report.1
    rw [if_neg good, if_neg good]
    constructor
    · simp only [failed, if_neg silent, List.take_nil]
      rfl
    · simp only [failed, if_neg silent, allowed, later]

theorem disconnected_reports (t : Transporter) (code : BitVec 16) :
    reports (t.disconnected code).2 = [] ∧ allowed (t.disconnected code).1 = allowed t := by
  constructor
  · simp only [disconnected]
    split <;> rfl
  · simp only [disconnected, allowed]
    split
    · rw [tryConnect_flag]
    · rfl

theorem calm_step {e : Event} {u : Transporter} {effects : List Effect}
    (calm : failures t e = []) (silent : reports effects = []) (same : allowed u = allowed t) :
    reports effects = ((failures t e).take (allowed t)).map failMessage ∧
      allowed u = if failures t e = [] then allowed t else 0 := by
  rw [silent, same, if_pos calm, calm, List.take_nil]
  exact ⟨rfl, rfl⟩

theorem quiet_step {e : Event} (sound : Sound t) (quiet : ¬ Resets t e)
    (stepped : RabbitHole.step noSsl t e = some next) :
    reports next.2 = ((failures t e).take (allowed t)).map failMessage ∧
      allowed next.1 = if failures t e = [] then allowed t else 0 := by
  cases e with
  | connect uri subprotocol attempt =>
    cases stepped
    have other : ¬ ws <+: rewritten uri := quiet
    simp only [Transporter.connect, if_neg other]
    exact calm_step rfl rfl rfl
  | setInterval i =>
    cases stepped
    exact calm_step rfl rfl (by rw [allowed, setInterval_flag, allowed])
  | unbind =>
    cases stepped
    exact calm_step rfl rfl rfl
  | timer attempt =>
    obtain ⟨_, _, eq⟩ := Option.map_eq_some_iff.mp stepped
    subst eq
    by_cases empty : t.m_uri = []
    · rw [tryConnectTimerTimeout, if_pos empty]
      exact calm_step rfl rfl rfl
    · rw [tryConnectTimerTimeout, if_neg empty]
      exact calm_step rfl rfl rfl
  | opened c =>
    obtain ⟨⟨w, call⟩, done, eq⟩ := Option.map_eq_some_iff.mp stepped
    obtain ⟨_, _, report⟩ := ClientRuns.onOpen_reports sound.slots sound.heard done
    have other : ¬ t.websocket.IsCurrent c := quiet
    rw [if_neg other] at report
    subst eq report
    exact calm_step rfl rfl rfl
  | failed c code =>
    obtain ⟨⟨w, call⟩, done, eq⟩ := Option.map_eq_some_iff.mp stepped
    obtain ⟨_, _, report⟩ := ClientRuns.onFail_reports sound.slots sound.heard done
    subst eq report
    by_cases current : t.websocket.IsCurrent c
    · rw [if_pos current]
      obtain ⟨told, left⟩ := failed_reports { t with websocket := w } code
      by_cases good : code ≠ 200
      · rw [if_pos good] at told left
        have one : failures t (.failed c code) = [code] := if_pos ⟨current, good⟩
        rw [one]
        exact ⟨told, left⟩
      · rw [if_neg good] at told left
        exact calm_step (if_neg fun means => good means.2) (told.trans (by simp)) left
    · rw [if_neg current]
      exact calm_step (if_neg fun means => current means.1) rfl rfl
  | closed c code =>
    rw [step_closed_cases sound.slots stepped]
    obtain ⟨told, left⟩ := disconnected_reports { t with websocket := t.websocket.settle c .closed }
      (t.websocket.codeOf c code)
    exact calm_step rfl told left

theorem reset_step {e : Event} (sound : Sound t) (resets : Resets t e)
    (stepped : RabbitHole.step noSsl t e = some next) :
    reports next.2 = [] ∧ allowed next.1 = 1 := by
  cases e with
  | connect uri subprotocol attempt =>
    cases stepped
    have web : ws <+: rewritten uri := resets
    simp only [Transporter.connect, if_pos web]
    exact ⟨rfl, rfl⟩
  | opened c =>
    obtain ⟨⟨w, call⟩, done, eq⟩ := Option.map_eq_some_iff.mp stepped
    obtain ⟨_, _, report⟩ := ClientRuns.onOpen_reports sound.slots sound.heard done
    have current : t.websocket.IsCurrent c := resets
    rw [if_pos current] at report
    subst eq report
    exact ⟨rfl, rfl⟩
  | setInterval | unbind | timer | failed | closed => exact absurd resets id

/-- In an outage only the first failure is reported, and only if one still may be. -/
theorem outage_reports {es : List Event} (sound : Sound t) (outage : Outage noSsl t es) :
    reportsIn noSsl t es = ((failuresIn noSsl t es).take (allowed t)).map failMessage := by
  induction es generalizing t with
  | nil => simp [reportsIn, failuresIn, Runs.told]
  | cons e es ih =>
    cases stepped : RabbitHole.step noSsl t e with
    | none => simp [reportsIn, failuresIn, Runs.told, stepped]
    | some next =>
      obtain ⟨quiet, later⟩ := outage next stepped
      obtain ⟨now, left⟩ := quiet_step sound quiet stepped
      have rest := ih (step_sound t e next sound stepped) later
      rw [reportsIn, failuresIn] at rest ⊢
      rw [Runs.told_cons stepped, Runs.told_cons stepped, now, rest, left]
      by_cases none_now : failures t e = []
      · simp [none_now]
      · have one : ∃ code, failures t e = [code] := by
          cases e with
          | failed c code =>
            by_cases means : t.websocket.IsCurrent c ∧ code ≠ 200
            · exact ⟨code, if_pos means⟩
            · exact absurd (if_neg means) none_now
          | connect | setInterval | unbind | timer | opened | closed => exact absurd rfl none_now
        obtain ⟨code, eq⟩ := one
        rw [eq]
        unfold allowed
        cases t.m_oneTimeError <;> simp

theorem step_paid (t : Transporter) (e : Event) (next : Transporter × List Effect)
    (sound : Sound t) (stepped : RabbitHole.step noSsl t e = some next) :
    allowed next.1 + (reports next.2).length ≤ allowed t + (resets t e).length := by
  by_cases reset : Resets t e
  · obtain ⟨silent, again⟩ := reset_step sound reset stepped
    rw [silent, again, resets, if_pos reset]
    exact Nat.le_add_left _ _
  · obtain ⟨now, left⟩ := quiet_step sound reset stepped
    rw [now, left, resets, if_neg reset]
    by_cases none_now : failures t e = []
    · simp [none_now]
    · simp [none_now]

end

/-- However often the reconnect loop fails, an outage is reported at most once, by its first
    failure: after the current connection has opened or an address has been set, that failure
    is reported, and nothing more until the next such step. So a run never reports more often
    than that happened, and once. -/
theorem one_report_per_outage (noSsl : Bool) (es : List Event) (t : Transporter)
    (ran : Runs.run (RabbitHole.step noSsl) .create es = some t) :
    (∀ bs, Outage noSsl t bs →
      reportsIn noSsl t bs = ((failuresIn noSsl t bs).take (allowed t)).map failMessage) ∧
    (∀ e next, RabbitHole.step noSsl t e = some next → Resets t e → allowed next.1 = 1) ∧
    (∀ e next, RabbitHole.step noSsl t e = some next → failures t e ≠ [] → allowed next.1 = 0) ∧
    (reportsIn noSsl .create es).length ≤ 1 + (resetsIn noSsl .create es).length := by
  have start : Sound .create := ClientRuns.fresh_kept
  have sound : Sound t := Runs.run_keeps (fun t e next => step_sound t e next) start ran
  refine ⟨fun bs => outage_reports sound, ?_, ?_, ?_⟩
  · intro e next stepped reset
    exact (reset_step sound reset stepped).2
  · intro e next stepped failing
    have quiet : ¬ Resets t e := by
      cases e with
      | failed c code => exact id
      | connect | setInterval | unbind | timer | opened | closed => exact absurd rfl failing
    rw [(quiet_step sound quiet stepped).2, if_neg failing]
  · have paid := Runs.told_length_le Sound (fun t e next => step_sound t e next)
      (fun t e next => step_paid t e next) start ran
    have first : allowed .create = 1 := rfl
    calc (reportsIn noSsl .create es).length
        ≤ allowed t + (reportsIn noSsl .create es).length := Nat.le_add_left _ _
      _ ≤ allowed .create + (resetsIn noSsl .create es).length := paid
      _ = 1 + (resetsIn noSsl .create es).length := by rw [first]

def taken : List Event := [.failed 0 423, .timer .started, .failed 1 423]

theorem taken_once : ∃ t,
    Runs.run (RabbitHole.step false) .create [.connect (wss ++ [97]) [] .started] = some t ∧
    failuresIn false t taken = [423, 423] ∧
    reportsIn false t taken = [.error "Rabbithole: tunnel already in use - please use a different public tunnel or consider using a private tunnel."] := by
  obtain ⟨t, ran⟩ : ∃ t,
      Runs.run (RabbitHole.step false) .create [.connect (wss ++ [97]) [] .started] = some t :=
    ⟨_, rfl⟩
  have outage : Outage false t taken :=
    fun _ _ => ⟨id, fun _ _ => ⟨id, fun _ _ => ⟨id, trivial⟩⟩⟩
  have told := (one_report_per_outage false _ t ran).1 taken outage
  have failed : failuresIn false t taken = [423, 423] := by
    cases ran
    decide
  have first : allowed t = 1 := by
    cases ran
    decide
  refine ⟨t, ran, failed, ?_⟩
  rw [told, failed, first]
  rfl

end FailureReports
