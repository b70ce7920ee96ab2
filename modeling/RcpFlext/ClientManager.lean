import RcpFlext.ClientStatus

/- The manager that rcp.client asks about its parameters. It is taken once from rcp-c, which
   makes a new one each time it is told of a disconnect, as the transporter notes there. -/
namespace ClientManager
open Atoms Websocket ClientStatus

/-- `m_manager` is what ParameterClient keeps, `manager` the one its rcp_client has. -/
structure ParameterClient where
  transporter : Instance
  m_manager : Nat
  manager : Nat
  deriving DecidableEq

def create : ParameterClient := ⟨ClientStatus.create, 0, 0⟩

def told (recreate : Nat → Nat) (manager : Nat) : Effect → Nat
  | .callDisconnectedCb => recreate manager
  | .callConnectedCb | .toOutInt _ _ => manager

/-- `disconnected` leaves `m_manager` as it is. -/
def step (recreate : Nat → Nat) (noSsl m_transporter : Bool) :
    Runs.Machine ParameterClient Event (List Effect) := fun s e =>
  (ClientStatus.step noSsl (.rcpClient m_transporter) s.transporter e).map fun next =>
    ({ s with
        transporter := next.1
        manager := next.2.foldl (told recreate) s.manager }, next.2)

/-- Messages are looked up where rcp-c keeps the parameters. -/
def Live (s : ParameterClient) : Prop := s.m_manager = s.manager

instance (s : ParameterClient) : Decidable (Live s) := inferInstanceAs (Decidable (_ = _))

def Keeps (s : ParameterClient) : Event → Prop
  | .closed _ _ => False
  | .failed c _ => ¬ s.transporter.websocket.IsCurrent c
  | _ => True

structure Kept (s : ParameterClient) : Prop where
  websocket : ClientRuns.Kept s.transporter.websocket
  old : s.m_manager ≤ s.manager

section
variable {recreate : Nat → Nat} (newer : ∀ m, m < recreate m) {noSsl : Bool} {s : ParameterClient}
  {next : ParameterClient × List Effect} {e : Event}

theorem step_manager (kept : ClientRuns.Kept s.transporter.websocket)
    (stepped : step recreate noSsl true s e = some next) :
    ClientRuns.Kept next.1.transporter.websocket ∧ next.1.m_manager = s.m_manager ∧
      ((Keeps s e ∧ next.1.manager = s.manager) ∨
        (¬ Keeps s e ∧ next.1.manager = recreate s.manager)) := by
  obtain ⟨⟨t, effects⟩, went, eq⟩ := Option.map_eq_some_iff.mp stepped
  subst eq
  refine ⟨ClientStatus.step_kept e kept went, rfl, ?_⟩
  obtain ⟨w, call, done, same⟩ := ClientStatus.step_cases went
  cases same
  cases e with
  | mOpen uri attempt =>
    cases done
    exact .inl ⟨trivial, rfl⟩
  | mClose =>
    cases done
    exact .inl ⟨trivial, rfl⟩
  | opened c =>
    obtain ⟨_, _, report⟩ := ClientRuns.onOpen_reports kept.slots kept.heard done
    refine .inl ⟨trivial, ?_⟩
    subst report
    show List.foldl _ _ _ = _
    split <;> rfl
  | failed c code =>
    obtain ⟨_, _, report⟩ := ClientRuns.onFail_reports kept.slots kept.heard done
    subst report
    by_cases current : s.transporter.websocket.IsCurrent c
    · refine .inr ⟨not_not.mpr current, ?_⟩
      simp only [current, ↓reduceIte]
      rfl
    · refine .inl ⟨current, ?_⟩
      simp only [current, ↓reduceIte]
      rfl
  | closed c code =>
    obtain ⟨_, _, report⟩ := Client.onClose_cases kept.slots done
    subst report
    exact .inr ⟨id, rfl⟩

include newer

theorem step_kept (kept : Kept s) (stepped : step recreate noSsl true s e = some next) :
    Kept next.1 := by
  obtain ⟨websocket, same, manager⟩ := step_manager kept.websocket stepped
  refine ⟨websocket, ?_⟩
  have older := kept.old
  have later := newer s.manager
  rw [same]
  rcases manager with ⟨_, eq⟩ | ⟨_, eq⟩ <;> rw [eq] <;> omega

theorem step_live_iff (kept : Kept s) (live : Live s)
    (stepped : step recreate noSsl true s e = some next) : Live next.1 ↔ Keeps s e := by
  obtain ⟨_, same, manager⟩ := step_manager kept.websocket stepped
  have later := newer s.manager
  unfold Live at live ⊢
  rw [same]
  rcases manager with ⟨keeps, eq⟩ | ⟨loses, eq⟩
  · exact ⟨fun _ => keeps, fun _ => live.trans eq.symm⟩
  · rw [eq]
    exact ⟨fun still => by omega, fun keeps => absurd keeps loses⟩

theorem step_stale (kept : Kept s) (stale : ¬ Live s)
    (stepped : step recreate noSsl true s e = some next) : ¬ Live next.1 := by
  obtain ⟨_, same, manager⟩ := step_manager kept.websocket stepped
  have older := kept.old
  have later := newer s.manager
  unfold Live at stale ⊢
  rw [same]
  rcases manager with ⟨_, eq⟩ | ⟨_, eq⟩ <;> rw [eq] <;> omega

/-- In every run rcp.client looks its parameters up in the manager of its client exactly until
    the current connection fails or any connection closes; from then on it never does again. -/
theorem live_run_iff (noSsl : Bool) (es : List Event) :
    (Runs.Visits (step recreate noSsl true) Live create es ↔
      Runs.Steps (step recreate noSsl true) Keeps create es) ∧
    ∀ t fs u, Runs.run (step recreate noSsl true) create es = some t → ¬ Live t →
      Runs.run (step recreate noSsl true) t fs = some u → ¬ Live u := by
  have kept (s e next) (kept : Kept s) (stepped : step recreate noSsl true s e = some next) :
      Kept next.1 := step_kept newer kept stepped
  have start : Kept create := ⟨ClientRuns.fresh_kept, Nat.le_refl 0⟩
  refine ⟨Runs.visits_iff_steps Kept kept
    (fun s e next kept live stepped => step_live_iff newer kept live stepped) start rfl es, ?_⟩
  intro t fs u ran stale later
  have there : Kept t := Runs.run_keeps kept start ran
  have both : Kept u ∧ ¬ Live u := by
    refine @Runs.run_keeps _ _ _ _ (fun s => Kept s ∧ ¬ Live s) ?_ t u fs ⟨there, stale⟩ later
    intro s e next held stepped
    exact ⟨kept s e next held.1 stepped, step_stale newer held.1 held.2 stepped⟩
  exact both.2

end

def outage : List Event :=
  [.mOpen addressA .started, .opened 0, .closed 0 1000]

def comeback : List Event := [.mOpen addressB .started, .opened 1]

theorem reconnected_stale :
    ∃ t u, Runs.run (step (· + 1) false true) create outage = some t ∧
      Runs.run (step (· + 1) false true) t comeback = some u ∧ ¬ Live u := by
  refine ⟨_, _, rfl, rfl, ?_⟩
  exact (live_run_iff (fun m => Nat.lt_succ_self m) false outage).2 _ comeback _ rfl (by decide) rfl

end ClientManager
