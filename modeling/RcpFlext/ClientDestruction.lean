import RcpFlext.ClientTraffic

/- Destruction of a websocketClient. Its destructor begins when the derived class is gone, and
   takes the handlers of the current connection away in two steps while the network threads
   still run. Connections that were let go before keep their close handler to the end. -/
namespace ClientDestruction
open Atoms Websocket Client ClientRuns ClientTraffic
open WebsocketServer (Message)

/-- Where the destructor stands: before its first line, behind the two `set_close_handler`,
    behind `disconnect`, or behind the joins. -/
inductive Phase where
  | derivedGone
  | closeCleared
  | released
  | joined
  deriving DecidableEq

structure Dying where
  websocket : Client
  phase : Phase
  deriving DecidableEq

inductive Event where
  | opened (c : Nat)
  | failed (c : Nat) (code : BitVec 16)
  | closed (c : Nat) (code : BitVec 16)
  | message (c : Nat) (msg : Message)
  | next
  deriving DecidableEq

def clearClose (w : Client) : Option Nat → Client
  | some c => { w with
      connections := w.connections.modify c fun k => { k with closeHandler := false } }
  | none => w

/-- A thread does not end while it has such a connection. -/
def Busy (w : Client) (c : Nat) : Prop :=
  w.stateOf c = some .connecting ∨ w.stateOf c = some .opened ∨ w.stateOf c = some .closing

instance (w : Client) (c : Nat) : Decidable (Busy w c) := inferInstanceAs (Decidable (_ ∨ _ ∨ _))

def Dying.next (s : Dying) : Option Dying :=
  match s.phase with
  | .derivedGone => some ⟨clearClose (clearClose s.websocket s.websocket.m_con)
      s.websocket.m_sslCon, .closeCleared⟩
  | .closeCleared => some ⟨s.websocket.disconnect, .released⟩
  | .released =>
    if ∀ c < s.websocket.connections.length, ¬ Busy s.websocket c then
      some { s with phase := .joined }
    else none
  | .joined => none

/-- The client after an event, and whether a handler was called: each calls a method that is
    pure virtual by now. -/
def network (w : Client) : Event → Option (Client × Bool)
  | .opened c => (w.onOpen c).map fun done => (done.1, done.2.isSome)
  | .failed c code => (w.onFail c code).map fun done => (done.1, done.2.isSome)
  | .closed c code => (w.onClose c code).map fun done => (done.1, done.2.isSome)
  | .message c msg => (message w c msg).map fun got => (w, got.isSome)
  | .next => none

inductive Does (w : Client) : Event → Client × Bool → Prop
  | opened (c : Nat) (k : Connection) (found : w.connections[c]? = some k)
      (state : k.state = .connecting) : Does w (.opened c) (w.settle c .opened, k.openHandler)
  | failed (c : Nat) (k : Connection) (code : BitVec 16) (found : w.connections[c]? = some k)
      (state : k.state = .connecting) : Does w (.failed c code) (w.settle c .closed, k.failHandler)
  | closed (c : Nat) (k : Connection) (code : BitVec 16) (found : w.connections[c]? = some k)
      (state : k.state = .opened ∨ k.state = .closing) :
      Does w (.closed c code) (w.settle c .closed, k.closeHandler)
  | message (c : Nat) (k : Connection) (msg : Message) (found : w.connections[c]? = some k)
      (state : k.state = .opened ∨ k.state = .closing) :
      Does w (.message c msg) (w, k.messageHandler)

def step : Runs.Machine Dying Event Bool := fun s e =>
  if e = .next then s.next.map fun t => (t, false)
  else if s.phase = .joined then none
  else (network s.websocket e).map fun done => ({ s with websocket := done.1 }, done.2)

def NoPureCall (s : Dying) (e : Event) : Prop := ∀ next, step s e = some next → next.2 = false

section
variable {w : Client} {c : Nat}

theorem clearClose_at (w : Client) (slot : Option Nat) (c : Nat) :
    (clearClose w slot).connections[c]? = (w.connections[c]?).map fun k =>
      if slot = some c then { k with closeHandler := false } else k := by
  cases slot with
  | none => simp [clearClose]
  | some d => simp [clearClose, List.getElem?_modify]

theorem clearClose_stateOf (w : Client) (slot : Option Nat) (c : Nat) :
    (clearClose w slot).stateOf c = w.stateOf c := by
  unfold stateOf
  rw [clearClose_at, Option.map_map]
  congr 1
  funext k
  by_cases here : slot = some c <;> simp [here]

theorem disconnect_busy (busy : Busy w.disconnect c) : Busy w c := by
  unfold Busy stateOf at busy ⊢
  rw [disconnect_at] at busy
  cases found : w.connections[c]? with
  | none => simp [found] at busy
  | some k =>
    by_cases current : w.IsCurrent c
    · cases state : k.state <;> simp [found, current, state, Connection.release] at busy ⊢
    · simpa [found, current] using busy

theorem network_does {e : Event} {done : Client × Bool} (went : network w e = some done) :
    Does w e done := by
  cases e with
  | opened c =>
    obtain ⟨⟨v, call⟩, opened, eq⟩ := Option.map_eq_some_iff.mp went
    obtain ⟨k, found, rest⟩ := Option.bind_eq_some_iff.mp opened
    split at rest
    · cases rest
      cases eq
      have does := Does.opened c k found ‹_›
      by_cases calls : k.openHandler <;> simpa [calls] using does
    · contradiction
  | failed c code =>
    obtain ⟨⟨v, call⟩, failed, eq⟩ := Option.map_eq_some_iff.mp went
    obtain ⟨k, found, rest⟩ := Option.bind_eq_some_iff.mp failed
    split at rest
    · cases rest
      cases eq
      have does := Does.failed c k code found ‹_›
      by_cases calls : k.failHandler <;> simpa [calls] using does
    · contradiction
  | closed c code =>
    obtain ⟨⟨v, call⟩, closed, eq⟩ := Option.map_eq_some_iff.mp went
    obtain ⟨k, found, rest⟩ := Option.bind_eq_some_iff.mp closed
    split at rest
    · cases rest
      cases eq
      have does := Does.closed c k code found ‹_›
      by_cases calls : k.closeHandler <;> simpa [calls] using does
    · contradiction
  | message c msg =>
    obtain ⟨got, came, eq⟩ := Option.map_eq_some_iff.mp went
    obtain ⟨k, found, rest⟩ := Option.bind_eq_some_iff.mp came
    split at rest
    · cases rest
      cases eq
      have does := Does.message c k msg found ‹_›
      by_cases calls : k.messageHandler <;> simpa [calls] using does
    · contradiction
  | next => contradiction

theorem network_busy {e : Event} {done : Client × Bool} (went : network w e = some done) :
    ∃ c, Busy w c := by
  cases network_does went with
  | opened c k found state | failed c k _ found state =>
    exact ⟨c, .inl (by simp [stateOf, found, state])⟩
  | closed c k _ found state | message c k _ found state =>
    exact ⟨c, .inr (by simpa [stateOf, found] using state)⟩

theorem next_busy {s t : Dying} (went : s.next = some t) (busy : Busy t.websocket c) :
    Busy s.websocket c := by
  unfold Dying.next at went
  split at went
  · cases went
    unfold Busy at busy ⊢
    rwa [clearClose_stateOf, clearClose_stateOf] at busy
  · cases went
    exact disconnect_busy busy
  · split at went
    · cases went
      exact busy
    · contradiction
  · contradiction

theorem step_cases {s : Dying} {e : Event} {next : Dying × Bool} (stepped : step s e = some next) :
    (e = .next ∧ s.next = some next.1 ∧ next.2 = false) ∨
      (s.phase ≠ .joined ∧ network s.websocket e = some (next.1.websocket, next.2) ∧
        next.1.phase = s.phase) := by
  unfold step at stepped
  split at stepped
  · rename_i same
    obtain ⟨t, went, eq⟩ := Option.map_eq_some_iff.mp stepped
    cases eq
    exact .inl ⟨same, went, rfl⟩
  · split at stepped
    · contradiction
    · rename_i running
      obtain ⟨done, went, eq⟩ := Option.map_eq_some_iff.mp stepped
      cases eq
      exact .inr ⟨running, went, rfl⟩

theorem idle_steps {s : Dying} (idle : ∀ c, ¬ Busy s.websocket c) (fs : List Event) :
    Runs.Steps step NoPureCall s fs := by
  induction fs generalizing s with
  | nil => trivial
  | cons e fs ih =>
    intro next stepped
    have quiet (next) (stepped : step s e = some next) : s.next = some next.1 ∧ next.2 = false := by
      rcases step_cases stepped with ⟨_, went, silent⟩ | ⟨_, went, _⟩
      · exact ⟨went, silent⟩
      · obtain ⟨c, busy⟩ := network_busy went
        exact absurd busy (idle c)
    obtain ⟨went, _⟩ := quiet next stepped
    exact ⟨fun other again => (quiet other again).2, ih fun c busy => idle c (next_busy went busy)⟩

theorem step_network {s : Dying} {e : Event} {done : Client × Bool} (running : s.phase ≠ .joined)
    (went : network s.websocket e = some done) :
    step s e = some ({ s with websocket := done.1 }, done.2) := by
  have apart : e ≠ .next := by
    intro same
    rw [same] at went
    contradiction
  rw [step, if_neg apart, if_neg running, went]
  rfl

theorem closed_calls (slots : Slots w) (code : BitVec 16)
    (busy : w.stateOf c = some .opened ∨ w.stateOf c = some .closing) :
    ∃ next, network w (.closed c code) = some (next, true) := by
  obtain ⟨k, found, state⟩ : ∃ k, w.connections[c]? = some k ∧
      (k.state = .opened ∨ k.state = .closing) := by
    rcases busy with h | h
    · obtain ⟨k, found, state⟩ := Option.map_eq_some_iff.mp h
      exact ⟨k, found, .inl state⟩
    · obtain ⟨k, found, state⟩ := Option.map_eq_some_iff.mp h
      exact ⟨k, found, .inr state⟩
  refine ⟨w.settle c .closed, ?_⟩
  simp [network, onClose, found, state, slots.closes c k found]

theorem onOpen_connecting (kept : Kept w) (state : w.stateOf c = some .connecting) :
    w.onOpen c = some (w.settle c .opened, if w.IsCurrent c then some .connected else none) := by
  obtain ⟨k, found, connecting⟩ := Option.map_eq_some_iff.mp state
  have done : w.onOpen c =
      some (w.settle c .opened, if k.openHandler then some .connected else none) := by
    simp [onOpen, found, connecting]
  rw [done, ← (onOpen_reports kept.slots kept.heard done).2.2]

theorem not_quiet {s t : Dying} {e : Event} (stepped : step s e = some (t, true)) :
    ¬ NoPureCall s e := fun quiet => Bool.noConfusion (quiet _ stepped)

theorem close_called (slots : Slots w)
    (busy : w.stateOf c = some .opened ∨ w.stateOf c = some .closing) :
    ¬ Runs.Steps step NoPureCall ⟨w, .derivedGone⟩ [.closed c 0] := by
  intro quiet
  obtain ⟨next, went⟩ := closed_calls slots 0 busy
  have stepped := @step_network ⟨w, .derivedGone⟩ _ _ (by simp) went
  exact not_quiet stepped (quiet _ stepped).1

/-- One that still connects either calls when it opens, or later when it closes. -/
theorem connecting_called (kept : Kept w) (state : w.stateOf c = some .connecting) :
    ¬ Runs.Steps step NoPureCall ⟨w, .derivedGone⟩ [.opened c, .closed c 0] := by
  intro quiet
  have went : network w (.opened c) = some (w.settle c .opened, decide (w.IsCurrent c)) := by
    rw [network, onOpen_connecting kept state]
    by_cases current : w.IsCurrent c <;> simp [current]
  have stepped := @step_network ⟨w, .derivedGone⟩ _ _ (by simp) went
  obtain ⟨first, later⟩ := quiet _ stepped
  by_cases current : w.IsCurrent c
  · rw [decide_eq_true current] at stepped
    exact not_quiet stepped first
  · have now : (w.settle c .opened).stateOf c = some .opened := by
      rw [settle_stateOf, if_pos rfl, state]
      rfl
    exact close_called (settle_slots kept.slots c .opened) (.inl now) later

end

theorem run_kept {noSsl : Bool} {es : List ClientRuns.Event} {w : Client}
    (ran : Runs.run (ClientRuns.step noSsl) Client.fresh es = some w) : Kept w :=
  Runs.run_keeps (fun w e next kept stepped => ClientRuns.step_kept noSsl w e next kept stepped)
    fresh_kept ran

/-- Whatever the client has been through, the network threads can make no pure virtual call
    during its destruction exactly when none of its connections is under way, open or closing
    by then, the superseded ones included. -/
theorem destruction_safe_iff (noSsl : Bool) (es : List ClientRuns.Event) (w : Client)
    (ran : Runs.run (ClientRuns.step noSsl) Client.fresh es = some w) :
    (∀ fs, Runs.Steps step NoPureCall ⟨w, .derivedGone⟩ fs) ↔ ∀ c, ¬ Busy w c := by
  have kept := run_kept ran
  constructor
  · intro quiet c busy
    rcases busy with connecting | opened
    · exact connecting_called kept connecting (quiet _)
    · exact close_called kept.slots opened (quiet _)
  · intro idle fs
    exact idle_steps idle fs

def twice : List ClientRuns.Event :=
  [.connect addressA [] .started, .opened 0,
    .connect addressB [] .started, .opened 1, .closed 1 1000]

theorem superseded_unsafe :
    ∃ w, Runs.run (ClientRuns.step false) Client.fresh twice = some w ∧
      ¬ ∀ fs, Runs.Steps step NoPureCall ⟨w, .derivedGone⟩ fs := by
  refine ⟨_, rfl, ?_⟩
  rw [destruction_safe_iff false twice _ rfl]
  intro idle
  exact idle 0 (by decide)

/- Behind `disconnect`: who still calls. -/

/-- The handlers of the connections there were, as the destructor takes them. -/
structure Stage (w : Client) (s : Dying) : Prop where
  old : ∀ c k, s.websocket.connections[c]? = some k → ¬ w.IsCurrent c →
    k.openHandler = false ∧ k.failHandler = false ∧ k.messageHandler = false ∧
      k.closeHandler = true
  slots : s.phase = .derivedGone ∨ s.phase = .closeCleared →
    s.websocket.m_con = w.m_con ∧ s.websocket.m_sslCon = w.m_sslCon
  cleared : s.phase ≠ .derivedGone → ∀ c k, s.websocket.connections[c]? = some k →
    w.IsCurrent c → k.closeHandler = false
  freed : s.phase = .released ∨ s.phase = .joined → ∀ c k, s.websocket.connections[c]? = some k →
    w.IsCurrent c → k.openHandler = false ∧ k.failHandler = false ∧ k.messageHandler = false

section
variable {w : Client} {s : Dying}

theorem network_handlers {v : Client} {e : Event} {done : Client × Bool}
    (went : network v e = some done) : done.1.m_con = v.m_con ∧ done.1.m_sslCon = v.m_sslCon ∧
      ∀ (c : Nat) (k : Connection), done.1.connections[c]? = some k → ∃ old : Connection,
        v.connections[c]? = some old ∧ k = { old with state := k.state } := by
  have settled (c : Nat) (state : Session) : ∀ (d : Nat) (k : Connection),
      (v.settle c state).connections[d]? = some k → ∃ old : Connection,
        v.connections[d]? = some old ∧ k = { old with state := k.state } := by
    intro d k found
    rw [settle_at, Option.map_eq_some_iff] at found
    obtain ⟨old, was, eq⟩ := found
    refine ⟨old, was, ?_⟩
    subst eq
    split <;> rfl
  cases network_does went with
  | opened c | failed c | closed c => exact ⟨rfl, rfl, settled c _⟩
  | message => exact ⟨rfl, rfl, fun c k found => ⟨k, found, rfl⟩⟩

theorem first_stage (slots : Slots w) : Stage w ⟨w, .derivedGone⟩ where
  old c k found other := by
    obtain ⟨opens, fails, messages⟩ := slots.released c k found other
    exact ⟨opens, fails, messages, slots.closes c k found⟩
  slots _ := ⟨rfl, rfl⟩
  cleared gone := absurd rfl gone
  freed gone := by simp at gone

theorem clearClose_slots (v : Client) (slot : Option Nat) :
    (clearClose v slot).m_con = v.m_con ∧ (clearClose v slot).m_sslCon = v.m_sslCon := by
  cases slot <;> exact ⟨rfl, rfl⟩

theorem cleared_at (v : Client) (c : Nat) :
    (clearClose (clearClose v v.m_con) v.m_sslCon).connections[c]? =
      (v.connections[c]?).map fun k =>
        if v.IsCurrent c then { k with closeHandler := false } else k := by
  rw [clearClose_at, clearClose_at, Option.map_map]
  congr 1
  funext k
  by_cases plain : v.m_con = some c <;> by_cases secure : v.m_sslCon = some c <;>
    simp [IsCurrent, plain, secure]

theorem next_stage {t : Dying} (stage : Stage w s) (went : s.next = some t) : Stage w t := by
  unfold Dying.next at went
  split at went
  · rename_i phase
    cases went
    have slots := stage.slots (.inl phase)
    have current (c) : s.websocket.IsCurrent c ↔ w.IsCurrent c := by
      rw [IsCurrent, IsCurrent, slots.1, slots.2]
    constructor
    · intro c k found other
      rw [cleared_at, Option.map_eq_some_iff] at found
      obtain ⟨old, was, eq⟩ := found
      rw [if_neg (mt (current c).mp other)] at eq
      exact eq ▸ stage.old c old was other
    · intro _
      have first := clearClose_slots s.websocket s.websocket.m_con
      have second := clearClose_slots (clearClose s.websocket s.websocket.m_con)
        s.websocket.m_sslCon
      exact ⟨second.1.trans (first.1.trans slots.1), second.2.trans (first.2.trans slots.2)⟩
    · intro _ c k found held
      rw [cleared_at, Option.map_eq_some_iff] at found
      obtain ⟨old, was, eq⟩ := found
      rw [if_pos ((current c).mpr held)] at eq
      exact eq ▸ rfl
    · intro gone
      simp at gone
  · rename_i phase
    cases went
    have slots := stage.slots (.inr phase)
    have current (c) : s.websocket.IsCurrent c ↔ w.IsCurrent c := by
      rw [IsCurrent, IsCurrent, slots.1, slots.2]
    constructor
    · intro c k found other
      rw [disconnect_at, Option.map_eq_some_iff] at found
      obtain ⟨old, was, eq⟩ := found
      rw [if_neg (mt (current c).mp other)] at eq
      exact eq ▸ stage.old c old was other
    · intro earlier
      simp at earlier
    · intro _ c k found held
      rw [disconnect_at, Option.map_eq_some_iff] at found
      obtain ⟨old, was, eq⟩ := found
      rw [if_pos ((current c).mpr held)] at eq
      exact eq ▸ stage.cleared (by simp [phase]) c old was held
    · intro _ c k found held
      rw [disconnect_at, Option.map_eq_some_iff] at found
      obtain ⟨old, was, eq⟩ := found
      rw [if_pos ((current c).mpr held)] at eq
      exact eq ▸ ⟨rfl, rfl, rfl⟩
  · rename_i phase
    split at went
    · cases went
      refine ⟨stage.old, fun earlier => by simp at earlier, fun _ => ?_, fun _ => ?_⟩
      · exact stage.cleared (by simp [phase])
      · exact stage.freed (.inl phase)
    · contradiction
  · contradiction

theorem step_stage {e : Event} {next : Dying × Bool} (stage : Stage w s)
    (stepped : step s e = some next) : Stage w next.1 := by
  rcases step_cases stepped with ⟨_, went, _⟩ | ⟨_, went, phase⟩
  · exact next_stage stage went
  · obtain ⟨plain, secure, handlers⟩ := network_handlers went
    constructor
    · intro c k found other
      obtain ⟨old, was, eq⟩ := handlers c k found
      rw [eq]
      exact stage.old c old was other
    · intro earlier
      rw [phase] at earlier
      exact ⟨plain.trans (stage.slots earlier).1, secure.trans (stage.slots earlier).2⟩
    · intro later c k found held
      rw [phase] at later
      obtain ⟨old, was, eq⟩ := handlers c k found
      rw [eq]
      exact stage.cleared later c old was held
    · intro later c k found held
      rw [phase] at later
      obtain ⟨old, was, eq⟩ := handlers c k found
      rw [eq]
      exact stage.freed later c old was held

end

/-- Behind `disconnect` the connection that was current calls nobody, and every superseded one
    calls when it closes. -/
theorem released_calls (noSsl : Bool) (es : List ClientRuns.Event) (w : Client)
    (ran : Runs.run (ClientRuns.step noSsl) Client.fresh es = some w) (fs : List Event) (t : Dying)
    (went : Runs.run step ⟨w, .derivedGone⟩ fs = some t) (released : t.phase = .released)
    (e : Event) (next : Dying × Bool) (stepped : step t e = some next) :
    next.2 = true ↔ ∃ c code, e = .closed c code ∧ ¬ w.IsCurrent c := by
  have stage : Stage w t := Runs.run_keeps (fun _ _ _ stage stepped => step_stage stage stepped)
    (first_stage (run_kept ran).slots) went
  have deaf (c : Nat) (k : Connection) (found : t.websocket.connections[c]? = some k) :
      k.openHandler = false ∧ k.failHandler = false ∧ k.messageHandler = false := by
    by_cases held : w.IsCurrent c
    · exact stage.freed (.inl released) c k found held
    · obtain ⟨opens, fails, messages, _⟩ := stage.old c k found held
      exact ⟨opens, fails, messages⟩
  rcases step_cases stepped with ⟨same, _, silent⟩ | ⟨_, done, _⟩
  · rw [same, silent]
    simp
  · generalize next.2 = calls, next.1.websocket = v at done
    cases network_does done with
    | opened c k found => simp [(deaf c k found).1]
    | failed c k _ found => simp [(deaf c k found).2.1]
    | message c k _ found => simp [(deaf c k found).2.2]
    | closed c k _ found =>
      by_cases held : w.IsCurrent c
      · have cleared := stage.cleared (by simp [released]) c k found held
        simp [cleared, held]
      · have calls := (stage.old c k found held).2.2.2
        simp [calls, held]

theorem superseded_calls :
    ∃ w t next, Runs.run (ClientRuns.step false) Client.fresh twice = some w ∧
      Runs.run step ⟨w, .derivedGone⟩ [.next, .next] = some t ∧
      step t (.closed 0 1000) = some next ∧ next.2 = true := by
  refine ⟨_, _, _, rfl, rfl, rfl, ?_⟩
  exact (released_calls false twice _ rfl [.next, .next] _ rfl rfl (.closed 0 1000) _ rfl).mpr
    ⟨0, 1000, rfl, by decide⟩

end ClientDestruction
