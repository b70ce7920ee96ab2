import RcpFlext.ServerRoster

/- ParameterServer without -raw: the client count it keeps for the connections of its
   current transporter, and `listen`, which replaces that transporter. -/
namespace ClientCount
open WebsocketServer Rosters ServerRoster

/-- Where `listen` stands: the old transporter is being destroyed, the new one is bound, the
    count is reset, or a transporter is only removed. -/
inductive Listen where
  | idle
  | replacing (port : BitVec 16)
  | binding (port : BitVec 16)
  | resetting
  | removing
  deriving DecidableEq

/-- `dying` is a transporter no longer held whose destructor still runs, `outlet2` the last
    number sent to outlet 2, and `errors` what `error` was called with so far. -/
structure ParameterServer where
  m_transporter : Option Server
  dying : Option Server
  m_clientCount : Int
  outlet2 : Option Int
  errors : List (String × List Int)
  phase : Listen
  deriving DecidableEq

inductive Event where
  | listen (p : Int)
  | next
  | current (e : WebsocketServer.Event)
  | dying (e : WebsocketServer.Event)
  deriving DecidableEq

namespace ParameterServer

def create : ParameterServer := ⟨none, none, 0, none, [], .idle⟩

def error (s : ParameterServer) (line : String) (args : List Int) : ParameterServer :=
  { s with errors := s.errors ++ [(line, args)] }

def toOutInt (s : ParameterServer) (count : Int) : ParameterServer :=
  { s with m_clientCount := count, outlet2 := some count }

def connected (s : ParameterServer) : ParameterServer := s.toOutInt (s.m_clientCount + 1)

def disconnected (s : ParameterServer) : ParameterServer :=
  if s.m_clientCount - 1 < 0 then (s.error "client count < 0!" []).toOutInt 0
  else s.toOutInt (s.m_clientCount - 1)

def hear (s : ParameterServer) : Option Effect → ParameterServer
  | some .connected => s.connected
  | some .disconnected => s.disconnected
  | _ => s

def listen (s : ParameterServer) (p : Int) : ParameterServer :=
  if ∃ t, s.m_transporter = some t ∧ t.listening = true ∧ p = t.m_port.toNat then s
  else if 65535 < p then s.error "invalid port: %d" [p]
  else if 0 < p then
    { s with
      m_transporter := some .create
      dying := s.m_transporter
      phase := .replacing (BitVec.ofInt 16 p) }
  else if s.m_transporter.isSome then
    { s with m_transporter := none, dying := s.m_transporter, phase := .removing }
  else s

def Destroyed (s : ParameterServer) : Prop := ∀ t, s.dying = some t → t.main = .gone

instance (s : ParameterServer) : Decidable s.Destroyed :=
  inferInstanceAs (Decidable (∀ t, s.dying = some t → t.main = .gone))

def next (s : ParameterServer) : Option ParameterServer :=
  match s.phase with
  | .idle => none
  | .replacing port =>
    if s.Destroyed then some { s with dying := none, phase := .binding port } else none
  | .binding port =>
    some { s with m_transporter := s.m_transporter.map (·.run port), phase := .resetting }
  | .resetting => some { s.toOutInt 0 with phase := .idle }
  | .removing => if s.Destroyed then some { s with dying := none, phase := .idle } else none

end ParameterServer

def step : Runs.Machine ParameterServer Event (Option Effect) := fun s e =>
  match e with
  | .listen p => if s.phase = .idle then some (s.listen p, none) else none
  | .next => s.next.map fun s => (s, none)
  | .current e =>
    if Serves e then
      s.m_transporter.bind fun t => (WebsocketServer.step t e).map fun (t, effect) =>
        ({ s with m_transporter := some t }.hear effect, effect)
    else none
  | .dying e =>
    if Serves e ∨ e = .destroy ∨ e = .main then
      s.dying.bind fun t => (WebsocketServer.step t e).map fun (t, effect) =>
        ({ s with dying := some t }.hear effect, effect)
    else none

def clients (s : ParameterServer) : Int :=
  match s.m_transporter with
  | none => 0
  | some t => t.m_connections.size

def inCall (t : Server) : Option Action :=
  match t.ws_thread with
  | some (.calling a) => some a
  | _ => none

/-- The set has changed and the callback for it is still to be made. -/
def HalfProcessed (t : Server) : Prop := ((inCall t).bind rosterChange).isSome = true

instance (t : Server) : Decidable (HalfProcessed t) := inferInstanceAs (Decidable (_ = true))

def Right (s : ParameterServer) : Prop :=
  s.phase = .idle → (∀ t, s.m_transporter = some t → ¬ HalfProcessed t) →
    s.m_clientCount = clients s ∧ s.outlet2.getD 0 = s.m_clientCount

instance (s : ParameterServer) : Decidable (Right s) :=
  inferInstanceAs (Decidable (_ → _ → _))

def heard (count : Int) : Option Effect → Int
  | some .connected => count + 1
  | some .disconnected => if count - 1 < 0 then 0 else count - 1
  | _ => count

def settled (t : Server) (count : Int) : Int :=
  match inCall t with
  | some a => heard count (a.callback true true)
  | none => count

def counted (t : Server) : Int :=
  match inCall t with
  | some (.subscribe _) => t.m_connections.size - 1
  | some (.unsubscribe _) => t.m_connections.size + 1
  | _ => t.m_connections.size

/-- What a step must respect, in the state before it: at the reset the new set counts what a
    count from 0 will, and a transporter that is only removed leaves its derived destructor
    with nobody counted. -/
def Careful (s : ParameterServer) : Event → Prop
  | .next => s.phase = .resetting →
      ∀ t, s.m_transporter = some t → settled t 0 = t.m_connections.size
  | .dying e => e = .destroy → s.phase = .removing → ∀ t, s.dying = some t → counted t = 0
  | _ => True

instance (s : ParameterServer) : (e : Event) → Decidable (Careful s e)
  | .next => inferInstanceAs (Decidable (_ → _))
  | .dying _ => inferInstanceAs (Decidable (_ → _))
  | .listen _ => isTrue trivial
  | .current _ => isTrue trivial

/-- Set and count agree, up to the callback under way. -/
structure InStep (t : Server) (count : Int) : Prop where
  roster : Roster t
  settled : settled t count = t.m_connections.size

/-- A transporter that is only removed counts its clients until its derived destructor has
    ended, and leaves a count of 0. -/
def Leaving (t : Server) (count : Int) : Prop :=
  (t.derived = true → InStep t count) ∧ (t.derived = false → count = 0)

def Phased (s : ParameterServer) : Prop :=
  match s.phase with
  | .idle => s.dying = none ∧ (s.m_transporter = none → s.m_clientCount = 0) ∧
      ∀ t, s.m_transporter = some t → settled t s.m_clientCount = t.m_connections.size
  | .replacing _ => True
  | .binding _ => s.dying = none
  | .resetting => s.dying = none
  | .removing => s.m_transporter = none ∧ ∃ t, s.dying = some t ∧ Leaving t s.m_clientCount

structure Kept (s : ParameterServer) : Prop where
  sent : s.outlet2.getD 0 = s.m_clientCount
  roster : ∀ t, s.m_transporter = some t → Roster t
  phased : Phased s

section
variable {t : Server} {next : Server × Option Effect}

theorem heard_message (count : Int) (hdl : Nat) (msg : Message) (derived locks : Bool) :
    heard count ((Action.message hdl msg).callback derived locks) = count := by
  by_cases binary : msg.opcode = .binary
  · cases derived <;> cases locks <;> simp [Action.callback, binary, heard]
  · simp [Action.callback, binary, heard]

theorem heard_callback (count : Int) (a : Action) (locks : Bool) :
    heard count (a.callback true locks) = heard count (a.callback true true) := by
  cases a with
  | subscribe hdl => rfl
  | unsubscribe hdl => rfl
  | message hdl msg => rw [heard_message, heard_message]

/-- A fitting change of the set and its callback keep count and set together. -/
theorem heard_change {a : Action} (l : ConList)
    (fits : AllFit l.hdls (rosterChange a).toList) :
    heard l.size (a.callback true true) = (a.change l).size := by
  cases a with
  | subscribe hdl =>
    have longer : (Action.change l (.subscribe hdl)).size = l.size + 1 := join_length fits.1
    simp only [Action.callback, heard, ↓reduceIte]
    omega
  | unsubscribe hdl =>
    have shorter : (Action.change l (.unsubscribe hdl)).size + 1 = l.size := leave_length fits.1
    have some_left : ¬ (l.size : Int) - 1 < 0 := by omega
    simp only [Action.callback, heard, ↓reduceIte, some_left]
    omega
  | message hdl msg =>
    rw [heard_message]
    rfl

theorem inCall_of {w : Worker} (stands : t.ws_thread = some w)
    (silent : ∀ a, w ≠ .calling a) : inCall t = none := by
  unfold inCall
  rw [stands]
  cases w with
  | calling a => exact absurd rfl (silent a)
  | starting | testing | locking | waiting | changing | done => rfl

theorem settled_elsewhere {w : Worker} (stands : t.ws_thread = some w)
    (silent : ∀ a, w ≠ .calling a) (count : Int) : settled t count = count := by
  rw [settled, inCall_of stands silent]

theorem settled_whole (whole : ¬ HalfProcessed t) (count : Int) : settled t count = count := by
  unfold settled
  unfold HalfProcessed at whole
  cases calling : inCall t with
  | none => rfl
  | some a =>
    rw [calling] at whole
    cases a with
    | message hdl msg => exact heard_message count hdl msg true true
    | subscribe | unsubscribe => exact absurd rfl whole

theorem wake_inCall (t : Server) : inCall t.wake = inCall t := by
  unfold inCall Server.wake
  cases t.ws_thread with
  | none => rfl
  | some w => cases w <;> rfl

theorem wake_settled (t : Server) (count : Int) : settled t.wake count = settled t count := by
  rw [settled, wake_inCall, settled]

theorem works_settled {locks : Bool} {count : Int} (inStep : InStep t count)
    (works : Works t locks next) :
    settled next.1 (heard count next.2) = next.1.m_connections.size := by
  have counted := inStep.settled
  cases works with
  | starts stands | goes_on stands | waits stands | pops _ _ stands =>
    rw [settled_elsewhere stands (by simp)] at counted
    exact counted
  | leaves stands =>
    rcases stands with stands | stands <;>
      (rw [settled_elsewhere stands (by simp)] at counted; exact counted)
  | changes a stands =>
    rw [settled_elsewhere stands (by simp)] at counted
    have fits := inStep.roster.fits
    rw [changes_in_hand stands] at fits
    have changed := heard_change t.m_connections ((allFit_append _ _).mp fits).1
    rw [← counted] at changed
    exact changed
  | calls a stands =>
    rw [settled, inCall, stands] at counted
    rw [inStep.roster.derived]
    simp only [settled, inCall, heard_callback count a locks]
    exact counted

theorem step_inStep {e : WebsocketServer.Event} {count : Int} (serves : Serves e)
    (inStep : InStep t count) (stepped : WebsocketServer.step t e = some next) :
    InStep next.1 (heard count next.2) := by
  refine ⟨step_roster serves inStep.roster stepped, ?_⟩
  cases e with
  | worker locks => exact works_settled inStep (step_works stepped)
  | spurious =>
    simp only [WebsocketServer.step, Option.ite_none_right_eq_some] at stepped
    cases stepped.2
    rw [wake_settled]
    exact inStep.settled
  | listens i | ends i | handler i n | notify i =>
    have beside := io_beside (by trivial) stepped
    rw [io_silent (by trivial) stepped, beside.m_connections]
    have same : settled next.1 count = settled t count := by
      rcases beside.ws_thread with h | h
      · rw [settled, settled, inCall, inCall, h]
      · rw [← wake_settled t, settled, settled, inCall, inCall, h]
    exact same.trans inStep.settled
  | run | stop | destroy | main => exact absurd serves id

theorem count_of_counted {count : Int} (inStep : InStep t count) (nobody : counted t = 0) :
    count = 0 := by
  have agrees := inStep.settled
  unfold settled at agrees
  unfold counted at nobody
  cases calling : inCall t with
  | none =>
    rw [calling] at agrees nobody
    exact agrees.trans nobody
  | some a =>
    rw [calling] at agrees nobody
    cases a with
    | subscribe hdl =>
      simp only [Action.callback, heard, ↓reduceIte] at agrees nobody
      omega
    | unsubscribe hdl =>
      simp only at nobody
      omega
    | message hdl msg =>
      simp only [heard_message] at agrees nobody
      exact agrees.trans nobody

theorem half_silent {e : WebsocketServer.Event} (half : t.derived = false)
    (stepped : WebsocketServer.step t e = some next) (count : Int) :
    heard count next.2 = count := by
  cases said : next.2 with
  | none => rfl
  | some f =>
    rcases effect_cases stepped said with ⟨locks, a, _, _, called⟩ | ⟨_, returned⟩
    · rw [← called, half]
      cases a with
      | message hdl msg => exact heard_message count hdl msg false locks
      | subscribe hdl | unsubscribe hdl => rfl
    · rw [returned]
      rfl

theorem step_leaving {e : WebsocketServer.Event} {count : Int}
    (allowed : Serves e ∨ e = .destroy ∨ e = .main) (leaving : Leaving t count)
    (careful : e = .destroy → counted t = 0)
    (stepped : WebsocketServer.step t e = some next) : Leaving next.1 (heard count next.2) := by
  cases derived : t.derived with
  | false =>
    rw [half_silent derived stepped]
    have half := half_stays derived stepped
    exact ⟨fun whole => absurd (half.symm.trans whole) (by decide), fun _ => leaving.2 derived⟩
  | true =>
    have inStep := leaving.1 derived
    rcases allowed with serves | destroy | main
    · have later := step_inStep serves inStep stepped
      refine ⟨fun _ => later, ?_⟩
      intro half
      exact absurd (later.roster.derived.symm.trans half) (by decide)
    · have nobody := count_of_counted inStep (careful destroy)
      subst destroy
      simp only [WebsocketServer.step, Option.ite_none_right_eq_some] at stepped
      cases stepped.2
      exact ⟨fun whole => absurd whole Bool.false_ne_true, fun _ => nobody⟩
    · subst main
      simp only [WebsocketServer.step, Server.stopStep, inStep.roster.main] at stepped
      contradiction

end

section
variable {s : ParameterServer} {next : ParameterServer × Option Effect}

theorem hear_cases (s : ParameterServer) (f : Option Effect) :
    (s.hear f = s ∧ heard s.m_clientCount f = s.m_clientCount) ∨
      ∃ lines, s.hear f = { s.toOutInt (heard s.m_clientCount f) with errors := lines } := by
  cases f with
  | none => exact .inl ⟨rfl, rfl⟩
  | some f =>
    cases f with
    | connected => exact .inr ⟨s.errors, rfl⟩
    | disconnected =>
      right
      simp only [ParameterServer.hear, ParameterServer.disconnected, heard]
      split
      · exact ⟨_, rfl⟩
      · exact ⟨s.errors, rfl⟩
    | received | pureCall | print | returned => exact .inl ⟨rfl, rfl⟩

theorem hear_count (s : ParameterServer) (f : Option Effect) :
    (s.hear f).m_clientCount = heard s.m_clientCount f := by
  rcases hear_cases s f with ⟨same, count⟩ | ⟨_, told⟩
  · rw [same, count]
  · rw [told]
    rfl

theorem hear_beside (s : ParameterServer) (f : Option Effect) :
    (s.hear f).m_transporter = s.m_transporter ∧ (s.hear f).dying = s.dying ∧
      (s.hear f).phase = s.phase := by
  rcases hear_cases s f with ⟨same, _⟩ | ⟨_, told⟩
  · rw [same]
    exact ⟨rfl, rfl, rfl⟩
  · rw [told]
    exact ⟨rfl, rfl, rfl⟩

theorem hear_sent (sent : s.outlet2.getD 0 = s.m_clientCount) (f : Option Effect) :
    (s.hear f).outlet2.getD 0 = (s.hear f).m_clientCount := by
  rcases hear_cases s f with ⟨same, _⟩ | ⟨_, told⟩
  · rw [same]
    exact sent
  · rw [told]
    rfl

theorem create_kept : Kept .create where
  sent := rfl
  roster t held := absurd held (by simp [ParameterServer.create])
  phased := ⟨rfl, fun _ => rfl, fun t held => absurd held (by simp [ParameterServer.create])⟩

theorem listen_kept (kept : Kept s) (idle : s.phase = .idle) (p : Int) : Kept (s.listen p) := by
  have phased := kept.phased
  rw [Phased, idle] at phased
  obtain ⟨_, _, counted⟩ := phased
  unfold ParameterServer.listen
  split
  · exact kept
  split
  · exact ⟨kept.sent, kept.roster, kept.phased⟩
  split
  · refine ⟨kept.sent, ?_, trivial⟩
    intro t held
    cases held
    exact create_roster
  split
  · rename_i held
    obtain ⟨t, held⟩ := Option.isSome_iff_exists.mp held
    refine ⟨kept.sent, fun u other => absurd other (by simp), rfl, t, held, ?_, ?_⟩
    · intro _
      exact ⟨kept.roster t held, counted t held⟩
    · intro half
      exact absurd ((kept.roster t held).derived.symm.trans half) (by decide)
  · exact kept

theorem next_kept (kept : Kept s) (careful : Careful s .next)
    {t : ParameterServer} (stepped : s.next = some t) : Kept t := by
  have phased := kept.phased
  unfold Phased at phased
  unfold ParameterServer.next at stepped
  cases phase : s.phase with
  | idle =>
    rw [phase] at stepped
    contradiction
  | replacing port =>
    simp only [phase, Option.ite_none_right_eq_some] at stepped
    cases stepped.2
    exact ⟨kept.sent, kept.roster, rfl⟩
  | binding port =>
    rw [phase] at stepped phased
    cases stepped
    refine ⟨kept.sent, ?_, phased⟩
    intro t bound
    obtain ⟨old, held, eq⟩ := Option.map_eq_some_iff.mp bound
    subst eq
    exact run_roster (kept.roster old held) port
  | resetting =>
    rw [phase] at stepped phased
    cases stepped
    exact ⟨rfl, kept.roster, phased, fun _ => rfl, careful phase⟩
  | removing =>
    simp only [phase, Option.ite_none_right_eq_some] at stepped phased
    obtain ⟨destroyed, eq⟩ := stepped
    obtain ⟨none_held, t, dies, leaving⟩ := phased
    have gone := destroyed t dies
    have half : t.derived = false := by
      by_contra whole
      have idle := (leaving.1 (by simpa using whole)).roster.main
      exact absurd (idle.symm.trans gone) (by decide)
    cases eq
    refine ⟨kept.sent, kept.roster, rfl, fun _ => leaving.2 half, ?_⟩
    intro u held
    exact absurd (none_held.symm.trans held) (by simp)

theorem current_kept (kept : Kept s) {e : WebsocketServer.Event} (serves : Serves e)
    {t : Server} (held : s.m_transporter = some t) {after : Server × Option Effect}
    (stepped : WebsocketServer.step t e = some after) :
    Kept ({ s with m_transporter := some after.1 }.hear after.2) := by
  obtain ⟨transporter, dying, phase⟩ := hear_beside { s with m_transporter := some after.1 } after.2
  have sent := hear_sent (s := { s with m_transporter := some after.1 }) kept.sent after.2
  refine ⟨sent, ?_, ?_⟩
  · intro u held'
    rw [transporter] at held'
    cases held'
    exact step_roster serves (kept.roster t held) stepped
  · have phased := kept.phased
    unfold Phased at phased ⊢
    rw [phase, dying, transporter, hear_count]
    cases now : s.phase with
    | idle =>
      rw [now] at phased
      obtain ⟨alone, _, counted⟩ := phased
      refine ⟨alone, fun absent => absurd absent (by simp), ?_⟩
      intro u held'
      cases held'
      exact (step_inStep serves ⟨kept.roster t held, counted t held⟩ stepped).settled
    | replacing port => trivial
    | binding port | resetting =>
      rw [now] at phased
      exact phased
    | removing =>
      rw [now] at phased
      exact absurd (held.symm.trans phased.1) (by simp)

theorem dying_kept (kept : Kept s) {e : WebsocketServer.Event} (careful : Careful s (.dying e))
    (allowed : Serves e ∨ e = .destroy ∨ e = .main) {t : Server} (dies : s.dying = some t)
    {after : Server × Option Effect} (stepped : WebsocketServer.step t e = some after) :
    Kept ({ s with dying := some after.1 }.hear after.2) := by
  obtain ⟨transporter, dying, phase⟩ := hear_beside { s with dying := some after.1 } after.2
  have sent := hear_sent (s := { s with dying := some after.1 }) kept.sent after.2
  refine ⟨sent, ?_, ?_⟩
  · rw [transporter]
    exact kept.roster
  · have phased := kept.phased
    unfold Phased at phased ⊢
    rw [phase, dying, transporter, hear_count]
    cases now : s.phase with
    | idle =>
      rw [now] at phased
      exact absurd (dies.symm.trans phased.1) (by simp)
    | replacing port => trivial
    | binding port | resetting =>
      rw [now] at phased
      exact absurd (dies.symm.trans phased) (by simp)
    | removing =>
      rw [now] at phased
      obtain ⟨none_held, u, dies', leaving⟩ := phased
      rw [dies] at dies'
      cases dies'
      have nobody : e = .destroy → counted t = 0 := fun destroy => careful destroy now t dies
      exact ⟨none_held, after.1, rfl, step_leaving allowed leaving nobody stepped⟩

theorem step_kept (s : ParameterServer) (e : Event) (next : ParameterServer × Option Effect)
    (kept : Kept s) (careful : Careful s e) (stepped : step s e = some next) : Kept next.1 := by
  cases e with
  | listen p =>
    simp only [step, Option.ite_none_right_eq_some] at stepped
    obtain ⟨idle, eq⟩ := stepped
    cases eq
    exact listen_kept kept idle p
  | next =>
    obtain ⟨t, did, eq⟩ := Option.map_eq_some_iff.mp stepped
    subst eq
    exact next_kept kept careful did
  | current e =>
    simp only [step, Option.ite_none_right_eq_some] at stepped
    obtain ⟨serves, stepped⟩ := stepped
    obtain ⟨t, held, rest⟩ := Option.bind_eq_some_iff.mp stepped
    obtain ⟨after, did, eq⟩ := Option.map_eq_some_iff.mp rest
    subst eq
    exact current_kept kept serves held did
  | dying e =>
    simp only [step, Option.ite_none_right_eq_some] at stepped
    obtain ⟨allowed, stepped⟩ := stepped
    obtain ⟨t, dies, rest⟩ := Option.bind_eq_some_iff.mp stepped
    obtain ⟨after, did, eq⟩ := Option.map_eq_some_iff.mp rest
    subst eq
    exact dying_kept kept careful allowed dies did

theorem kept_right (kept : Kept s) : Right s := by
  intro idle whole
  have phased := kept.phased
  rw [Phased, idle] at phased
  obtain ⟨_, absent, counted⟩ := phased
  refine ⟨?_, kept.sent⟩
  unfold clients
  split
  · exact absent ‹_›
  · rename_i t held
    rw [← counted t held, settled_whole (whole t held)]

end

/-- In every run whose steps are careful the client count is the real one. -/
theorem count_right_run {events : List Event}
    (careful : Runs.Steps step Careful .create events) :
    Runs.Visits step Right .create events :=
  Runs.visits_of_steps Kept step_kept (fun _ => kept_right) create_kept careful

def comesUp : List Event :=
  [.current (.worker true), .current (.worker true), .current (.worker true),
    .current (.listens 0)]

def clientConnects : List Event :=
  [.current (.handler 0 .opened), .current (.notify 0), .current (.worker true),
    .current (.worker true), .current (.worker true)]

def oldDies : List Event :=
  [.dying .destroy, .dying .main, .dying .main, .dying (.ends 0), .dying .main, .dying .main,
    .dying .main, .dying (.worker true), .dying .main]

/-- The port is changed while a client is connected, who comes again on the new port. -/
def portChanged : List Event :=
  [.listen 10000, .next, .next, .next] ++ comesUp ++ clientConnects ++ [.listen 10001] ++
    oldDies ++ [.next, .next, .next] ++ comesUp ++ clientConnects

theorem count_right_run_port_changed : Runs.Visits step Right .create portChanged :=
  count_right_run (by decide)

/-- A removed transporter leaves its clients counted, and a client counted before `listen`
    comes to its reset is forgotten. -/
theorem count_wrong :
    (∃ s, Runs.run step .create ([.listen 10000, .next, .next, .next] ++ comesUp ++
        clientConnects ++ [.listen 0] ++ oldDies ++ [.next]) = some s ∧
      s.phase = .idle ∧ s.m_transporter = none ∧ s.m_clientCount = 1 ∧ ¬ Right s) ∧
    ∃ s, Runs.run step .create ([.listen 10000, .next, .next] ++ comesUp ++ clientConnects ++
        [.next]) = some s ∧
      s.phase = .idle ∧ s.m_clientCount = 0 ∧ clients s = 1 ∧ ¬ Right s := by
  constructor
  · exact ⟨_, rfl, rfl, rfl, rfl, by decide⟩
  · exact ⟨_, rfl, rfl, rfl, rfl, by decide⟩

end ClientCount
