import RcpFlext.Websocket
import RcpFlext.Library.Runs

/- websocketServer: the queue of actions and the set of connections, and the threads that
   share them. One step is one read or write of m_run, one locked section of the queue, one
   operation on the set, one callback, one wait or one notify. -/
namespace WebsocketServer
open Websocket

/-- `con_list`, in the order in which it is walked. -/
structure ConList where
  hdls : List Nat
  distinct : hdls.Nodup
  deriving DecidableEq

namespace ConList

def clear : ConList := ⟨[], List.nodup_nil⟩

def insert (l : ConList) (hdl : Nat) : ConList := ⟨l.hdls.insert hdl, l.distinct.insert⟩

def erase (l : ConList) (hdl : Nat) : ConList := ⟨l.hdls.erase hdl, l.distinct.erase hdl⟩

def size (l : ConList) : Nat := l.hdls.length

end ConList

inductive Opcode where
  | text
  | binary
  deriving DecidableEq

structure Message where
  opcode : Opcode
  payload : Text
  deriving DecidableEq

inductive Action where
  | subscribe (hdl : Nat)
  | unsubscribe (hdl : Nat)
  | message (hdl : Nat) (msg : Message)
  deriving DecidableEq

/-- Where `process_messages` stands. It leaves `waiting` for `locking` when it is notified,
    and `changing` and `calling` hold the action popped last. -/
inductive Worker where
  | starting
  | testing
  | locking
  | waiting
  | changing (a : Action)
  | calling (a : Action)
  | done
  deriving DecidableEq

/-- Where a thread in `_do_run` stands: before `listen`, in the io loop, between the push and
    the notify of a handler, or at its end. -/
inductive Thread where
  | starting
  | polling
  | notifying
  | ended
  deriving DecidableEq

/-- Where the thread that calls `stop` stands; after the destructor it is `gone`. -/
inductive Main where
  | idle
  | stopping
  | clearing
  | joiningServer
  | clearingRun
  | notifying
  | joiningWorker
  | gone
  deriving DecidableEq

/-- `threads` are all that `run` ever started, `server_thread` is the last of them until it
    is joined, `opens` tells of every connection so far whether it is still open, and
    `derived` is off once only the base class is left. -/
structure Server where
  m_port : BitVec 16
  m_run : Bool
  m_actions : List Action
  m_connections : ConList
  ws_thread : Option Worker
  server_thread : Option Nat
  threads : List Thread
  opens : List Bool
  listening : Bool
  derived : Bool
  main : Main
  deriving DecidableEq

inductive Effect where
  | connected
  | disconnected
  | received (data : Text) (id : Nat)
  | pureCall
  | print (payload : Text)
  | returned
  deriving DecidableEq

inductive Network where
  | opened
  | closed (hdl : Nat)
  | message (hdl : Nat) (msg : Message)
  deriving DecidableEq

inductive Event where
  | run (port : BitVec 16)
  | stop
  | destroy
  | main
  | worker (locks : Bool)
  | spurious
  | listens (i : Nat)
  | ends (i : Nat)
  | handler (i : Nat) (n : Network)
  | notify (i : Nat)
  deriving DecidableEq

def Action.Calls : Action → Prop
  | .subscribe _ => True
  | .unsubscribe _ => True
  | .message _ msg => msg.opcode = .binary

instance : (a : Action) → Decidable a.Calls
  | .subscribe _ | .unsubscribe _ => isTrue trivial
  | .message _ _ => inferInstanceAs (Decidable (_ = _))

def Action.change (l : ConList) : Action → ConList
  | .subscribe hdl => l.insert hdl
  | .unsubscribe hdl => l.erase hdl
  | .message _ _ => l

/-- `locks` tells whether the handle of a message still has its connection. -/
def Action.callback (derived locks : Bool) : Action → Option Effect
  | .subscribe _ => some (if derived then .connected else .pureCall)
  | .unsubscribe _ => some (if derived then .disconnected else .pureCall)
  | .message hdl msg =>
    if msg.opcode = .binary then
      if locks then some (if derived then .received msg.payload hdl else .pureCall) else none
    else some (.print msg.payload)

namespace Server

def create : Server where
  m_port := 0
  m_run := false
  m_actions := []
  m_connections := .clear
  ws_thread := some .starting
  server_thread := none
  threads := []
  opens := []
  listening := false
  derived := true
  main := .idle

def run (s : Server) (port : BitVec 16) : Server :=
  { s with
    m_port := port
    server_thread := some s.threads.length
    threads := s.threads ++ [.starting]
    ws_thread := some (s.ws_thread.getD .starting) }

/-- `notify_one` wakes the worker where it waits; it may also wake by itself. -/
def wake (s : Server) : Server :=
  { s with ws_thread := s.ws_thread.map fun w => if w = .waiting then .locking else w }

def returned (s : Server) : Server × Option Effect :=
  ({ s with main := if s.derived then .idle else .gone }, some .returned)

def stopStep (s : Server) : Option (Server × Option Effect) :=
  match s.main with
  | .idle => none
  | .stopping => some ({ s with listening := false, main := .clearing }, none)
  | .clearing => some ({ s with m_connections := .clear, main := .joiningServer }, none)
  | .joiningServer =>
    if ∀ i, s.server_thread = some i → s.threads[i]? = some .ended then
      let s := { s with server_thread := none }
      if s.ws_thread = none then some s.returned else some ({ s with main := .clearingRun }, none)
    else none
  | .clearingRun => some ({ s with m_run := false, main := .notifying }, none)
  | .notifying => some ({ s.wake with main := .joiningWorker }, none)
  | .joiningWorker =>
    if s.ws_thread = some .done then some { s with ws_thread := none }.returned else none
  | .gone => none

/-- The next step of `process_messages`. What it does under the lock of the queue is one
    step: test, then wait, leave or pop. -/
def workerStep (s : Server) (locks : Bool) : Worker → Option (Server × Option Effect)
  | .starting => some ({ s with m_run := true, ws_thread := some .testing }, none)
  | .testing => some ({ s with ws_thread := some (if s.m_run then .locking else .done) }, none)
  | .locking =>
    if s.m_run then
      match s.m_actions with
      | [] => some ({ s with ws_thread := some .waiting }, none)
      | a :: rest => some ({ s with m_actions := rest, ws_thread := some (.changing a) }, none)
    else some ({ s with ws_thread := some .done }, none)
  | .waiting => none
  | .changing a => some ({ s with
      m_connections := a.change s.m_connections
      ws_thread := some (.calling a) }, none)
  | .calling a => some ({ s with ws_thread := some .testing }, a.callback s.derived locks)
  | .done => none

def push (s : Server) (a : Action) : Server := { s with m_actions := s.m_actions ++ [a] }

/-- `on_open`, `on_close` and `on_message` up to their notify. A connection opens once,
    and closes and sends only after that. -/
def handler (s : Server) : Network → Option Server
  | .opened => some ({ s with opens := s.opens ++ [true] }.push (.subscribe s.opens.length))
  | .closed hdl =>
    if s.opens[hdl]? = some true then
      some ({ s with opens := s.opens.set hdl false }.push (.unsubscribe hdl))
    else none
  | .message hdl msg =>
    if s.opens[hdl]? = some true then some (s.push (.message hdl msg)) else none

def goes (s : Server) (i : Nat) (t : Thread) : Server := { s with threads := s.threads.set i t }

end Server

/-- `run`, `stop` and the destructor are called by one thread, one after the other. A thread
    of `_do_run` may fail to listen, and runs handlers from then on until it ends. -/
def step : Runs.Machine Server Event (Option Effect) := fun s e =>
  match e with
  | .run port => if s.main = .idle then some (s.run port, none) else none
  | .stop => if s.main = .idle then some ({ s with main := .stopping }, none) else none
  | .destroy =>
    if s.main = .idle then some ({ s with derived := false, main := .stopping }, none) else none
  | .main => s.stopStep
  | .worker locks => s.ws_thread.bind (s.workerStep locks)
  | .spurious => if s.ws_thread = some .waiting then some (s.wake, none) else none
  | .listens i =>
    if s.threads[i]? = some .starting then some ({ s.goes i .polling with listening := true }, none)
    else none
  | .ends i =>
    if s.threads[i]? = some .starting ∨ s.threads[i]? = some .polling then
      some (s.goes i .ended, none)
    else none
  | .handler i n =>
    if s.threads[i]? = some .polling then
      (s.handler n).map fun next => (next.goes i .notifying, none)
    else none
  | .notify i =>
    if s.threads[i]? = some .notifying then some ((s.goes i .polling).wake, none) else none

inductive Works (s : Server) (locks : Bool) : Server × Option Effect → Prop
  | starts (at_start : s.ws_thread = some .starting) :
      Works s locks ({ s with m_run := true, ws_thread := some .testing }, none)
  | goes_on (at_test : s.ws_thread = some .testing) (on : s.m_run = true) :
      Works s locks ({ s with ws_thread := some .locking }, none)
  | leaves (at_test : s.ws_thread = some .testing ∨ s.ws_thread = some .locking)
      (off : s.m_run = false) : Works s locks ({ s with ws_thread := some .done }, none)
  | waits (at_lock : s.ws_thread = some .locking) (on : s.m_run = true)
      (empty : s.m_actions = []) : Works s locks ({ s with ws_thread := some .waiting }, none)
  | pops (a : Action) (rest : List Action) (at_lock : s.ws_thread = some .locking)
      (on : s.m_run = true) (queue : s.m_actions = a :: rest) :
      Works s locks ({ s with m_actions := rest, ws_thread := some (.changing a) }, none)
  | changes (a : Action) (at_change : s.ws_thread = some (.changing a)) :
      Works s locks ({ s with
        m_connections := a.change s.m_connections
        ws_thread := some (.calling a) }, none)
  | calls (a : Action) (at_call : s.ws_thread = some (.calling a)) :
      Works s locks ({ s with ws_thread := some .testing }, a.callback s.derived locks)

inductive Stops (s : Server) : Server × Option Effect → Prop
  | refuses (at_stop : s.main = .stopping) :
      Stops s ({ s with listening := false, main := .clearing }, none)
  | clears (at_clear : s.main = .clearing) :
      Stops s ({ s with m_connections := .clear, main := .joiningServer }, none)
  | returns_early (at_join : s.main = .joiningServer)
      (joined : ∀ i, s.server_thread = some i → s.threads[i]? = some .ended)
      (absent : s.ws_thread = none) : Stops s { s with server_thread := none }.returned
  | joins (at_join : s.main = .joiningServer)
      (joined : ∀ i, s.server_thread = some i → s.threads[i]? = some .ended)
      (present : s.ws_thread ≠ none) :
      Stops s ({ s with server_thread := none, main := .clearingRun }, none)
  | clears_run (at_run : s.main = .clearingRun) :
      Stops s ({ s with m_run := false, main := .notifying }, none)
  | notifies (at_notify : s.main = .notifying) :
      Stops s ({ s.wake with main := .joiningWorker }, none)
  | returns (at_join : s.main = .joiningWorker) (done : s.ws_thread = some .done) :
      Stops s { s with ws_thread := none }.returned

section
variable {s : Server} {next : Server × Option Effect}

theorem step_stops (stepped : step s .main = some next) : Stops s next := by
  simp only [step, Server.stopStep] at stepped
  split at stepped
  · contradiction
  · cases stepped
    exact .refuses ‹_›
  · cases stepped
    exact .clears ‹_›
  · rename_i at_join
    split at stepped
    · rename_i joined
      split at stepped
      · rename_i absent
        cases stepped
        exact .returns_early at_join joined absent
      · rename_i present
        cases stepped
        exact .joins at_join joined present
    · contradiction
  · cases stepped
    exact .clears_run ‹_›
  · cases stepped
    exact .notifies ‹_›
  · rename_i at_join
    split at stepped
    · rename_i done
      cases stepped
      exact .returns at_join done
    · contradiction
  · contradiction

theorem step_works {locks : Bool} (stepped : step s (.worker locks) = some next) :
    Works s locks next := by
  obtain ⟨w, stands, did⟩ := Option.bind_eq_some_iff.mp stepped
  cases w with
  | starting =>
    cases did
    exact .starts stands
  | testing =>
    cases did
    by_cases on : s.m_run = true
    · rw [if_pos on]
      exact .goes_on stands on
    · rw [if_neg on]
      exact .leaves (.inl stands) (Bool.eq_false_iff.mpr on)
  | locking =>
    by_cases on : s.m_run = true
    · rw [Server.workerStep, if_pos on] at did
      split at did
      · rename_i empty
        cases did
        exact .waits stands on empty
      · rename_i a rest queue
        cases did
        exact .pops a rest stands on queue
    · rw [Server.workerStep, if_neg on] at did
      cases did
      exact .leaves (.inr stands) (Bool.eq_false_iff.mpr on)
  | waiting => contradiction
  | changing a =>
    cases did
    exact .changes a stands
  | calling a =>
    cases did
    exact .calls a stands
  | done => contradiction

theorem stops_derived (stops : Stops s next) : next.1.derived = s.derived := by
  cases stops <;> rfl

theorem works_beside {locks : Bool} (works : Works s locks next) :
    next.1.derived = s.derived ∧ next.1.main = s.main ∧ next.1.ws_thread ≠ none := by
  cases works <;> exact ⟨rfl, rfl, Option.some_ne_none _⟩

end

def Event.IsIo : Event → Prop
  | .listens _ => True
  | .ends _ => True
  | .handler _ _ => True
  | .notify _ => True
  | _ => False

structure Beside (s next : Server) : Prop where
  live : ∃ t ∈ s.threads, t ≠ .ended
  m_run : next.m_run = s.m_run
  m_connections : next.m_connections = s.m_connections
  derived : next.derived = s.derived
  main : next.main = s.main
  ws_thread : next.ws_thread = s.ws_thread ∨ next.ws_thread = s.wake.ws_thread
  m_actions : next.m_actions = s.m_actions ∨ ∃ a, next.m_actions = s.m_actions ++ [a]

section
variable {s : Server} {next : Server × Option Effect}

theorem live_of {i : Nat} {t : Thread} (found : s.threads[i]? = some t) (running : t ≠ .ended) :
    ∃ t ∈ s.threads, t ≠ .ended := ⟨t, List.mem_of_getElem? found, running⟩

theorem handler_beside {i : Nat} {n : Network} (stepped : step s (.handler i n) = some next) :
    Beside s next.1 := by
  simp only [step, Option.ite_none_right_eq_some, Option.map_eq_some_iff] at stepped
  obtain ⟨found, handled, did, eq⟩ := stepped
  subst eq
  have live := live_of found (by decide)
  cases n with
  | opened =>
    cases did
    exact ⟨live, rfl, rfl, rfl, rfl, .inl rfl, .inr ⟨_, rfl⟩⟩
  | closed hdl =>
    simp only [Server.handler, Option.ite_none_right_eq_some] at did
    obtain ⟨_, eq⟩ := did
    cases eq
    exact ⟨live, rfl, rfl, rfl, rfl, .inl rfl, .inr ⟨_, rfl⟩⟩
  | message hdl msg =>
    simp only [Server.handler, Option.ite_none_right_eq_some] at did
    obtain ⟨_, eq⟩ := did
    cases eq
    exact ⟨live, rfl, rfl, rfl, rfl, .inl rfl, .inr ⟨_, rfl⟩⟩

theorem io_beside {e : Event} (io : e.IsIo) (stepped : step s e = some next) :
    Beside s next.1 := by
  cases e with
  | listens i =>
    simp only [step, Option.ite_none_right_eq_some] at stepped
    obtain ⟨found, eq⟩ := stepped
    cases eq
    exact ⟨live_of found (by decide), rfl, rfl, rfl, rfl, .inl rfl, .inl rfl⟩
  | ends i =>
    simp only [step, Option.ite_none_right_eq_some] at stepped
    obtain ⟨found, eq⟩ := stepped
    cases eq
    refine ⟨?_, rfl, rfl, rfl, rfl, .inl rfl, .inl rfl⟩
    rcases found with found | found <;> exact live_of found (by decide)
  | handler i n => exact handler_beside stepped
  | notify i =>
    simp only [step, Option.ite_none_right_eq_some] at stepped
    obtain ⟨found, eq⟩ := stepped
    cases eq
    exact ⟨live_of found (by decide), rfl, rfl, rfl, rfl, .inr rfl, .inl rfl⟩
  | run | stop | destroy | main | worker | spurious => exact absurd io id

theorem io_silent {e : Event} (io : e.IsIo) (stepped : step s e = some next) : next.2 = none := by
  cases e with
  | listens i =>
    simp only [step, Option.ite_none_right_eq_some] at stepped
    rw [← Option.some.inj stepped.2]
  | ends i =>
    simp only [step, Option.ite_none_right_eq_some] at stepped
    rw [← Option.some.inj stepped.2]
  | handler i n =>
    simp only [step, Option.ite_none_right_eq_some, Option.map_eq_some_iff] at stepped
    obtain ⟨_, _, _, eq⟩ := stepped
    rw [← eq]
  | notify i =>
    simp only [step, Option.ite_none_right_eq_some] at stepped
    rw [← Option.some.inj stepped.2]
  | run | stop | destroy | main | worker | spurious => exact absurd io id

/-- Only a callback of the worker and the return of `stop` are seen from outside. -/
theorem effect_cases {e : Event} {f : Effect} (stepped : step s e = some next)
    (said : next.2 = some f) :
    (∃ locks a, e = .worker locks ∧ s.ws_thread = some (.calling a) ∧
      a.callback s.derived locks = some f) ∨ e = .main ∧ f = .returned := by
  cases e with
  | main =>
    right
    cases step_stops stepped with
    | returns_early | returns => exact ⟨rfl, (Option.some.inj said).symm⟩
    | refuses | clears | joins | clears_run | notifies => contradiction
  | worker locks =>
    left
    cases step_works stepped with
    | calls a at_call => exact ⟨locks, a, rfl, at_call, said⟩
    | starts | goes_on | leaves | waits | pops | changes => contradiction
  | listens i | ends i | handler i n | notify i =>
    rw [io_silent (by trivial) stepped] at said
    contradiction
  | run port | stop | destroy | spurious =>
    simp only [step, Option.ite_none_right_eq_some] at stepped
    rw [← Option.some.inj stepped.2] at said
    contradiction

theorem half_stays {e : Event} (half : s.derived = false) (stepped : step s e = some next) :
    next.1.derived = false := by
  cases e with
  | main => exact (stops_derived (step_stops stepped)).trans half
  | worker locks => exact (works_beside (step_works stepped)).1.trans half
  | listens i | ends i | handler i n | notify i =>
    exact (io_beside (by trivial) stepped).derived.trans half
  | run port | stop | spurious =>
    simp only [step, Option.ite_none_right_eq_some] at stepped
    rw [← Option.some.inj stepped.2]
    exact half
  | destroy =>
    simp only [step, Option.ite_none_right_eq_some] at stepped
    rw [← Option.some.inj stepped.2]

end

end WebsocketServer
