import RcpFlext.ClientCount

/- A server until it is stopped: two queues in a row, from the handlers to the set of
   connections and from there to the callbacks. Handlers come for any handle at any time. -/
namespace EventReplay
open WebsocketServer Rosters ServerRoster ClientCount

/-- `on_open`, `on_close` or `on_message` in thread `i`, or a step beside the handlers. -/
inductive Event where
  | handler (i : Nat) (a : Action)
  | beside (e : WebsocketServer.Event)
  deriving DecidableEq

def Unstopped : WebsocketServer.Event → Prop
  | .run _ => True
  | .worker _ => True
  | .spurious => True
  | .listens _ => True
  | .ends _ => True
  | .notify _ => True
  | _ => False

instance : (e : WebsocketServer.Event) → Decidable (Unstopped e)
  | .run _ | .worker _ | .spurious | .listens _ | .ends _ | .notify _ => isTrue trivial
  | .stop | .destroy | .main | .handler _ _ => isFalse id

def step : Runs.Machine Server Event (Option Effect) := fun s e =>
  match e with
  | .handler i a =>
    if s.threads[i]? = some .polling then some ((s.push a).goes i .notifying, none) else none
  | .beside e => if Unstopped e then WebsocketServer.step s e else none

/-- What a step of an unstopped server does. -/
inductive Does (s : Server) : Event → Server × Option Effect → Prop
  | handles (i : Nat) (a : Action) (polling : s.threads[i]? = some .polling) :
      Does s (.handler i a) ((s.push a).goes i .notifying, none)
  | works (locks : Bool) (next : Server × Option Effect) (works : Works s locks next) :
      Does s (.beside (.worker locks)) next
  | runs (port : BitVec 16) (idle : s.main = .idle) :
      Does s (.beside (.run port)) (s.run port, none)
  | wakes (waiting : s.ws_thread = some .waiting) : Does s (.beside .spurious) (s.wake, none)
  | listens (i : Nat) (starting : s.threads[i]? = some .starting) :
      Does s (.beside (.listens i)) ({ s.goes i .polling with listening := true }, none)
  | ends (i : Nat) (running : s.threads[i]? = some .starting ∨ s.threads[i]? = some .polling) :
      Does s (.beside (.ends i)) (s.goes i .ended, none)
  | notifies (i : Nat) (notifying : s.threads[i]? = some .notifying) :
      Does s (.beside (.notify i)) ((s.goes i .polling).wake, none)

/-- The action popped last, up to its change of the set. -/
def inHand (s : Server) : Option Action :=
  match s.ws_thread with
  | some (.changing a) => some a
  | _ => none

def queued : Event → List Action
  | .handler _ a => [a]
  | .beside _ => []

def applied (s : Server) : Event → List Action
  | .beside (.worker _) => (inHand s).toList
  | _ => []

/-- The action whose callback a step makes, and whether its handle was still locked then. -/
def processed (s : Server) : Event → List (Action × Bool)
  | .beside (.worker locks) => (inCall s).toList.map fun a => (a, locks)
  | _ => []

def IsCallback : Effect → Prop
  | .print _ => False
  | .returned => False
  | _ => True

instance : (f : Effect) → Decidable (IsCallback f)
  | .print _ | .returned => isFalse id
  | .connected | .disconnected | .received _ _ | .pureCall => isTrue trivial

def callbacks (effect : Option Effect) : List Effect := effect.toList.filter fun f => IsCallback f

def answer : Action × Bool → Option Effect
  | (.subscribe _, _) => some .connected
  | (.unsubscribe _, _) => some .disconnected
  | (.message hdl msg, locks) =>
    if msg.opcode = .binary ∧ locks = true then some (.received msg.payload hdl) else none

def handle : Action → Nat
  | .subscribe hdl => hdl
  | .unsubscribe hdl => hdl
  | .message hdl _ => hdl

def own (hdl : Nat) (events : List Action) : List Action := events.filter fun a => handle a = hdl

/-- The events of each connection arrive as open, messages, close. -/
def Ordered (events : List Action) : Prop :=
  ∀ hdl, ∃ messages : List Message, own hdl events <+:
    .subscribe hdl :: (messages.map (Action.message hdl) ++ [.unsubscribe hdl])

section Run
variable (es : List Event)

def queuedIn : List Action := Runs.told step (fun _ e _ => queued e) Server.create es

def processedIn : List (Action × Bool) :=
  Runs.told step (fun s e _ => processed s e) Server.create es

def callbacksIn : List Effect :=
  Runs.told step (fun _ _ next => callbacks next.2) Server.create es

end Run

section
variable {s : Server} {next : Server × Option Effect}

theorem run_inCall (s : Server) (port : BitVec 16) : inCall (s.run port) = inCall s := by
  unfold inCall Server.run
  cases s.ws_thread <;> rfl

theorem inHand_of {w : Worker} (stands : s.ws_thread = some w)
    (empty_handed : ∀ a, w ≠ .changing a) : inHand s = none := by
  unfold inHand
  rw [stands]
  cases w with
  | changing a => exact absurd rfl (empty_handed a)
  | starting | testing | locking | waiting | calling | done => rfl

theorem toCome_eq (s : Server) : toCome s = (inHand s).toList ++ s.m_actions := by
  unfold toCome inHand
  cases s.ws_thread with
  | none => rfl
  | some w => cases w <;> rfl

theorem callbacks_answer (a : Action) (locks : Bool) :
    callbacks (a.callback true locks) = (answer (a, locks)).toList := by
  cases a with
  | subscribe hdl => rfl
  | unsubscribe hdl => rfl
  | message hdl msg =>
    by_cases binary : msg.opcode = .binary
    · cases locks with
      | true =>
        have sounds : answer (.message hdl msg, true) = some (.received msg.payload hdl) :=
          if_pos ⟨binary, rfl⟩
        rw [Action.callback, if_pos binary, sounds]
        rfl
      | false =>
        have silent : answer (.message hdl msg, false) = none :=
          if_neg fun both => Bool.false_ne_true both.2
        rw [Action.callback, if_pos binary, silent]
        rfl
    · have silent : answer (.message hdl msg, locks) = none := if_neg fun both => binary both.1
      rw [Action.callback, if_neg binary, silent]
      rfl

/-- What a step does to the two queues: from the handlers to the set of connections, and from
    there to the callbacks. -/
structure Moved (s : Server) (e : Event) (next : Server × Option Effect) : Prop where
  queue : toCome s ++ queued e = applied s e ++ toCome next.1
  hand : (inCall s).toList ++ applied s e =
    (processed s e).map Prod.fst ++ (inCall next.1).toList
  set : next.1.m_connections.hdls =
    (applied s e).foldl (fun l a => after l (rosterChange a).toList) s.m_connections.hdls
  answered : s.derived = true → callbacks next.2 = (processed s e).filterMap answer
  derived : next.1.derived = s.derived

theorem moved_of_quiet {e : Event} (nothing_applied : applied s e = [])
    (nothing_processed : processed s e = []) (come : toCome next.1 = toCome s ++ queued e)
    (call : inCall next.1 = inCall s) (conns : next.1.m_connections = s.m_connections)
    (derived : next.1.derived = s.derived) (silent : next.2 = none) : Moved s e next where
  queue := by rw [nothing_applied, come, List.nil_append]
  hand := by rw [nothing_applied, nothing_processed, call, List.append_nil, List.map_nil,
    List.nil_append]
  set := by
    rw [nothing_applied, conns]
    rfl
  answered _ := by
    rw [nothing_processed, silent]
    rfl
  derived := derived

theorem moved_of_idle {locks : Bool} {w : Worker} (stands : s.ws_thread = some w)
    (empty_handed : ∀ a, w ≠ .changing a) (not_calling : ∀ a, w ≠ .calling a)
    (come : toCome next.1 = toCome s) (call : inCall next.1 = none)
    (conns : next.1.m_connections = s.m_connections) (derived : next.1.derived = s.derived)
    (silent : next.2 = none) : Moved s (.beside (.worker locks)) next := by
  have hand := inHand_of stands empty_handed
  have out := inCall_of stands not_calling
  refine moved_of_quiet ?_ ?_ ?_ (call.trans out.symm) conns derived silent
  · rw [applied, hand]
    rfl
  · rw [processed, out]
    rfl
  · rw [come, queued, List.append_nil]

theorem worker_moved {locks : Bool} (works : Works s locks next) :
    Moved s (.beside (.worker locks)) next := by
  cases works with
  | starts stands | goes_on stands | waits stands =>
    apply moved_of_idle stands (by simp) (by simp) _ rfl rfl rfl rfl
    rw [toCome, toCome, stands]
  | leaves stands =>
    rcases stands with stands | stands <;>
    · apply moved_of_idle stands (by simp) (by simp) _ rfl rfl rfl rfl
      rw [toCome, toCome, stands]
  | pops a rest stands _ queue =>
    apply moved_of_idle stands (by simp) (by simp) _ rfl rfl rfl rfl
    rw [toCome, toCome, stands, queue]
  | changes a stands =>
    have hand : inHand s = some a := by rw [inHand, stands]
    have out := inCall_of stands (by simp)
    have all : applied s (.beside (.worker locks)) = [a] := by
      rw [applied, hand]
      rfl
    have none_yet : processed s (.beside (.worker locks)) = [] := by
      rw [processed, out]
      rfl
    refine ⟨?_, ?_, ?_, ?_, rfl⟩
    · rw [all, toCome_eq, hand, queued, List.append_nil]
      rfl
    · rw [all, none_yet, out]
      rfl
    · rw [all]
      exact change_hdls a s.m_connections
    · intro _
      rw [none_yet]
      rfl
  | calls a stands =>
    have hand := inHand_of stands (by simp)
    have out : inCall s = some a := by rw [inCall, stands]
    have nothing : applied s (.beside (.worker locks)) = [] := by
      rw [applied, hand]
      rfl
    have one : processed s (.beside (.worker locks)) = [(a, locks)] := by
      rw [processed, out]
      rfl
    refine ⟨?_, ?_, ?_, ?_, rfl⟩
    · rw [nothing, toCome_eq, hand, queued, List.append_nil]
      rfl
    · rw [nothing, one, out]
      rfl
    · rw [nothing]
      rfl
    · intro whole
      rw [one, whole, callbacks_answer]
      cases found : answer (a, locks) <;> simp [found]

theorem step_beside {e : WebsocketServer.Event} (stepped : step s (.beside e) = some next) :
    WebsocketServer.step s e = some next := by
  simp only [step, Option.ite_none_right_eq_some] at stepped
  exact stepped.2

theorem step_does {e : Event} (stepped : step s e = some next) : Does s e next := by
  cases e with
  | handler i a =>
    simp only [step, Option.ite_none_right_eq_some] at stepped
    cases stepped.2
    exact .handles i a stepped.1
  | beside e =>
    have did := step_beside stepped
    simp only [step, Option.ite_none_right_eq_some] at stepped
    cases e with
    | worker locks => exact .works locks next (step_works did)
    | run port =>
      simp only [WebsocketServer.step, Option.ite_none_right_eq_some] at did
      cases did.2
      exact .runs port did.1
    | spurious =>
      simp only [WebsocketServer.step, Option.ite_none_right_eq_some] at did
      cases did.2
      exact .wakes did.1
    | listens i =>
      simp only [WebsocketServer.step, Option.ite_none_right_eq_some] at did
      cases did.2
      exact .listens i did.1
    | ends i =>
      simp only [WebsocketServer.step, Option.ite_none_right_eq_some] at did
      cases did.2
      exact .ends i did.1
    | notify i =>
      simp only [WebsocketServer.step, Option.ite_none_right_eq_some] at did
      cases did.2
      exact .notifies i did.1
    | stop | destroy | main | handler i n => exact absurd stepped.1 id

theorem step_moved {e : Event} (stepped : step s e = some next) : Moved s e next := by
  have same := (List.append_nil (toCome s)).symm
  cases step_does stepped with
  | handles i a => exact moved_of_quiet rfl rfl (push_toCome s a) rfl rfl rfl rfl
  | works locks _ works => exact worker_moved works
  | runs port =>
    exact moved_of_quiet rfl rfl ((run_toCome s port).trans same) (run_inCall s port) rfl rfl rfl
  | wakes =>
    exact moved_of_quiet rfl rfl ((wake_toCome s).trans same) (wake_inCall s) rfl rfl rfl
  | listens i | ends i => exact moved_of_quiet rfl rfl same rfl rfl rfl rfl
  | notifies i =>
    exact moved_of_quiet rfl rfl ((wake_toCome (s.goes i .polling)).trans same)
      (wake_inCall (s.goes i .polling)) rfl rfl rfl

end

theorem foldl_changes (actions : List Action) (roster : List Nat) :
    actions.foldl (fun l a => after l (rosterChange a).toList) roster =
      after roster (actions.filterMap rosterChange) := by
  induction actions generalizing roster with
  | nil => rfl
  | cons a actions ih =>
    rw [List.foldl_cons, ih, ← after_append]
    cases a <;> rfl

section Order
variable {l : List Action}

theorem ordered_before {m : List Action} (ordered : Ordered (l ++ m)) : Ordered l := by
  intro hdl
  obtain ⟨messages, whole⟩ := ordered hdl
  exact ⟨messages, ((List.prefix_append l m).filter _).trans whole⟩

theorem ordered_cases (ordered : Ordered l) (hdl : Nat) :
    own hdl l = [] ∨ ∃ messages : List Message,
      own hdl l = .subscribe hdl :: messages.map (Action.message hdl) ∨
      own hdl l = .subscribe hdl :: (messages.map (Action.message hdl) ++ [.unsubscribe hdl]) := by
  obtain ⟨messages, part⟩ := ordered hdl
  rcases List.prefix_cons_iff.mp part with none | ⟨tail, eq, rest⟩
  · exact .inl none
  · right
    rcases List.prefix_concat_iff.mp rest with all | fewer
    · exact ⟨messages, .inr (by rw [eq, all])⟩
    · obtain ⟨some_messages, _, these⟩ := List.prefix_map_iff.mp fewer
      exact ⟨some_messages, .inl (by rw [eq, these])⟩

theorem mem_own {a : Action} {hdl : Nat} (here : handle a = hdl) : a ∈ own hdl l ↔ a ∈ l := by
  simp [own, here]

theorem own_rosterChange (l : List Action) (hdl : Nat) :
    (l.filterMap rosterChange).filter (fun c => c.member = hdl) =
      (own hdl l).filterMap rosterChange := by
  rw [own, List.filter_filterMap, List.filterMap_filter]
  congr 1
  funext a
  cases a with
  | subscribe h | unsubscribe h =>
    by_cases here : h = hdl <;> simp [rosterChange, Change.member, handle, here]
  | message h msg => simp [rosterChange]

theorem messages_change_nothing (messages : List Message) (hdl : Nat) :
    (messages.map (Action.message hdl)).filterMap rosterChange = [] := by
  simp [rosterChange]

theorem mem_after_iff (ordered : Ordered l) (hdl : Nat) :
    hdl ∈ after [] (l.filterMap rosterChange) ↔
      Action.subscribe hdl ∈ l ∧ Action.unsubscribe hdl ∉ l := by
  have come : Action.subscribe hdl ∈ own hdl l ↔ Action.subscribe hdl ∈ l := mem_own rfl
  have left : Action.unsubscribe hdl ∈ own hdl l ↔ Action.unsubscribe hdl ∈ l := mem_own rfl
  rw [own_changes List.nodup_nil, own_rosterChange, ← come, ← left]
  rcases ordered_cases ordered hdl with none | ⟨messages, here | gone⟩
  · simp [none, after]
  · rw [here, List.filterMap_cons, messages_change_nothing]
    simp [rosterChange, after, Change.apply]
  · rw [gone, List.filterMap_cons, List.filterMap_append, messages_change_nothing]
    simp [rosterChange, after, Change.apply]

theorem between_of_ordered {before later : List Action} {hdl : Nat} {msg : Message}
    (ordered : Ordered (before ++ .message hdl msg :: later)) :
    Action.subscribe hdl ∈ before ∧ Action.unsubscribe hdl ∉ before := by
  have so_far : Ordered (before ++ [.message hdl msg]) := by
    apply ordered_before (m := later)
    simpa using ordered
  have now := ordered_cases so_far hdl
  have last : own hdl (before ++ [.message hdl msg]) = own hdl before ++ [.message hdl msg] := by
    simp [own, handle]
  have come : Action.subscribe hdl ∈ own hdl before ↔ Action.subscribe hdl ∈ before := mem_own rfl
  have left : Action.unsubscribe hdl ∈ own hdl before ↔ Action.unsubscribe hdl ∈ before :=
    mem_own rfl
  rw [last] at now
  rw [← come, ← left]
  rcases ordered_cases (ordered_before so_far) hdl with none | ⟨messages, here | gone⟩
  · rw [none] at now
    simp at now
  · simp [here]
  · rw [gone] at now
    exfalso
    rcases now with empty | ⟨others, open_still | closed⟩
    · simp at empty
    · have there : Action.unsubscribe hdl ∈
          Action.subscribe hdl :: others.map (Action.message hdl) := by
        rw [← open_still]
        simp
      simp at there
    · have ends := congrArg List.getLast? closed
      simp [List.getLast?_cons] at ends

end Order

section
variable {es : List Event} {t : Server}

/-- The actions that have reached the set: those whose callback is made, and the one whose
    callback is under way. -/
theorem applied_run (ran : Runs.run step Server.create es = some t) :
    Runs.told step (fun s e _ => applied s e) Server.create es =
      (processedIn es).map Prod.fst ++ (inCall t).toList := by
  have hands := @Runs.told_queue _ _ _ step _ _ t es (fun s => (inCall s).toList)
    (fun s e _ => applied s e) (fun s e _ => (processed s e).map Prod.fst)
    (fun _ _ _ stepped => (step_moved stepped).hand) ran
  have pairs := @Runs.told_filterMap _ _ _ step _ _ (fun s e _ => processed s e) Server.create
    (fun _ => True) (fun s e _ => (processed s e).map Prod.fst) (fun p => some p.1)
    (fun _ _ _ _ _ => trivial) (fun s e _ _ _ => by simp) trivial es
  rw [pairs, List.filterMap_eq_map'] at hands
  exact hands

theorem queued_run (ran : Runs.run step Server.create es = some t) :
    queuedIn es = (processedIn es).map Prod.fst ++ ((inCall t).toList ++ toCome t) := by
  have queue := @Runs.told_queue _ _ _ step _ _ t es toCome (fun _ e _ => queued e)
    (fun s e _ => applied s e) (fun _ _ _ stepped => (step_moved stepped).queue) ran
  rw [applied_run ran, List.append_assoc] at queue
  exact queue

theorem set_run (ran : Runs.run step Server.create es = some t) :
    t.m_connections.hdls = after [] (((processedIn es).map Prod.fst ++
      (inCall t).toList).filterMap rosterChange) := by
  have set := @Runs.told_foldl _ _ _ step _ (fun s e _ => applied s e) _ t es _
    (fun s : Server => s.m_connections.hdls) _ (fun _ _ _ stepped => (step_moved stepped).set) ran
  rw [set, applied_run ran, foldl_changes]
  rfl

theorem callbacks_run (es : List Event) : callbacksIn es = (processedIn es).filterMap answer :=
  Runs.told_filterMap (fun s => s.derived = true)
    (fun _ _ _ whole stepped => (step_moved stepped).derived.trans whole)
    (fun _ _ _ whole stepped => (step_moved stepped).answered whole) rfl es

/-- The callbacks are those of the actions processed so far, in the order they were queued.
    The set is that of these actions and of the one whose callback is under way. -/
theorem replays (ran : Runs.run step Server.create es = some t) :
    queuedIn es = (processedIn es).map Prod.fst ++ ((inCall t).toList ++ toCome t) ∧
    callbacksIn es = (processedIn es).filterMap answer ∧
    (Ordered (queuedIn es) →
      (∀ before hdl msg locks later,
        processedIn es = before ++ (.message hdl msg, locks) :: later →
        .subscribe hdl ∈ before.map Prod.fst ∧ .unsubscribe hdl ∉ before.map Prod.fst) ∧
      ∀ hdl, hdl ∈ t.m_connections.hdls ↔
        .subscribe hdl ∈ (processedIn es).map Prod.fst ++ (inCall t).toList ∧
        .unsubscribe hdl ∉ (processedIn es).map Prod.fst ++ (inCall t).toList) := by
  have queue := queued_run ran
  refine ⟨queue, callbacks_run es, fun ordered => ⟨?_, ?_⟩⟩
  · intro before hdl msg locks later split
    rw [queue, split, List.map_append, List.append_assoc, List.map_cons, List.cons_append] at ordered
    exact between_of_ordered ordered
  · intro hdl
    rw [set_run ran]
    rw [queue, ← List.append_assoc] at ordered
    exact mem_after_iff (ordered_before ordered) hdl

def oneClient : List Event :=
  [.beside (.run 9000), .beside (.listens 0), .beside (.worker false),
    .handler 0 (.subscribe 3), .beside (.notify 0),
    .handler 0 (.message 3 ⟨.text, [2]⟩), .beside (.notify 0),
    .handler 0 (.message 3 ⟨.binary, [1]⟩), .beside (.notify 0)] ++
    List.replicate 12 (.beside (.worker true))

theorem oneClient_queued : queuedIn oneClient =
    [.subscribe 3, .message 3 ⟨.text, [2]⟩, .message 3 ⟨.binary, [1]⟩] := by decide

theorem oneClient_ordered : Ordered (queuedIn oneClient) := by
  intro hdl
  rw [oneClient_queued]
  by_cases three : hdl = 3
  · subst three
    exact ⟨[⟨.text, [2]⟩, ⟨.binary, [1]⟩], [.unsubscribe 3], rfl⟩
  · have apart : ¬ 3 = hdl := fun eq => three eq.symm
    refine ⟨[], ?_⟩
    simp [own, handle, apart]

theorem replays_one_client : ∃ t, Runs.run step Server.create oneClient = some t ∧
    callbacksIn oneClient = [.connected, .received [1] 3] ∧ 3 ∈ t.m_connections.hdls := by
  obtain ⟨t, ran⟩ : ∃ t, Runs.run step Server.create oneClient = some t := ⟨_, rfl⟩
  obtain ⟨queue, sounds, order⟩ := replays ran
  have processed_all : processedIn oneClient =
      [(.subscribe 3, true), (.message 3 ⟨.text, [2]⟩, true), (.message 3 ⟨.binary, [1]⟩, true)] := by
    decide
  refine ⟨t, ran, ?_, ((order oneClient_ordered).2 3).mpr ?_⟩
  · rw [sounds, processed_all]
    decide
  · rw [processed_all] at queue ⊢
    rw [oneClient_queued] at queue
    have silent : (inCall t).toList = [] := by
      have length := congrArg List.length queue
      simp only [List.length_append, List.length_map, List.length_cons, List.length_nil] at length
      exact List.length_eq_zero_iff.mp (by omega)
    rw [silent]
    simp

end

end EventReplay
