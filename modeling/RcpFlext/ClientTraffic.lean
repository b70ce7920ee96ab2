import RcpFlext.ClientRuns
import RcpFlext.WebsocketServer

/- The data of a websocketClient: what `send` hands to which connection, and which connection's
   messages reach the listener. Both go by the two slots and the handlers alone. -/
namespace ClientTraffic
open Atoms Websocket Client ClientRuns
open WebsocketServer (Message Opcode)

inductive Received where
  | data (payload : Text)
  | text (payload : Text)
  deriving DecidableEq

structure Handed where
  connection : Nat
  data : Text
  deriving DecidableEq

/-- The ssl slot is asked first. -/
def isOpen (w : Client) : Bool :=
  match w.m_sslCon, w.m_con with
  | some c, _ => decide (w.stateOf c = some .opened)
  | none, some c => decide (w.stateOf c = some .opened)
  | none, none => false

/-- `endpoint::send` with an error code: only an open session takes the data. -/
def sendOn (w : Client) (data : Text) : Option Nat → List Handed
  | some c => if w.stateOf c = some .opened then [⟨c, data⟩] else []
  | none => []

def send (w : Client) (data : Text) : List Handed :=
  sendOn w data w.m_sslCon ++ sendOn w data w.m_con

def onMessage (msg : Message) : Received :=
  if msg.opcode = .binary then .data msg.payload else .text msg.payload

def message (w : Client) (c : Nat) (msg : Message) : Option (Option Received) := do
  let k ← w.connections[c]?
  if k.state = .opened ∨ k.state = .closing then
    some (if k.messageHandler then some (onMessage msg) else none)
  else none

/-- The uri asked for last, unless that was let go or cannot be connected to. -/
def asked (noSsl : Bool) : Option Text → Event → Option Text
  | _, .connect uri _ _ => if Asks noSsl uri then some uri else none
  | _, .disconnect => none
  | before, _ => before

def askedIn (noSsl : Bool) (es : List Event) : Option Text := es.foldl (asked noSsl) none

/-- The current connection was made for that uri, in the slot for its kind, and is heard. -/
structure Made (w : Client) (uri : Option Text) : Prop where
  current : ∀ c, w.IsCurrent c → ∃ k, w.connections[c]? = some k ∧ uri = some k.uri ∧
    k.messageHandler = true
  secure : ∀ c, w.m_sslCon = some c → ∃ k, w.connections[c]? = some k ∧ wss <+: k.uri
  plain : ∀ c, w.m_con = some c → ∃ k, w.connections[c]? = some k ∧ ¬ wss <+: k.uri

section
variable {noSsl : Bool} {w : Client} {uri : Option Text}

theorem fresh_made : Made Client.fresh none where
  current c held := by rcases held with h | h <;> contradiction
  secure c held := by contradiction
  plain c held := by contradiction

theorem disconnect_made (w : Client) (uri : Option Text) : Made w.disconnect uri where
  current c held := absurd held (disconnect_not_current w c)
  secure c held := absurd (.inr held) (disconnect_not_current w c)
  plain c held := absurd (.inl held) (disconnect_not_current w c)

theorem connect_slot (w : Client) (uri subprotocol : Text) (attempt : Attempt) :
    ((w.connect noSsl uri subprotocol attempt).m_sslCon ≠ none → wss <+: uri) ∧
      ((w.connect noSsl uri subprotocol attempt).m_con ≠ none → ¬ wss <+: uri) := by
  have free_con : w.disconnect.m_con = none := by
    apply Option.eq_none_iff_forall_ne_some.mpr
    intro c held
    exact disconnect_not_current w c (.inl held)
  have free_ssl : w.disconnect.m_sslCon = none := by
    apply Option.eq_none_iff_forall_ne_some.mpr
    intro c held
    exact disconnect_not_current w c (.inr held)
  unfold Client.connect
  by_cases secure : wss <+: uri
  · simp only [secure, ↓reduceIte, not_true_eq_false, imp_false, ne_eq, not_not, implies_true,
      true_and]
    split
    · exact free_con
    split
    · exact free_con
    · split
      · exact free_con
      · exact free_con
  · simp only [secure, ↓reduceIte, not_false_eq_true, implies_true, and_true, imp_false, ne_eq,
      not_not]
    split
    · exact free_ssl
    split
    · exact free_ssl
    · split
      · exact free_ssl
      · exact free_ssl

theorem connect_made (noSsl : Bool) (w : Client) (uri subprotocol : Text) (attempt : Attempt) :
    Made (w.connect noSsl uri subprotocol attempt) (if Asks noSsl uri then some uri else none) := by
  obtain ⟨secure, plain⟩ := @connect_slot noSsl w uri subprotocol attempt
  have at_current (c) (held : (w.connect noSsl uri subprotocol attempt).IsCurrent c) :
      Asks noSsl uri ∧ (w.connect noSsl uri subprotocol attempt).connections[c]? =
        some (.create uri subprotocol attempt) := by
    obtain ⟨connections, last⟩ := connect_current held
    refine ⟨(connect_names held).1, ?_⟩
    rw [connections, last]
    exact List.getElem?_concat_length
  constructor
  · intro c held
    obtain ⟨asks, found⟩ := at_current c held
    exact ⟨_, found, if_pos asks, rfl⟩
  · intro c held
    exact ⟨_, (at_current c (.inr held)).2, secure (by simp [held])⟩
  · intro c held
    exact ⟨_, (at_current c (.inl held)).2, plain (by simp [held])⟩

theorem settle_made (made : Made w uri) (c : Nat) (state : Session) :
    Made (w.settle c state) uri := by
  -- only the state of one connection changes
  have still (d : Nat) (k : Connection) (found : w.connections[d]? = some k) :
      ∃ j : Connection, (w.settle c state).connections[d]? = some j ∧ j.uri = k.uri ∧
        j.messageHandler = k.messageHandler := by
    rw [settle_at, found]
    by_cases here : c = d
    · exact ⟨{ k with state := state }, by simp [here], rfl, rfl⟩
    · exact ⟨k, by simp [here], rfl, rfl⟩
  constructor
  · intro d held
    obtain ⟨k, found, same, heard⟩ := made.current d held
    obtain ⟨j, there, named, handler⟩ := still d k found
    exact ⟨j, there, by rw [same, named], handler.trans heard⟩
  · intro d held
    obtain ⟨k, found, secure⟩ := made.secure d held
    obtain ⟨j, there, named, _⟩ := still d k found
    exact ⟨j, there, named ▸ secure⟩
  · intro d held
    obtain ⟨k, found, plain⟩ := made.plain d held
    obtain ⟨j, there, named, _⟩ := still d k found
    exact ⟨j, there, named ▸ plain⟩

theorem step_made {e : Event} {next : Client × Option Callback} (slots : Slots w)
    (made : Made w uri) (stepped : step noSsl w e = some next) :
    Made next.1 (asked noSsl uri e) := by
  cases e with
  | connect new subprotocol attempt =>
    cases stepped
    exact connect_made noSsl w new subprotocol attempt
  | disconnect =>
    cases stepped
    exact disconnect_made w none
  | opened c =>
    rw [(onOpen_cases stepped).2.1]
    exact settle_made made c .opened
  | failed c code =>
    rw [(onFail_cases slots stepped).2.1]
    exact settle_made made c .closed
  | closed c code =>
    rw [(onClose_cases slots stepped).2.1]
    exact settle_made made c .closed

theorem run_made {es : List Event} {t : Client} (slots : Slots w) (made : Made w uri)
    (ran : Runs.run (step noSsl) w es = some t) :
    Slots t ∧ Made t (es.foldl (asked noSsl) uri) := by
  induction es generalizing w uri with
  | nil =>
    cases ran
    exact ⟨slots, made⟩
  | cons e es ih =>
    obtain ⟨next, stepped, rest⟩ := Option.bind_eq_some_iff.mp ran
    exact ih (step_slots noSsl w e next slots stepped) (step_made slots made stepped) rest

theorem open_cases (slots : Slots w) : (∃ c, w.m_sslCon = some c ∧ w.m_con = none) ∨
    (∃ c, w.m_con = some c ∧ w.m_sslCon = none) ∨ w.m_con = none ∧ w.m_sslCon = none := by
  cases ssl : w.m_sslCon with
  | none =>
    cases con : w.m_con with
    | none => exact .inr (.inr ⟨rfl, rfl⟩)
    | some c => exact .inr (.inl ⟨c, rfl, rfl⟩)
  | some c => exact .inl ⟨c, rfl, slots.single.resolve_right (by simp [ssl])⟩

theorem mem_send (slots : Slots w) (data : Text) :
    (send w data).length ≤ 1 ∧ ∀ h, h ∈ send w data ↔ w.Open h.connection ∧ h.data = data := by
  have one (c : Nat) (current : ∀ d, w.IsCurrent d ↔ d = c) (h : Handed) :
      h ∈ sendOn w data (some c) ↔ w.Open h.connection ∧ h.data = data := by
    obtain ⟨d, bytes⟩ := h
    unfold Client.Open
    rw [current]
    by_cases opened : w.stateOf c = some .opened
    · simp only [sendOn, opened, ↓reduceIte, List.mem_singleton, Handed.mk.injEq]
      constructor
      · rintro ⟨here, same⟩
        exact ⟨⟨here, here ▸ opened⟩, same⟩
      · rintro ⟨⟨here, _⟩, same⟩
        exact ⟨here, same⟩
    · simp only [sendOn, opened, ↓reduceIte, List.not_mem_nil, false_iff]
      rintro ⟨⟨here, state⟩, _⟩
      exact opened (here ▸ state)
  have short (c : Option Nat) : (sendOn w data c).length ≤ 1 := by
    cases c with
    | none => exact Nat.zero_le 1
    | some c => by_cases opened : w.stateOf c = some .opened <;> simp [sendOn, opened]
  rcases open_cases slots with ⟨c, ssl, con⟩ | ⟨c, con, ssl⟩ | ⟨con, ssl⟩
  · have whole : send w data = sendOn w data (some c) := by
      rw [send, ssl, con]
      exact List.append_nil _
    rw [whole]
    exact ⟨short _, one c (fun d => by simp [IsCurrent, ssl, con, eq_comm])⟩
  · have whole : send w data = sendOn w data (some c) := by
      rw [send, ssl, con]
      rfl
    rw [whole]
    exact ⟨short _, one c (fun d => by simp [IsCurrent, ssl, con, eq_comm])⟩
  · simp [send, sendOn, ssl, con, Client.Open, IsCurrent]

theorem isOpen_iff (slots : Slots w) : isOpen w = true ↔ ∃ c, w.Open c := by
  rcases open_cases slots with ⟨c, ssl, con⟩ | ⟨c, con, ssl⟩ | ⟨con, ssl⟩ <;>
    simp [isOpen, ssl, con, Client.Open, IsCurrent]

theorem message_cases (slots : Slots w) (made : Made w uri) {c : Nat} {msg : Message}
    {got : Option Received} (came : message w c msg = some got) :
    got = if w.IsCurrent c then some (onMessage msg) else none := by
  obtain ⟨k, found, rest⟩ := Option.bind_eq_some_iff.mp came
  split at rest
  · cases rest
    by_cases current : w.IsCurrent c
    · obtain ⟨j, there, _, heard⟩ := made.current c current
      rw [found] at there
      cases there
      simp [heard, current]
    · simp [(slots.released c k found current).2.2, current]
  · contradiction

end

/-- However opens, closes and network events of all connections interleave, data goes to and
    comes from one connection only: the current one, made for the uri asked for last and secure
    where that says so. What a superseded connection still brings in reaches nobody. -/
theorem no_crosstalk (noSsl : Bool) (es : List Event) (w : Client)
    (ran : Runs.run (step noSsl) Client.fresh es = some w) :
    (∀ c, w.IsCurrent c → ∃ k, w.connections[c]? = some k ∧ askedIn noSsl es = some k.uri ∧
      (w.m_sslCon = some c ↔ wss <+: k.uri)) ∧
    (∀ data, (send w data).length ≤ 1 ∧
      ∀ h, h ∈ send w data ↔ w.Open h.connection ∧ h.data = data) ∧
    (∀ data, send w data ≠ [] ↔ isOpen w = true) ∧
    ∀ c msg got, message w c msg = some got →
      got = if w.IsCurrent c then some (onMessage msg) else none := by
  obtain ⟨slots, made⟩ := run_made fresh_slots fresh_made ran
  refine ⟨fun c current => ?_, mem_send slots, fun data => ?_, fun _ _ _ => message_cases slots made⟩
  · obtain ⟨k, found, same, _⟩ := made.current c current
    refine ⟨k, found, same, ?_⟩
    constructor
    · intro ssl
      obtain ⟨j, there, secure⟩ := made.secure c ssl
      rw [found] at there
      cases there
      exact secure
    · intro secure
      rcases current with con | ssl
      · obtain ⟨j, there, plain⟩ := made.plain c con
        rw [found] at there
        cases there
        exact absurd secure plain
      · exact ssl
  · rw [isOpen_iff slots]
    constructor
    · intro some_handed
      obtain ⟨h, mem⟩ := List.exists_mem_of_ne_nil _ some_handed
      exact ⟨h.connection, (((mem_send slots data).2 h).mp mem).1⟩
    · rintro ⟨c, opened⟩ none
      have mem := ((mem_send slots data).2 ⟨c, data⟩).mpr ⟨opened, rfl⟩
      rw [none] at mem
      contradiction

def movesToSecure : List Event :=
  [.connect addressA [] .started, .opened 0,
    .connect (text ['w', 's', 's', ':', '/', '/', 'b']) [] .started, .opened 1]

theorem moved_to_secure : ∃ w, Runs.run (step false) Client.fresh movesToSecure = some w ∧
    (∀ h, h ∈ send w [7] ↔ w.Open h.connection ∧ h.data = [7]) ∧
    (∀ got, message w 0 ⟨.binary, [8]⟩ = some got → got = none) := by
  obtain ⟨w, ran⟩ : ∃ w, Runs.run (step false) Client.fresh movesToSecure = some w := ⟨_, rfl⟩
  obtain ⟨_, sends, _, comes⟩ := no_crosstalk false movesToSecure w ran
  refine ⟨w, ran, (sends [7]).2, fun got came => ?_⟩
  rw [comes 0 ⟨.binary, [8]⟩ got came, if_neg]
  cases ran
  decide

end ClientTraffic
