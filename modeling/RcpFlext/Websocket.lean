import RcpFlext.Atoms

/- websocketClient: its two connection slots, and every connection made so far with the
   session state and the handlers websocketpp keeps for it. A connection is known by its
   place in that list. -/
namespace Websocket
open Atoms

abbrev Text := List Char8

def addressA : Text := text ['w', 's', ':', '/', '/', 'a']
def addressB : Text := text ['w', 's', ':', '/', '/', 'b']

/-- `idle` is a connection whose start threw; `closing` has been closed on this side and
    its close handshake is still to end. -/
inductive Session where
  | idle
  | connecting
  | opened
  | closing
  | closed
  deriving DecidableEq

structure Connection where
  uri : Text
  subprotocols : List Text
  state : Session
  openHandler : Bool
  failHandler : Bool
  closeHandler : Bool
  messageHandler : Bool
  deriving DecidableEq

structure Client where
  connections : List Connection
  m_con : Option Nat
  m_sslCon : Option Nat
  deriving DecidableEq

/-- What `get_connection` and then `connect` of websocketpp do: an error code, an
    exception, or a connection under way. -/
inductive Attempt where
  | refused
  | threw
  | started
  deriving DecidableEq

inductive Callback where
  | connected
  | failed (code : BitVec 16)
  | disconnected (code : BitVec 16)
  deriving DecidableEq

def Connection.release (k : Connection) : Connection :=
  { k with
    openHandler := false
    failHandler := false
    messageHandler := false
    state := if k.state = .opened then .closing else k.state }

def Connection.create (uri subprotocol : Text) (attempt : Attempt) : Connection where
  uri := uri
  subprotocols := if subprotocol = [] then [] else [subprotocol]
  state := if attempt = .started then .connecting else .idle
  openHandler := true
  failHandler := true
  closeHandler := true
  messageHandler := true

namespace Client

def fresh : Client := ⟨[], none, none⟩

def dropSsl (w : Client) : Client :=
  match w.m_sslCon with
  | some c => { w with connections := w.connections.modify c Connection.release, m_sslCon := none }
  | none => w

def dropPlain (w : Client) : Client :=
  match w.m_con with
  | some c => { w with connections := w.connections.modify c Connection.release, m_con := none }
  | none => w

def disconnect (w : Client) : Client := w.dropSsl.dropPlain

def ws : Text := text ['w', 's']
def wss : Text := text ['w', 's', 's']

def connect (noSsl : Bool) (w : Client) (uri subprotocol : Text) (attempt : Attempt) : Client :=
  let w := w.disconnect
  if uri = [] then w
  else if ¬ ws <+: uri then w
  else if wss <+: uri then
    if noSsl ∨ attempt = .refused then w
    else { w with
      connections := w.connections ++ [.create uri subprotocol attempt]
      m_sslCon := some w.connections.length }
  else if attempt = .refused then w
  else { w with
    connections := w.connections ++ [.create uri subprotocol attempt]
    m_con := some w.connections.length }

def IsCurrent (w : Client) (c : Nat) : Prop := w.m_con = some c ∨ w.m_sslCon = some c

instance (w : Client) (c : Nat) : Decidable (w.IsCurrent c) :=
  inferInstanceAs (Decidable (_ ∨ _))

def stateOf (w : Client) (c : Nat) : Option Session := (w.connections[c]?).map (·.state)

/-- The codes are asked of the current connection only. -/
def codeOf (w : Client) (c : Nat) (code : BitVec 16) : BitVec 16 :=
  if w.IsCurrent c then code else 0

def settle (w : Client) (c : Nat) (state : Session) : Client :=
  { w with connections := w.connections.modify c fun k => { k with state := state } }

def onOpen (w : Client) (c : Nat) : Option (Client × Option Callback) := do
  let k ← w.connections[c]?
  if k.state = .connecting then
    some (w.settle c .opened, if k.openHandler then some .connected else none)
  else none

def onFail (w : Client) (c : Nat) (code : BitVec 16) : Option (Client × Option Callback) := do
  let k ← w.connections[c]?
  if k.state = .connecting then
    some (w.settle c .closed, if k.failHandler then some (.failed (w.codeOf c code)) else none)
  else none

def onClose (w : Client) (c : Nat) (code : BitVec 16) : Option (Client × Option Callback) := do
  let k ← w.connections[c]?
  if k.state = .opened ∨ k.state = .closing then
    some (w.settle c .closed,
      if k.closeHandler then some (.disconnected (w.codeOf c code)) else none)
  else none

def Asks (noSsl : Bool) (uri : Text) : Prop := ws <+: uri ∧ (wss <+: uri → noSsl = false)

instance (noSsl : Bool) (uri : Text) : Decidable (Asks noSsl uri) :=
  inferInstanceAs (Decidable (_ ∧ _))

/-- At most one slot is taken, and only its connection still reports opening, failing or
    messages; every connection reports its close. -/
structure Slots (w : Client) : Prop where
  single : w.m_con = none ∨ w.m_sslCon = none
  inside : ∀ c, w.IsCurrent c → c < w.connections.length
  released : ∀ c k, w.connections[c]? = some k → ¬ w.IsCurrent c →
    k.openHandler = false ∧ k.failHandler = false ∧ k.messageHandler = false
  closes : ∀ (c : Nat) (k : Connection), w.connections[c]? = some k → k.closeHandler = true

def Open (w : Client) (c : Nat) : Prop := w.IsCurrent c ∧ w.stateOf c = some .opened

instance (w : Client) (c : Nat) : Decidable (w.Open c) := inferInstanceAs (Decidable (_ ∧ _))

theorem release_release (k : Connection) : k.release.release = k.release := by
  by_cases opened : k.state = .opened <;> simp [Connection.release, opened]

theorem disconnect_at (w : Client) (c : Nat) :
    w.disconnect.connections[c]? =
      (w.connections[c]?).map fun k => if w.IsCurrent c then k.release else k := by
  unfold disconnect dropSsl
  cases ssl : w.m_sslCon with
  | none =>
    cases con : w.m_con with
    | none => simp [dropPlain, con, ssl, IsCurrent]
    | some d => simp [dropPlain, con, ssl, IsCurrent, List.getElem?_modify]
  | some e =>
    cases con : w.m_con with
    | none => simp [dropPlain, con, ssl, IsCurrent, List.getElem?_modify]
    | some d =>
      simp only [dropPlain, con, ssl, IsCurrent, List.getElem?_modify, Option.map_eq_map,
        Option.map_map, Option.some.injEq]
      congr 1
      funext k
      by_cases here : d = c <;> by_cases there : e = c <;> simp [here, there, release_release]

theorem disconnect_not_current (w : Client) (c : Nat) : ¬ w.disconnect.IsCurrent c := by
  unfold disconnect dropSsl dropPlain IsCurrent
  split <;> split <;> simp_all

theorem disconnect_length (w : Client) : w.disconnect.connections.length = w.connections.length := by
  unfold disconnect dropSsl dropPlain
  split <;> split <;> simp

theorem disconnect_slots {w : Client} (slots : Slots w) : Slots w.disconnect where
  single := by
    unfold disconnect dropSsl dropPlain
    split <;> split <;> simp_all
  inside c current := absurd current (disconnect_not_current w c)
  released c k found _ := by
    rw [disconnect_at, Option.map_eq_some_iff] at found
    obtain ⟨old, was, eq⟩ := found
    subst eq
    by_cases current : w.IsCurrent c
    · simp [current, Connection.release]
    · simpa [current] using slots.released c old was current
  closes c k found := by
    rw [disconnect_at, Option.map_eq_some_iff] at found
    obtain ⟨old, was, eq⟩ := found
    have closes := slots.closes c old was
    subst eq
    split
    · exact closes
    · exact closes

theorem append_at {w : Client} {new k : Connection} {c : Nat}
    (found : (w.connections ++ [new])[c]? = some k) :
    w.connections[c]? = some k ∨ c = w.connections.length ∧ k = new := by
  by_cases old : c < w.connections.length
  · left
    rwa [List.getElem?_append_left old] at found
  · right
    rw [List.getElem?_append_right (by omega)] at found
    by_cases last : c - w.connections.length = 0
    · rw [last] at found
      exact ⟨by omega, (Option.some.inj found).symm⟩
    · obtain ⟨n, eq⟩ := Nat.exists_eq_succ_of_ne_zero last
      rw [eq] at found
      contradiction

theorem append_slots {w next : Client} {uri subprotocol : Text} {attempt : Attempt}
    (slots : Slots w) (none_current : ∀ c, ¬ w.IsCurrent c)
    (connections : next.connections = w.connections ++ [.create uri subprotocol attempt])
    (taken : next.m_con = none ∧ next.m_sslCon = some w.connections.length ∨
      next.m_con = some w.connections.length ∧ next.m_sslCon = none) : Slots next where
  single := by
    rcases taken with t | t
    · exact .inl t.1
    · exact .inr t.2
  inside c current := by
    rw [connections, List.length_append, List.length_singleton]
    rcases taken with t | t <;> rcases current with h | h <;> simp [t] at h <;> omega
  released c k found superseded := by
    rw [connections] at found
    rcases append_at found with old | ⟨last, _⟩
    · exact slots.released c k old (none_current c)
    · apply absurd _ superseded
      subst last
      rcases taken with t | t
      · exact .inr t.2
      · exact .inl t.1
  closes c k found := by
    rw [connections] at found
    rcases append_at found with old | ⟨_, new⟩
    · exact slots.closes c k old
    · rw [new]
      rfl

theorem connect_cases (noSsl : Bool) (w : Client) (uri subprotocol : Text) (attempt : Attempt) :
    connect noSsl w uri subprotocol attempt = w.disconnect ∨
      (connect noSsl w uri subprotocol attempt).connections =
        w.disconnect.connections ++ [.create uri subprotocol attempt] ∧
      ((connect noSsl w uri subprotocol attempt).m_con = none ∧
        (connect noSsl w uri subprotocol attempt).m_sslCon = some w.disconnect.connections.length ∨
      (connect noSsl w uri subprotocol attempt).m_con = some w.disconnect.connections.length ∧
        (connect noSsl w uri subprotocol attempt).m_sslCon = none) := by
  have free : w.disconnect.m_con = none ∧ w.disconnect.m_sslCon = none := by
    constructor
    · apply Option.eq_none_iff_forall_ne_some.mpr
      intro c con
      exact disconnect_not_current w c (.inl con)
    · apply Option.eq_none_iff_forall_ne_some.mpr
      intro c ssl
      exact disconnect_not_current w c (.inr ssl)
  unfold connect
  simp only
  split
  · exact .inl rfl
  split
  · exact .inl rfl
  split
  · split
    · exact .inl rfl
    · exact .inr ⟨rfl, .inl ⟨free.1, rfl⟩⟩
  · split
    · exact .inl rfl
    · exact .inr ⟨rfl, .inr ⟨rfl, free.2⟩⟩

theorem connect_unasked {noSsl : Bool} {uri : Text} (unasked : ¬ Asks noSsl uri) (w : Client)
    (subprotocol : Text) (attempt : Attempt) :
    connect noSsl w uri subprotocol attempt = w.disconnect := by
  unfold connect
  simp only
  split
  · rfl
  split
  · rfl
  · rename_i web
    have web : ws <+: uri := by simpa using web
    have secure : wss <+: uri ∧ noSsl = true := by
      by_contra other
      exact unasked ⟨web, fun ssl => by simpa [ssl] using other⟩
    rw [if_pos secure.1, if_pos (.inl secure.2)]

theorem connect_slots {w : Client} (slots : Slots w) (noSsl : Bool) (uri subprotocol : Text)
    (attempt : Attempt) : Slots (connect noSsl w uri subprotocol attempt) := by
  have dropped := disconnect_slots slots
  rcases connect_cases noSsl w uri subprotocol attempt with same | ⟨connections, taken⟩
  · rw [same]
    exact dropped
  · exact append_slots dropped (disconnect_not_current w) connections taken

theorem connect_names {noSsl : Bool} {w : Client} {uri subprotocol : Text} {attempt : Attempt}
    {c : Nat} (current : (connect noSsl w uri subprotocol attempt).IsCurrent c) :
    Asks noSsl uri ∧
      ∃ k, (connect noSsl w uri subprotocol attempt).connections[c]? = some k ∧ k.uri = uri := by
  constructor
  · by_contra unasked
    rw [connect_unasked unasked] at current
    exact disconnect_not_current w c current
  · rcases connect_cases noSsl w uri subprotocol attempt with same | ⟨connections, taken⟩
    · rw [same] at current
      exact absurd current (disconnect_not_current w c)
    · have last : c = w.disconnect.connections.length := by
        rcases taken with t | t <;> rcases current with h | h <;> simp [t] at h <;> exact h.symm
      rw [connections, last]
      exact ⟨_, List.getElem?_concat_length, rfl⟩

theorem settle_at (w : Client) (c d : Nat) (state : Session) :
    (w.settle c state).connections[d]? =
      (w.connections[d]?).map fun k => if c = d then { k with state := state } else k := by
  simp [settle, List.getElem?_modify]

theorem settle_length (w : Client) (c : Nat) (state : Session) :
    (w.settle c state).connections.length = w.connections.length := by
  simp [settle]

theorem settle_slots {w : Client} (slots : Slots w) (c : Nat) (state : Session) :
    Slots (w.settle c state) where
  single := slots.single
  inside d current := by
    simpa [settle] using slots.inside d current
  released d k found superseded := by
    rw [settle_at, Option.map_eq_some_iff] at found
    obtain ⟨old, was, eq⟩ := found
    have released := slots.released d old was superseded
    subst eq
    split
    · exact released
    · exact released
  closes d k found := by
    rw [settle_at, Option.map_eq_some_iff] at found
    obtain ⟨old, was, eq⟩ := found
    have closes := slots.closes d old was
    subst eq
    split
    · exact closes
    · exact closes

theorem settle_stateOf (w : Client) (c d : Nat) (state : Session) :
    (w.settle c state).stateOf d =
      if c = d then (w.stateOf d).map fun _ => state else w.stateOf d := by
  unfold stateOf
  rw [settle_at]
  cases w.connections[d]? <;> by_cases here : c = d <;> simp [here]

theorem disconnect_not_open (w : Client) (c : Nat) : ¬ w.disconnect.Open c :=
  fun opened => disconnect_not_current w c opened.1

theorem connect_not_open (noSsl : Bool) (w : Client) (uri subprotocol : Text) (attempt : Attempt)
    (c : Nat) : ¬ (connect noSsl w uri subprotocol attempt).Open c := by
  intro opened
  rcases connect_cases noSsl w uri subprotocol attempt with same | ⟨connections, taken⟩
  · rw [same] at opened
    exact disconnect_not_open w c opened
  · have last : c = w.disconnect.connections.length := by
      rcases taken with t | t <;> rcases opened.1 with h | h <;> simp [t] at h <;> exact h.symm
    have state := opened.2
    rw [stateOf, connections, last] at state
    by_cases started : attempt = .started <;> simp [Connection.create, started] at state

theorem onOpen_cases {w next : Client} {c : Nat} {call : Option Callback}
    (done : w.onOpen c = some (next, call)) :
    w.stateOf c = some .connecting ∧ next = w.settle c .opened ∧
      (call = none ∨ call = some .connected) := by
  obtain ⟨k, found, rest⟩ := Option.bind_eq_some_iff.mp done
  split at rest
  · cases rest
    refine ⟨by simp [stateOf, *], rfl, ?_⟩
    split
    · exact .inr rfl
    · exact .inl rfl
  · contradiction

theorem onFail_cases {w next : Client} {c : Nat} {code : BitVec 16} {call : Option Callback}
    (slots : Slots w) (done : w.onFail c code = some (next, call)) :
    w.stateOf c = some .connecting ∧ next = w.settle c .closed ∧
      (call = none ∨ w.IsCurrent c ∧ call = some (.failed code)) := by
  obtain ⟨k, found, rest⟩ := Option.bind_eq_some_iff.mp done
  split at rest
  · cases rest
    refine ⟨by simp [stateOf, *], rfl, ?_⟩
    by_cases current : w.IsCurrent c
    · split
      · exact .inr ⟨current, by rw [codeOf, if_pos current]⟩
      · exact .inl rfl
    · left
      rw [(slots.released c k found current).2.1]
      rfl
  · contradiction

/-- Every connection reports its close, superseded ones too. -/
theorem onClose_cases {w next : Client} {c : Nat} {code : BitVec 16} {call : Option Callback}
    (slots : Slots w) (done : w.onClose c code = some (next, call)) :
    (w.stateOf c = some .opened ∨ w.stateOf c = some .closing) ∧ next = w.settle c .closed ∧
      call = some (.disconnected (w.codeOf c code)) := by
  obtain ⟨k, found, rest⟩ := Option.bind_eq_some_iff.mp done
  split at rest
  · rename_i state
    cases rest
    refine ⟨?_, rfl, by rw [slots.closes c k found]; rfl⟩
    rcases state with state | state
    · left
      simp [stateOf, found, state]
    · right
      simp [stateOf, found, state]
  · contradiction

theorem current_unique {w : Client} (slots : Slots w) {c d : Nat} (hc : w.IsCurrent c)
    (hd : w.IsCurrent d) : c = d := by
  rcases slots.single with free | free <;> rcases hc with hc | hc <;> rcases hd with hd | hd <;>
    simp_all

theorem fresh_slots : Slots Client.fresh where
  single := .inl rfl
  inside c current := by rcases current with h | h <;> contradiction
  released c k found _ := by contradiction
  closes c k found := by contradiction

theorem open_settle_closed {w : Client} {c d : Nat} :
    (w.settle c .closed).Open d ↔ d ≠ c ∧ w.Open d := by
  unfold Open
  rw [settle_stateOf]
  by_cases here : c = d
  · subst here
    cases w.stateOf c <;> simp
  · have apart : d ≠ c := fun eq => here eq.symm
    simp [here, apart, settle, IsCurrent]

theorem open_settle_opened {w : Client} {c d : Nat} (state : w.stateOf c = some .connecting) :
    (w.settle c .opened).Open d ↔ d = c ∧ w.IsCurrent c ∨ w.Open d := by
  unfold Open
  rw [settle_stateOf]
  by_cases here : c = d
  · subst here
    simp [state, settle, IsCurrent]
  · have apart : d ≠ c := fun eq => here eq.symm
    simp [here, apart, settle, IsCurrent]

end Client

end Websocket
