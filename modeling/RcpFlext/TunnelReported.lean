import RcpFlext.RabbitHole

/- ParameterServer's rabbithole attributes: the uri it reports and the connection its
   transporter holds. A uri that is no web address replaces the one and leaves the other. -/
namespace TunnelReported
open Atoms Websocket RabbitHole Transporter Client

/-- `m_server` tells whether there is a server of rcp-c. -/
structure ParameterServer where
  m_server : Bool
  m_rabbitholeTransporter : Option Transporter
  deriving DecidableEq

inductive Event where
  | setRabbithole (uri : CString) (attempt : Attempt)
  | setRabbitholeInterval (i : Int)
  | tunnel (e : RabbitHole.Event)
  deriving DecidableEq

namespace ParameterServer

def setRabbithole (noSsl : Bool) (s : ParameterServer) (uri : CString) (attempt : Attempt) :
    ParameterServer × List Effect :=
  let s := if s.m_server ∧ s.m_rabbitholeTransporter = none then
    { s with m_rabbitholeTransporter := some .create } else s
  match s.m_rabbitholeTransporter with
  | some t =>
    let (t, effects) := t.connect noSsl uri.bytes [] attempt
    ({ s with m_rabbitholeTransporter := some t }, effects)
  | none => (s, [])

def getRabbithole (s : ParameterServer) : Option Text := s.m_rabbitholeTransporter.map (·.m_uri)

def setRabbitholeInterval (s : ParameterServer) (i : Int) : ParameterServer :=
  { s with m_rabbitholeTransporter := s.m_rabbitholeTransporter.map (·.setInterval i) }

end ParameterServer

/-- What happens to the transporter without a call of ParameterServer. -/
def ByItself : RabbitHole.Event → Prop
  | .timer _ => True
  | .opened _ => True
  | .failed _ _ => True
  | .closed _ _ => True
  | _ => False

instance : (e : RabbitHole.Event) → Decidable (ByItself e)
  | .timer _ | .opened _ | .failed _ _ | .closed _ _ => isTrue trivial
  | .connect _ _ _ | .setInterval _ | .unbind => isFalse id

def step (noSsl : Bool) : Runs.Machine ParameterServer Event (List Effect) := fun s e =>
  match e with
  | .setRabbithole uri attempt => some (s.setRabbithole noSsl uri attempt)
  | .setRabbitholeInterval i => some (s.setRabbitholeInterval i, [])
  | .tunnel e =>
    if ByItself e then
      s.m_rabbitholeTransporter.bind fun t => (RabbitHole.step noSsl t e).map fun (t, effects) =>
        ({ s with m_rabbitholeTransporter := some t }, effects)
    else none

/-- The connection held was created for the uri that is reported, and only one is held. -/
def Reported (s : ParameterServer) : Prop :=
  ∀ t, s.m_rabbitholeTransporter = some t → (t.websocket.m_con = none ∨ t.websocket.m_sslCon = none) ∧
    ∀ c, t.websocket.IsCurrent c → ∃ k, t.websocket.connections[c]? = some k ∧
      s.getRabbithole = some k.uri

def Careful (s : ParameterServer) : Event → Prop
  | .setRabbithole uri _ => ws <+: rewritten uri.bytes ∨
      ∀ t, s.m_rabbitholeTransporter = some t → ∀ c, ¬ t.websocket.IsCurrent c
  | _ => True

def MadeFor (w : Client) (uri : Text) : Prop :=
  ∀ c, w.IsCurrent c → ∃ k, w.connections[c]? = some k ∧ k.uri = uri

structure Kept (t : Transporter) : Prop where
  slots : Slots t.websocket
  web : ∀ c, t.websocket.IsCurrent c → ∃ k, t.websocket.connections[c]? = some k ∧ ws <+: k.uri

section
variable {noSsl : Bool} {t : Transporter}

theorem create_kept : Kept .create where
  slots := fresh_slots
  web c current := by rcases current with h | h <;> contradiction

theorem disconnect_madeFor (w : Client) (uri : Text) : MadeFor w.disconnect uri :=
  fun c current => absurd current (disconnect_not_current w c)

theorem connect_madeFor (w : Client) (uri subprotocol : Text) (attempt : Attempt) :
    MadeFor (w.connect noSsl uri subprotocol attempt) uri :=
  fun _ current => (connect_names current).2

theorem settle_madeFor {w : Client} {uri : Text} (madeFor : MadeFor w uri) (c : Nat)
    (state : Session) : MadeFor (w.settle c state) uri := by
  intro d current
  obtain ⟨k, found, made⟩ := madeFor d current
  rw [settle_at, found]
  refine ⟨_, rfl, ?_⟩
  split <;> exact made

theorem disconnect_kept (kept : Kept t) {u : Transporter}
    (same : u.websocket = t.websocket.disconnect) : Kept u where
  slots := same ▸ disconnect_slots kept.slots
  web c current := absurd (same ▸ current) (disconnect_not_current t.websocket c)

theorem connect_kept (kept : Kept t) {u : Transporter} {uri subprotocol : Text} {attempt : Attempt}
    (same : u.websocket = t.websocket.connect noSsl uri subprotocol attempt) : Kept u where
  slots := same ▸ connect_slots kept.slots noSsl uri subprotocol attempt
  web c current := by
    rw [same] at current ⊢
    obtain ⟨asked, k, found, made⟩ := connect_names current
    exact ⟨k, found, made ▸ asked.1⟩

theorem settle_kept (kept : Kept t) {u : Transporter} {c : Nat} {state : Session}
    (same : u.websocket = t.websocket.settle c state) : Kept u where
  slots := same ▸ settle_slots kept.slots c state
  web d current := by
    rw [same] at current ⊢
    obtain ⟨k, found, web⟩ := kept.web d current
    rw [settle_at, found]
    refine ⟨_, rfl, ?_⟩
    split <;> exact web

theorem callback_uri (t : Transporter) (call : Option Callback) :
    (t.callback call).1.m_uri = t.m_uri := by
  match call with
  | none => rfl
  | some .connected => rfl
  | some (.failed code) =>
    simp only [callback, failed, tryConnect]
    split <;> split <;> (try split) <;> rfl
  | some (.disconnected code) =>
    simp only [callback, disconnected, tryConnect]
    split <;> (try split) <;> rfl

theorem settled_keeps (kept : Kept t) {u : Transporter} {c : Nat} {state : Session}
    (settled : u.websocket = t.websocket.settle c state) (uri : u.m_uri = t.m_uri) :
    Kept u ∧ u.m_uri = t.m_uri ∧
      (MadeFor t.websocket t.m_uri → MadeFor u.websocket t.m_uri) := by
  refine ⟨settle_kept kept settled, uri, fun madeFor => ?_⟩
  rw [settled]
  exact settle_madeFor madeFor c state

theorem byItself_keeps {e : RabbitHole.Event} {next : Transporter × List Effect}
    (byItself : ByItself e) (kept : Kept t) (stepped : RabbitHole.step noSsl t e = some next) :
    Kept next.1 ∧ next.1.m_uri = t.m_uri ∧
      (MadeFor t.websocket t.m_uri → MadeFor next.1.websocket t.m_uri) := by
  cases e with
  | timer attempt =>
    obtain ⟨_, _, eq⟩ := Option.map_eq_some_iff.mp stepped
    subst eq
    unfold tryConnectTimerTimeout
    split
    · exact ⟨⟨kept.slots, kept.web⟩, rfl, id⟩
    · exact ⟨connect_kept kept rfl, rfl, fun _ => connect_madeFor t.websocket t.m_uri [] attempt⟩
  | opened c =>
    obtain ⟨_, settled, _, uri⟩ := step_opened_cases stepped
    exact settled_keeps kept settled uri
  | failed c code =>
    have settled := (step_failed_cases kept.slots stepped).1
    obtain ⟨done, _, eq⟩ := Option.map_eq_some_iff.mp stepped
    subst eq
    exact settled_keeps kept settled (callback_uri _ done.2)
  | closed c code =>
    have settled := step_closed_websocket kept.slots stepped
    obtain ⟨done, _, eq⟩ := Option.map_eq_some_iff.mp stepped
    subst eq
    exact settled_keeps kept settled (callback_uri _ done.2)
  | connect | setInterval | unbind => exact absurd byItself id

theorem setInterval_keeps (kept : Kept t) (i : Int) :
    Kept (t.setInterval i) ∧ (t.setInterval i).m_uri = t.m_uri ∧
      (MadeFor t.websocket t.m_uri → MadeFor (t.setInterval i).websocket t.m_uri) := by
  by_cases off : i ≤ 0
  · rw [setInterval_off t off]
    exact ⟨disconnect_kept kept rfl, rfl, fun _ => disconnect_madeFor t.websocket t.m_uri⟩
  · rw [setInterval_on t (by omega)]
    simp only [tryConnect]
    split
    · split <;> exact ⟨⟨kept.slots, kept.web⟩, rfl, id⟩
    · exact ⟨⟨kept.slots, kept.web⟩, rfl, id⟩

theorem connect_keeps (kept : Kept t) (uri subprotocol : Text) (attempt : Attempt) :
    Kept (t.connect noSsl uri subprotocol attempt).1 := by
  unfold Transporter.connect
  simp only
  split
  · exact connect_kept kept rfl
  · exact ⟨kept.slots, kept.web⟩

/-- A connection held stays for its own uri, whatever the new one is. -/
theorem connect_madeFor_iff (kept : Kept t) (uri subprotocol : Text) (attempt : Attempt) :
    MadeFor (t.connect noSsl uri subprotocol attempt).1.websocket (rewritten uri) ↔
      ws <+: rewritten uri ∨ ∀ c, ¬ t.websocket.IsCurrent c := by
  by_cases web : ws <+: rewritten uri
  · simp only [Transporter.connect, web, ↓reduceIte, true_or, iff_true]
    exact connect_madeFor t.websocket (rewritten uri) subprotocol attempt
  · simp only [Transporter.connect, web, ↓reduceIte, false_or]
    constructor
    · intro madeFor c current
      obtain ⟨k, found, made⟩ := madeFor c current
      obtain ⟨l, also, other⟩ := kept.web c current
      rw [found] at also
      cases also
      exact web (made ▸ other)
    · intro free c current
      exact absurd current (free c)

end

section
variable {noSsl : Bool} {s : ParameterServer} {next : ParameterServer × List Effect}

theorem reported_some {t : Transporter} (held : s.m_rabbitholeTransporter = some t)
    (slots : Slots t.websocket) : Reported s ↔ MadeFor t.websocket t.m_uri := by
  constructor
  · intro reported c current
    obtain ⟨k, found, uri⟩ := (reported t held).2 c current
    rw [ParameterServer.getRabbithole, held] at uri
    exact ⟨k, found, (Option.some.inj uri).symm⟩
  · intro madeFor u other
    rw [held] at other
    cases other
    refine ⟨slots.single, ?_⟩
    intro c current
    obtain ⟨k, found, made⟩ := madeFor c current
    rw [ParameterServer.getRabbithole, held]
    exact ⟨k, found, congrArg some made.symm⟩

theorem reported_none (absent : s.m_rabbitholeTransporter = none) : Reported s := by
  intro t held
  rw [absent] at held
  contradiction

theorem setRabbithole_cases (s : ParameterServer) (uri : CString) (attempt : Attempt) :
    (s.m_rabbitholeTransporter = none ∧ s.setRabbithole noSsl uri attempt = (s, [])) ∨
      ∃ t, (s.m_rabbitholeTransporter = some t ∨
          s.m_rabbitholeTransporter = none ∧ t = .create) ∧
        (s.setRabbithole noSsl uri attempt).1 = { s with
          m_rabbitholeTransporter := some (t.connect noSsl uri.bytes [] attempt).1 } := by
  cases held : s.m_rabbitholeTransporter with
  | some t =>
    right
    exact ⟨t, .inl rfl, by simp [ParameterServer.setRabbithole, held]⟩
  | none =>
    by_cases server : s.m_server = true
    · right
      exact ⟨.create, .inr ⟨rfl, rfl⟩, by simp [ParameterServer.setRabbithole, held, server]⟩
    · left
      exact ⟨rfl, by simp [ParameterServer.setRabbithole, held, server]⟩

theorem connect_uri (t : Transporter) (uri subprotocol : Text) (attempt : Attempt) :
    (t.connect noSsl uri subprotocol attempt).1.m_uri = rewritten uri := by
  unfold Transporter.connect
  simp only
  split <;> rfl

theorem step_tunnel {s : ParameterServer} {e : RabbitHole.Event}
    {next : ParameterServer × List Effect} (stepped : step noSsl s (.tunnel e) = some next) :
    ∃ t after, ByItself e ∧ s.m_rabbitholeTransporter = some t ∧
      RabbitHole.step noSsl t e = some after ∧
      next = ({ s with m_rabbitholeTransporter := some after.1 }, after.2) := by
  simp only [step, Option.ite_none_right_eq_some] at stepped
  obtain ⟨byItself, stepped⟩ := stepped
  obtain ⟨t, held, rest⟩ := Option.bind_eq_some_iff.mp stepped
  obtain ⟨after, did, eq⟩ := Option.map_eq_some_iff.mp rest
  exact ⟨t, after, byItself, held, did, eq.symm⟩

theorem step_kept (s : ParameterServer) (e : Event) (next : ParameterServer × List Effect)
    (kept : ∀ t, s.m_rabbitholeTransporter = some t → Kept t) (stepped : step noSsl s e = some next) :
    ∀ t, next.1.m_rabbitholeTransporter = some t → Kept t := by
  cases e with
  | setRabbithole uri attempt =>
    cases stepped
    rcases setRabbithole_cases s uri attempt with ⟨_, same⟩ | ⟨t, from_t, eq⟩
    · rw [same]
      exact kept
    · have kept_t : Kept t := by
        rcases from_t with held | ⟨_, new⟩
        · exact kept t held
        · exact new ▸ create_kept
      rw [eq]
      intro u held
      cases held
      exact connect_keeps kept_t uri.bytes [] attempt
  | setRabbitholeInterval i =>
    cases stepped
    intro u held
    obtain ⟨t, old, eq⟩ := Option.map_eq_some_iff.mp held
    subst eq
    exact (setInterval_keeps (kept t old) i).1
  | tunnel e =>
    obtain ⟨t, after, byItself, held, did, eq⟩ := step_tunnel stepped
    subst eq
    intro u now
    cases now
    exact (byItself_keeps byItself (kept t held) did).1

theorem step_reported_iff (s : ParameterServer) (e : Event) (next : ParameterServer × List Effect)
    (kept : ∀ t, s.m_rabbitholeTransporter = some t → Kept t) (reported : Reported s)
    (stepped : step noSsl s e = some next) : Reported next.1 ↔ Careful s e := by
  have kept_next := step_kept s e next kept stepped
  cases e with
  | setRabbithole uri attempt =>
    cases stepped
    rcases setRabbithole_cases s uri attempt with ⟨absent, same⟩ | ⟨t, from_t, eq⟩
    · rw [same, Careful]
      exact iff_of_true reported (.inr fun t held => absurd (absent.symm.trans held) (by simp))
    · rw [eq] at kept_next ⊢
      rw [reported_some rfl (kept_next _ rfl).slots, connect_uri, Careful]
      rcases from_t with held | ⟨absent, new⟩
      · rw [connect_madeFor_iff (kept t held)]
        simp [held]
      · subst new
        rw [connect_madeFor_iff create_kept]
        simp [absent, Transporter.create, Client.fresh, IsCurrent]
  | setRabbitholeInterval i =>
    cases stepped
    simp only [Careful, iff_true]
    cases held : s.m_rabbitholeTransporter with
    | none => exact reported_none (by simp [ParameterServer.setRabbitholeInterval, held])
    | some t =>
      obtain ⟨kept_t, uri, keeps⟩ := setInterval_keeps (kept t held) i
      have now : (s.setRabbitholeInterval i).m_rabbitholeTransporter = some (t.setInterval i) := by
        simp [ParameterServer.setRabbitholeInterval, held]
      rw [reported_some now kept_t.slots, uri]
      exact keeps ((reported_some held (kept t held).slots).mp reported)
  | tunnel e =>
    obtain ⟨t, after, byItself, held, did, eq⟩ := step_tunnel stepped
    subst eq
    obtain ⟨kept_t, uri, keeps⟩ := byItself_keeps byItself (kept t held) did
    simp only [Careful, iff_true]
    rw [reported_some rfl kept_t.slots, uri]
    exact keeps ((reported_some held (kept t held).slots).mp reported)

end

/-- In every run the tunnel held is the one reported exactly when no uri but a web address is
    set while one is held. -/
theorem reported_run_iff (noSsl m_server : Bool) (events : List Event) :
    Runs.Visits (step noSsl) Reported ⟨m_server, none⟩ events ↔
      Runs.Steps (step noSsl) Careful ⟨m_server, none⟩ events :=
  Runs.visits_iff_steps (fun s : ParameterServer => ∀ t, s.m_rabbitholeTransporter = some t → Kept t)
    step_kept step_reported_iff (fun t held => absurd held (by simp)) (reported_none rfl) events

/-- The tunnel to `ws://a` is open and stays so, while `b` is reported. -/
theorem other_uri_reported :
    ∃ s t, Runs.run (step false) ⟨true, none⟩
        [.setRabbithole (.ofBytes addressA) .started, .tunnel (.opened 0),
          .setRabbithole (.ofBytes (text ['b'])) .started] = some s ∧
      s.m_rabbitholeTransporter = some t ∧ t.websocket.Open 0 ∧
      (t.websocket.connections[0]?).map (·.uri) = some addressA ∧
      s.getRabbithole = some (text ['b']) ∧ ¬ Reported s := by
  refine ⟨_, _, rfl, rfl, by decide, by decide, by decide, ?_⟩
  intro reported
  obtain ⟨k, found, uri⟩ := (reported _ rfl).2 0 (.inl rfl)
  cases found
  exact absurd uri (by decide)

end TunnelReported
