import RcpFlext.ClientTraffic
import RcpFlext.TunnelReported

/- What goes through the tunnel. It is one client of rcp.server among others, so whoever a
   message is for, it is sent to the connection held; and a tunnel set with a secure address
   never falls back to a plain one, also when the timer makes the next attempt. -/
namespace TunnelTraffic
open Atoms Websocket Client RabbitHole Transporter ClientTraffic
open WebsocketServer (Message)

/-- The client that is meant is not known here. -/
def sendToOne (t : Transporter) (data : Text) (_id : Option Nat) : List Handed :=
  send t.websocket data

def sendToAll (t : Transporter) (data : Text) (_excludeId : Option Nat) : List Handed :=
  send t.websocket data

def received (callback : Bool) : Received → Option Text
  | .data payload => if callback ∧ 0 < payload.length then some payload else none
  | .text _ => none

def address : Text → Event → Text
  | _, .connect uri _ _ => uri
  | before, _ => before

def addressed (es : List Event) : Text := es.foldl address []

def Secure (uri : Text) : Prop := https <+: uri ∨ wss <+: uri

/-- The plain slot is taken only while the address is not a secure one. -/
structure Kept (t : Transporter) (uri : Text) : Prop where
  slots : Slots t.websocket
  named : t.m_uri = rewritten uri
  plain : t.websocket.m_con ≠ none → ¬ wss <+: t.m_uri

section
variable {noSsl : Bool} {t : Transporter} {uri : Text}

theorem wss_ws {uri : Text} (secure : wss <+: uri) : ws <+: uri := by
  have part : ws <+: wss := by decide
  exact part.trans secure

theorem rewritten_secure {uri : Text} (secure : Secure uri) : wss <+: rewritten uri := by
  unfold rewritten
  by_cases web : https <+: uri
  · rw [if_pos web]
    exact List.prefix_append wss _
  have direct : wss <+: uri := secure.resolve_left web
  have other : ¬ http <+: uri := by
    intro web
    have part : wss <+: http := List.prefix_of_prefix_length_le direct web (by decide)
    exact absurd part (by decide)
  rw [if_neg web, if_neg other]
  exact direct

theorem create_kept : Kept .create [] where
  slots := fresh_slots
  named := by decide
  plain held := absurd rfl held

theorem disconnect_no_plain (w : Client) : w.disconnect.m_con = none := by
  apply Option.eq_none_iff_forall_ne_some.mpr
  intro c held
  exact disconnect_not_current w c (.inl held)

theorem step_slots {e : Event} {next : Transporter × List Effect} (slots : Slots t.websocket)
    (stepped : step noSsl t e = some next) : Slots next.1.websocket := by
  obtain ⟨es, _, ran⟩ := step_runs stepped
  exact Runs.run_keeps (fun w e next => ClientRuns.step_slots noSsl w e next) slots ran

theorem kept_of_same {u : Transporter} (slots : Slots u.websocket) (kept : Kept t uri)
    (same : u.m_uri = t.m_uri) (plain : u.websocket.m_con ≠ none → t.websocket.m_con ≠ none) :
    Kept u uri where
  slots := slots
  named := same.trans kept.named
  plain held := by
    rw [same]
    exact kept.plain (plain held)

theorem step_kept {e : Event} {next : Transporter × List Effect} (kept : Kept t uri)
    (stepped : step noSsl t e = some next) : Kept next.1 (address uri e) := by
  have slots := step_slots kept.slots stepped
  cases e with
  | connect new subprotocol attempt =>
    cases stepped
    refine ⟨slots, TunnelReported.connect_uri t new subprotocol attempt, ?_⟩
    rw [TunnelReported.connect_uri]
    unfold Transporter.connect
    by_cases web : ws <+: rewritten new
    · simp only [web, ↓reduceIte]
      exact (connect_slot t.websocket (rewritten new) subprotocol attempt).2
    · intro _ secure
      exact web (wss_ws secure)
  | setInterval i =>
    cases stepped
    by_cases off : i ≤ 0
    · refine kept_of_same slots kept ?_ ?_
      · rw [setInterval_off t off]
      · rw [setInterval_off t off, disconnect_no_plain]
        exact fun held => absurd rfl held
    · refine kept_of_same slots kept ?_ ?_
      · rw [setInterval_on t (by omega)]
        simp only [tryConnect]
        split
        · split <;> rfl
        · rfl
      · rw [setInterval_on t (by omega)]
        split
        · rw [tryConnect_websocket]
          exact id
        · exact id
  | unbind =>
    cases stepped
    refine kept_of_same slots kept rfl ?_
    rw [unbind, disconnect_no_plain]
    exact fun held => absurd rfl held
  | timer attempt =>
    obtain ⟨_, _, eq⟩ := Option.map_eq_some_iff.mp stepped
    subst eq
    by_cases empty : t.m_uri = []
    · simp only [tryConnectTimerTimeout, empty, ↓reduceIte] at slots ⊢
      exact kept_of_same slots kept empty.symm id
    · simp only [tryConnectTimerTimeout, empty, ↓reduceIte] at slots ⊢
      exact ⟨slots, kept.named, (connect_slot t.websocket t.m_uri [] attempt).2⟩
  | opened c =>
    obtain ⟨_, settled, _, same⟩ := step_opened_cases stepped
    apply kept_of_same slots kept same
    rw [settled]
    exact id
  | failed c code =>
    have settled := (step_failed_cases kept.slots stepped).1
    obtain ⟨done, _, eq⟩ := Option.map_eq_some_iff.mp stepped
    apply kept_of_same slots kept
    · rw [← eq]
      exact TunnelReported.callback_uri _ done.2
    · rw [settled]
      exact id
  | closed c code =>
    have settled := step_closed_websocket kept.slots stepped
    obtain ⟨done, _, eq⟩ := Option.map_eq_some_iff.mp stepped
    apply kept_of_same slots kept
    · rw [← eq]
      exact TunnelReported.callback_uri _ done.2
    · rw [settled]
      exact id

theorem run_kept {es : List Event} {u : Transporter} (kept : Kept t uri)
    (ran : Runs.run (step noSsl) t es = some u) : Kept u (es.foldl address uri) := by
  induction es generalizing t uri with
  | nil =>
    cases ran
    exact kept
  | cons e es ih =>
    obtain ⟨next, stepped, rest⟩ := Option.bind_eq_some_iff.mp ran
    exact ih (step_kept kept stepped) rest

theorem timer_tries {attempt : Attempt} {next : Transporter × List Effect}
    (stepped : step noSsl t (.timer attempt) = some next) {tried : Text}
    (tries : .websocketConnect tried ∈ next.2) : tried = t.m_uri := by
  obtain ⟨_, _, eq⟩ := Option.map_eq_some_iff.mp stepped
  subst eq
  unfold tryConnectTimerTimeout at tries
  split at tries
  · contradiction
  · have only := List.mem_singleton.mp tries
    injection only

theorem received_payload {callback : Bool} {msg : Message} {payload : Text}
    (got : received callback (onMessage msg) = some payload) :
    msg.opcode = .binary ∧ payload = msg.payload := by
  unfold onMessage at got
  split at got
  · rename_i binary
    simp only [received, Option.ite_none_right_eq_some] at got
    exact ⟨binary, (Option.some.inj got.2).symm⟩
  · contradiction

end

/-- While the rabbithole address is a secure one, all that rcp.server sends into the tunnel and
    all that comes out of it belongs to a secure connection, in every run; neither a retry by
    the timer nor a superseded connection gets around that. -/
theorem tunnel_stays_secure (noSsl : Bool) (es : List Event) (t : Transporter)
    (ran : Runs.run (step noSsl) .create es = some t) (secure : Secure (addressed es)) :
    t.websocket.m_con = none ∧
    (∀ data id h, h ∈ sendToOne t data id ∨ h ∈ sendToAll t data id →
      t.websocket.m_sslCon = some h.connection ∧
        ∃ k, t.websocket.connections[h.connection]? = some k ∧ wss <+: k.uri) ∧
    (∀ c msg got, message t.websocket c msg = some (some got) → t.websocket.m_sslCon = some c ∧
      ∀ callback payload, received callback got = some payload →
        msg.opcode = .binary ∧ payload = msg.payload) ∧
    ∀ attempt next tried, step noSsl t (.timer attempt) = some next →
      .websocketConnect tried ∈ next.2 → wss <+: tried := by
  have kept := run_kept create_kept ran
  obtain ⟨fs, went⟩ := run_runs ran
  obtain ⟨slots, made⟩ := run_made fresh_slots fresh_made went
  have address : wss <+: t.m_uri := by
    rw [kept.named]
    exact rewritten_secure secure
  have no_plain : t.websocket.m_con = none := by
    by_contra held
    exact kept.plain held address
  have in_ssl (c : Nat) (current : t.websocket.IsCurrent c) : t.websocket.m_sslCon = some c := by
    rcases current with con | ssl
    · rw [no_plain] at con
      contradiction
    · exact ssl
  refine ⟨no_plain, ?_, ?_, ?_⟩
  · intro data id h sent
    have handed : h ∈ send t.websocket data := sent.elim (fun one => one) (fun all => all)
    have opened := ((mem_send slots data).2 h).mp handed
    have ssl := in_ssl h.connection opened.1.1
    exact ⟨ssl, made.secure h.connection ssl⟩
  · intro c msg got came
    have heard := message_cases slots made came
    by_cases current : t.websocket.IsCurrent c
    · rw [if_pos current] at heard
      cases heard
      exact ⟨in_ssl c current, fun callback payload => received_payload⟩
    · rw [if_neg current] at heard
      contradiction
  · intro attempt next tried stepped tries
    rw [timer_tries stepped tries]
    exact address

def madeSecure : List Event :=
  [.connect (text ['h', 't', 't', 'p', ':', '/', '/', 'a']) [] .started, .opened 0,
    .connect (text ['h', 't', 't', 'p', 's', ':', '/', '/', 'b']) [] .started, .failed 1 423]

theorem retry_stays_secure : ∃ t, Runs.run (step false) .create madeSecure = some t ∧
    t.m_tryConnectTimer = some 2 ∧ t.websocket.m_con = none ∧
    ∀ attempt next tried, step false t (.timer attempt) = some next →
      .websocketConnect tried ∈ next.2 → wss <+: tried := by
  obtain ⟨t, ran⟩ : ∃ t, Runs.run (step false) .create madeSecure = some t := ⟨_, rfl⟩
  have stays := tunnel_stays_secure false madeSecure t ran (.inl (by decide))
  refine ⟨t, ran, ?_, stays.1, stays.2.2.2⟩
  cases ran
  rfl

end TunnelTraffic
