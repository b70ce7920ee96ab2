import RcpFlext.ClientRuns

/- Which connections a client may still have besides the current one. disconnect closes an
   open connection and drops any other as it is; one that is still connecting goes on
   without handlers, and nothing ever closes it. -/
namespace OrphanedConnections
open Atoms Websocket Client ClientRuns

/-- Started, and neither ended nor closed from this side. -/
def Live (w : Client) (c : Nat) : Prop :=
  w.stateOf c = some .connecting ∨ w.stateOf c = some .opened

structure NoOrphans (w : Client) : Prop where
  superseded : ∀ c, Live w c → w.IsCurrent c
  single : ∀ c d, Live w c → Live w d → c = d

/-- A connection is not let go while it is connecting. -/
def Careful (w : Client) : Event → Prop
  | .connect _ _ _ | .disconnect => ∀ c, w.IsCurrent c → w.stateOf c ≠ some .connecting
  | _ => True

theorem no_orphans_iff {w : Client} (slots : Slots w) :
    NoOrphans w ↔ ∀ c, Live w c → w.IsCurrent c := by
  constructor
  · intro none
    exact none.superseded
  · intro superseded
    refine ⟨superseded, ?_⟩
    intro c d hc hd
    exact current_unique slots (superseded c hc) (superseded d hd)

theorem live_inside {w : Client} {c : Nat} (live : Live w c) : c < w.connections.length := by
  rcases live with h | h <;> obtain ⟨k, found, _⟩ := Option.map_eq_some_iff.mp h <;>
    exact (List.getElem?_eq_some_iff.mp found).choose

/-- What a disconnect leaves live: the current connection if it was connecting, and all
    that it does not touch. -/
theorem disconnect_live_iff (w : Client) (c : Nat) :
    Live w.disconnect c ↔
      w.IsCurrent c ∧ w.stateOf c = some .connecting ∨ ¬ w.IsCurrent c ∧ Live w c := by
  unfold Live stateOf
  rw [disconnect_at]
  cases w.connections[c]? with
  | none => simp
  | some k =>
    by_cases current : w.IsCurrent c
    · cases state : k.state <;> simp [current, state, Connection.release]
    · simp [current]

theorem connect_live_iff (noSsl : Bool) (w : Client) (uri subprotocol : Text) (attempt : Attempt)
    {c : Nat} (other : ¬ (w.connect noSsl uri subprotocol attempt).IsCurrent c) :
    Live (w.connect noSsl uri subprotocol attempt) c ↔ Live w.disconnect c := by
  rcases connect_cases noSsl w uri subprotocol attempt with same | ⟨connections, taken⟩
  · rw [same]
  · have apart : c ≠ w.disconnect.connections.length := by
      intro last
      apply other
      subst last
      rcases taken with t | t
      · exact .inr t.2
      · exact .inl t.1
    unfold Live stateOf
    rw [connections]
    by_cases old : c < w.disconnect.connections.length
    · rw [List.getElem?_append_left old]
    · rw [List.getElem?_eq_none (by simp; omega), List.getElem?_eq_none (by omega)]

theorem disconnect_no_orphans_iff {w : Client} (none : NoOrphans w) :
    (∀ c, ¬ Live w.disconnect c) ↔ ∀ c, w.IsCurrent c → w.stateOf c ≠ some .connecting := by
  constructor
  · intro left c current connecting
    exact left c ((disconnect_live_iff w c).mpr (.inl ⟨current, connecting⟩))
  · intro careful c live
    rcases (disconnect_live_iff w c).mp live with ⟨current, connecting⟩ | ⟨other, live⟩
    · exact careful c current connecting
    · exact other (none.superseded c live)

theorem settle_live {w : Client} {c d : Nat} {state : Session}
    (live : Live (w.settle c state) d) : c = d ∨ Live w d := by
  unfold Live at live
  rw [settle_stateOf] at live
  by_cases here : c = d
  · exact .inl here
  · rw [if_neg here] at live
    exact .inr live

theorem settle_closed_live {w : Client} {c d : Nat} (live : Live (w.settle c .closed) d) :
    c ≠ d ∧ Live w d := by
  have apart : c ≠ d := by
    intro same
    unfold Live at live
    rw [settle_stateOf, if_pos same] at live
    cases w.stateOf d <;> simp at live
  exact ⟨apart, (settle_live live).resolve_left apart⟩

theorem settle_closed_no_orphans {w : Client} (slots : Slots w) (none : NoOrphans w) (c : Nat) :
    NoOrphans (w.settle c .closed) := by
  apply (no_orphans_iff (settle_slots slots c .closed)).mpr
  intro d live
  exact none.superseded d (settle_closed_live live).2

theorem step_no_orphans_iff (noSsl : Bool) (w : Client) (e : Event)
    (next : Client × Option Callback) (kept : Kept w) (none : NoOrphans w)
    (stepped : step noSsl w e = some next) : NoOrphans next.1 ↔ Careful w e := by
  have later := step_kept noSsl w e next kept stepped
  rw [no_orphans_iff later.slots]
  cases e with
  | connect uri subprotocol attempt =>
    cases stepped
    simp only [Careful, ← disconnect_no_orphans_iff none]
    constructor
    · intro superseded c live
      by_cases current : (w.connect noSsl uri subprotocol attempt).IsCurrent c
      · exact absurd (live_inside live) (by rw [(connect_current current).2]; omega)
      · exact current (superseded c ((connect_live_iff noSsl w uri subprotocol attempt current).mpr live))
    · intro left c live
      by_contra other
      exact left c ((connect_live_iff noSsl w uri subprotocol attempt other).mp live)
  | disconnect =>
    cases stepped
    simp only [Careful, ← disconnect_no_orphans_iff none]
    constructor
    · intro superseded c live
      exact disconnect_not_current w c (superseded c live)
    · intro left c live
      exact absurd live (left c)
  | opened c =>
    obtain ⟨connecting, settled, _⟩ := onOpen_cases stepped
    simp only [Careful, iff_true, settled]
    intro d live
    rcases settle_live live with here | live
    · subst here
      exact none.superseded c (.inl connecting)
    · exact none.superseded d live
  | failed c code =>
    obtain ⟨_, settled, _⟩ := onFail_cases kept.slots stepped
    simp only [Careful, iff_true, settled]
    exact (settle_closed_no_orphans kept.slots none c).superseded
  | closed c code =>
    obtain ⟨_, settled, _⟩ := onClose_cases kept.slots stepped
    simp only [Careful, iff_true, settled]
    exact (settle_closed_no_orphans kept.slots none c).superseded

/-- In every run no connection is orphaned exactly when none is let go while connecting. -/
theorem no_orphans_run_iff (noSsl : Bool) (events : List Event) :
    Runs.Visits (step noSsl) NoOrphans Client.fresh events ↔
      Runs.Steps (step noSsl) Careful Client.fresh events := by
  have start : NoOrphans Client.fresh := by
    apply (no_orphans_iff fresh_slots).mpr
    intro c live
    exact absurd (live_inside live) (Nat.not_lt_zero c)
  exact Runs.visits_iff_steps Kept (step_kept noSsl) (step_no_orphans_iff noSsl) fresh_kept start
    events

/-- Two connects in a row, and then both connections open. -/
theorem superseded_opens :
    ∃ w, Runs.run (step false) Client.fresh
        [.connect addressA [] .started,
          .connect addressB [] .started, .opened 0, .opened 1] = some w ∧
      ¬ w.IsCurrent 0 ∧ w.stateOf 0 = some .opened ∧ w.stateOf 1 = some .opened ∧
      ¬ NoOrphans w := by
  refine ⟨_, rfl, by decide, by decide, by decide, ?_⟩
  intro none
  exact absurd (none.single 0 1 (.inr (by decide)) (.inr (by decide))) (by decide)

end OrphanedConnections
