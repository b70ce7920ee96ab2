import Mathlib.Data.List.Basic

/- Machines that take one event after another. A machine refuses an event that cannot
   happen in its state, and a step may say something besides its next state. -/
namespace Runs

abbrev Machine (S E O : Type) := S → E → Option (S × O)

variable {S E O : Type} (step : Machine S E O)

def run : S → List E → Option S
  | s, [] => some s
  | s, e :: es => (step s e).bind fun next => run next.1 es

/-- Every state on the way, the first and the last included. -/
def Visits (good : S → Prop) : S → List E → Prop
  | s, [] => good s
  | s, e :: es => good s ∧ ∀ next, step s e = some next → Visits good next.1 es

/-- Every step that is taken, judged in the state before it. -/
def Steps (ok : S → E → Prop) : S → List E → Prop
  | _, [] => True
  | s, e :: es => ∀ next, step s e = some next → ok s e ∧ Steps ok next.1 es

def told {T : Type} (tells : S → E → S × O → List T) : S → List E → List T
  | _, [] => []
  | s, e :: es => ((step s e).map fun next => tells s e next ++ told tells next.1 es).getD []

variable {step}

theorem run_append (s : S) (es fs : List E) :
    run step s (es ++ fs) = (run step s es).bind fun t => run step t fs := by
  induction es generalizing s with
  | nil => rfl
  | cons e es ih => simp only [List.cons_append, run, Option.bind_assoc, ih]

theorem run_keeps {inv : S → Prop}
    (kept : ∀ s e next, inv s → step s e = some next → inv next.1) {s t : S} {es : List E}
    (first : inv s) (ran : run step s es = some t) : inv t := by
  induction es generalizing s with
  | nil =>
    cases ran
    exact first
  | cons e es ih =>
    obtain ⟨next, stepped, rest⟩ := Option.bind_eq_some_iff.mp ran
    exact ih (kept s e next first stepped) rest

theorem run_within {fewer : Machine S E O}
    (within : ∀ s e next, fewer s e = some next → step s e = some next) {s t : S} {es : List E}
    (ran : run fewer s es = some t) : run step s es = some t := by
  induction es generalizing s with
  | nil => exact ran
  | cons e es ih =>
    obtain ⟨next, stepped, rest⟩ := Option.bind_eq_some_iff.mp ran
    rw [run, within s e next stepped]
    exact ih rest

/-- Where each step decides alone whether the next state is good, a run stays good
    exactly when all its steps are right. -/
theorem visits_iff_steps (inv : S → Prop) {good : S → Prop} {ok : S → E → Prop}
    (kept : ∀ s e next, inv s → step s e = some next → inv next.1)
    (decides : ∀ s e next, inv s → good s → step s e = some next → (good next.1 ↔ ok s e))
    {s : S} (first : inv s) (start : good s) (es : List E) :
    Visits step good s es ↔ Steps step ok s es := by
  induction es generalizing s with
  | nil => exact ⟨fun _ => trivial, fun _ => start⟩
  | cons e es ih =>
    constructor
    · intro visits next stepped
      have later := visits.2 next stepped
      have good_next : good next.1 := by
        cases es with
        | nil => exact later
        | cons _ _ => exact later.1
      exact ⟨(decides s e next first start stepped).mp good_next,
        (ih (kept s e next first stepped) good_next).mp later⟩
    · intro steps
      refine ⟨start, fun next stepped => ?_⟩
      have good_next := (decides s e next first start stepped).mpr (steps next stepped).1
      exact (ih (kept s e next first stepped) good_next).mpr (steps next stepped).2

theorem visits_and_steps_iff {good : S → Prop} {fine ok : S → E → Prop}
    (decides : ∀ s e next, good s → step s e = some next → (good next.1 ∧ fine s e ↔ ok s e))
    {s : S} (start : good s) (es : List E) :
    Visits step good s es ∧ Steps step fine s es ↔ Steps step ok s es := by
  induction es generalizing s with
  | nil => exact iff_of_true ⟨start, trivial⟩ trivial
  | cons e es ih =>
    constructor
    · rintro ⟨visits, right⟩ next stepped
      have later := visits.2 next stepped
      have now : good next.1 := by
        cases es with
        | nil => exact later
        | cons _ _ => exact later.1
      obtain ⟨one, rest⟩ := right next stepped
      exact ⟨(decides s e next start stepped).mp ⟨now, one⟩, (ih now).mp ⟨later, rest⟩⟩
    · intro steps
      have both (next) (stepped : step s e = some next) :=
        (decides s e next start stepped).mpr (steps next stepped).1
      have rest (next) (stepped : step s e = some next) :=
        (ih (both next stepped).1).mpr (steps next stepped).2
      exact ⟨⟨start, fun next stepped => (rest next stepped).1⟩,
        fun next stepped => ⟨(both next stepped).2, (rest next stepped).2⟩⟩

section
variable (inv : S → Prop) {ok : S → E → Prop}
  (kept : ∀ s e next, inv s → ok s e → step s e = some next → inv next.1)

include kept

/-- An invariant that only the right steps keep still holds along a run of them. -/
theorem visits_of_steps {good : S → Prop} (safe : ∀ s, inv s → good s) {s : S} (first : inv s)
    {es : List E} (steps : Steps step ok s es) : Visits step good s es := by
  induction es generalizing s with
  | nil => exact safe s first
  | cons e es ih =>
    refine ⟨safe s first, fun next stepped => ?_⟩
    obtain ⟨right, later⟩ := steps next stepped
    exact ih (kept s e next first right stepped) later

theorem steps_of_steps {fine : S → E → Prop}
    (gives : ∀ s e next, inv s → ok s e → step s e = some next → fine s e) {s : S}
    (first : inv s) {es : List E} (steps : Steps step ok s es) : Steps step fine s es := by
  induction es generalizing s with
  | nil => trivial
  | cons e es ih =>
    intro next stepped
    obtain ⟨right, later⟩ := steps next stepped
    exact ⟨gives s e next first right stepped, ih (kept s e next first right stepped) later⟩

end

theorem steps_of_all {ok : S → E → Prop} (all : ∀ s e, ok s e) (s : S) (es : List E) :
    Steps step ok s es := by
  induction es generalizing s with
  | nil => trivial
  | cons e es ih => exact fun next _ => ⟨all s e, ih next.1⟩

instance decideSteps (ok : S → E → Prop) [∀ s e, Decidable (ok s e)] :
    ∀ (s : S) (es : List E), Decidable (Steps step ok s es)
  | _, [] => inferInstanceAs (Decidable True)
  | s, e :: es =>
    match taken : step s e with
    | none => isTrue (by simp [Steps, taken])
    | some next =>
      have := decideSteps ok next.1 es
      decidable_of_iff (ok s e ∧ Steps step ok next.1 es) (by simp [Steps, taken])

section
variable {T U : Type} {tells : S → E → S × O → List T} {s t : S} {e : E} {es : List E}
  {next : S × O}

theorem told_cons (stepped : step s e = some next) :
    told step tells s (e :: es) = tells s e next ++ told step tells next.1 es := by
  rw [told, stepped]
  rfl

theorem told_append (ran : run step s es = some t) (fs : List E) :
    told step tells s (es ++ fs) = told step tells s es ++ told step tells t fs := by
  induction es generalizing s with
  | nil =>
    cases ran
    rfl
  | cons e es ih =>
    obtain ⟨next, stepped, rest⟩ := Option.bind_eq_some_iff.mp ran
    rw [List.cons_append, told_cons stepped, told_cons stepped, ih rest, List.append_assoc]

/-- A store that each step fills behind and empties in front is a queue along a run. -/
theorem told_queue {held : S → List T} {ins outs : S → E → S × O → List T}
    (moves : ∀ s e next, step s e = some next →
      held s ++ ins s e next = outs s e next ++ held next.1) (ran : run step s es = some t) :
    held s ++ told step ins s es = told step outs s es ++ held t := by
  induction es generalizing s with
  | nil =>
    cases ran
    simp [told]
  | cons e es ih =>
    obtain ⟨next, stepped, rest⟩ := Option.bind_eq_some_iff.mp ran
    rw [told_cons stepped, told_cons stepped, ← List.append_assoc, moves s e next stepped,
      List.append_assoc, List.append_assoc, ih rest]

theorem told_foldl {V : Type} {value : S → V} {apply : V → T → V}
    (moves : ∀ s e next, step s e = some next →
      value next.1 = (tells s e next).foldl apply (value s)) (ran : run step s es = some t) :
    value t = (told step tells s es).foldl apply (value s) := by
  induction es generalizing s with
  | nil =>
    cases ran
    rfl
  | cons e es ih =>
    obtain ⟨next, stepped, rest⟩ := Option.bind_eq_some_iff.mp ran
    rw [told_cons stepped, List.foldl_append, ← moves s e next stepped]
    exact ih rest

theorem told_length_le (inv : S → Prop) {measure : S → Nat} {gained : S → E → S × O → List U}
    (kept : ∀ s e next, inv s → step s e = some next → inv next.1)
    (moves : ∀ s e next, inv s → step s e = some next →
      measure next.1 + (tells s e next).length ≤ measure s + (gained s e next).length)
    (first : inv s) (ran : run step s es = some t) :
    measure t + (told step tells s es).length ≤ measure s + (told step gained s es).length := by
  induction es generalizing s with
  | nil =>
    cases ran
    simp [told]
  | cons e es ih =>
    obtain ⟨next, stepped, rest⟩ := Option.bind_eq_some_iff.mp ran
    have now := moves s e next first stepped
    have later := ih (kept s e next first stepped) rest
    rw [told_cons stepped, told_cons stepped, List.length_append, List.length_append]
    omega

theorem told_filterMap (inv : S → Prop) {answers : S → E → S × O → List U} {f : T → Option U}
    (kept : ∀ s e next, inv s → step s e = some next → inv next.1)
    (image : ∀ s e next, inv s → step s e = some next →
      answers s e next = (tells s e next).filterMap f) (first : inv s) (es : List E) :
    told step answers s es = (told step tells s es).filterMap f := by
  induction es generalizing s with
  | nil => rfl
  | cons e es ih =>
    cases stepped : step s e with
    | none => simp [told, stepped]
    | some next =>
      rw [told_cons stepped, told_cons stepped, List.filterMap_append, image s e next first stepped,
        ih (kept s e next first stepped)]

end

section
variable {measure : S → Nat}
  (falls : ∀ s e next, step s e = some next → measure next.1 < measure s)
include falls

/-- Steps that all lower a measure are no more than it allows. -/
theorem run_length_le {s t : S} {es : List E} (ran : run step s es = some t) :
    es.length + measure t ≤ measure s := by
  induction es generalizing s with
  | nil =>
    cases ran
    simp
  | cons e es ih =>
    obtain ⟨next, stepped, rest⟩ := Option.bind_eq_some_iff.mp ran
    have lower := falls s e next stepped
    have shorter := ih rest
    rw [List.length_cons]
    omega

theorem run_to_rest (s : S) : ∃ es t, run step s es = some t ∧ ∀ e, step t e = none := by
  induction size : measure s using Nat.strongRecOn generalizing s with
  | ind n ih =>
    by_cases rests : ∀ e, step s e = none
    · exact ⟨[], s, rfl, rests⟩
    · obtain ⟨e, works⟩ := not_forall.mp rests
      obtain ⟨next, stepped⟩ := Option.ne_none_iff_exists'.mp works
      have lower := falls s e next stepped
      obtain ⟨es, t, ran, ended⟩ := ih (measure next.1) (by omega) next.1 rfl
      refine ⟨e :: es, t, ?_, ended⟩
      rw [run, stepped]
      exact ran

end

/-- `t` is where a run from `s` first comes to rest. -/
inductive Settles (step : Machine S E O) (busy : S → Prop) : S → S → Prop
  | now {s : S} (rests : ¬ busy s) : Settles step busy s s
  | later {s t : S} {e : E} {next : S × O} (works : busy s) (stepped : step s e = some next)
      (rest : Settles step busy next.1 t) : Settles step busy s t

theorem settles_keeps {busy inv : S → Prop}
    (kept : ∀ s e next, inv s → busy s → step s e = some next → inv next.1) {s t : S}
    (first : inv s) (settles : Settles step busy s t) : inv t ∧ ¬ busy t := by
  induction settles with
  | now rests => exact ⟨first, rests⟩
  | later works stepped _ ih => exact ih (kept _ _ _ first works stepped)

theorem visits_congr (inv : S → Prop) {good fine : S → Prop}
    (kept : ∀ s e next, inv s → step s e = some next → inv next.1)
    (same : ∀ s, inv s → (good s ↔ fine s)) {s : S} (first : inv s) (es : List E) :
    Visits step good s es ↔ Visits step fine s es := by
  induction es generalizing s with
  | nil => exact same s first
  | cons e es ih =>
    apply and_congr (same s first)
    constructor
    · intro later next stepped
      exact (ih (kept s e next first stepped)).mp (later next stepped)
    · intro later next stepped
      exact (ih (kept s e next first stepped)).mpr (later next stepped)

theorem steps_congr (inv : S → Prop) {ok fine : S → E → Prop}
    (kept : ∀ s e next, inv s → step s e = some next → inv next.1)
    (same : ∀ s e next, inv s → step s e = some next → (ok s e ↔ fine s e)) {s : S}
    (first : inv s) (es : List E) : Steps step ok s es ↔ Steps step fine s es := by
  induction es generalizing s with
  | nil => exact Iff.rfl
  | cons e es ih =>
    constructor
    · intro steps next stepped
      exact ⟨(same s e next first stepped).mp (steps next stepped).1,
        (ih (kept s e next first stepped)).mp (steps next stepped).2⟩
    · intro steps next stepped
      exact ⟨(same s e next first stepped).mpr (steps next stepped).1,
        (ih (kept s e next first stepped)).mpr (steps next stepped).2⟩

end Runs
