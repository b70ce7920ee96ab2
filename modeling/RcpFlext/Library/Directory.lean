import Mathlib.Data.List.Infix

/- Entries under paths of labels, and the three ways to change them: a new entry at the end
   of a path, entries amended where they stand, and entries taken away with all that is
   below them. -/
namespace Directories

variable {L E : Type}

abbrev Directory (L E : Type) := List L → Option E

def empty : Directory L E := fun _ => none

def amend (hit : List L → E → Prop) [∀ q e, Decidable (hit q e)] (f : E → E)
    (d : Directory L E) : Directory L E :=
  fun q => (d q).map fun e => if hit q e then f e else e

/-- Some entry on the way along a path, or at its end, is hit. -/
def HitOn (hit : List L → E → Prop) (d : Directory L E) (q : List L) : Prop :=
  ∃ above ∈ q.inits, ∃ e ∈ d above, hit above e

instance decideAt (hit : List L → E → Prop) [∀ q e, Decidable (hit q e)] (d : Directory L E)
    (q : List L) : Decidable (∃ e ∈ d q, hit q e) :=
  match d q with
  | none => isFalse (by simp)
  | some e => decidable_of_iff (hit q e) (by simp)

instance (hit : List L → E → Prop) [∀ q e, Decidable (hit q e)] (d : Directory L E) (q : List L) :
    Decidable (HitOn hit d q) := inferInstanceAs (Decidable (∃ above ∈ q.inits, _))

def prune (hit : List L → E → Prop) [∀ q e, Decidable (hit q e)] (d : Directory L E) :
    Directory L E :=
  fun q => if HitOn hit d q then none else d q

section
variable [DecidableEq L] (new : List L → E)

def put (d : Directory L E) (path : List L) (e : E) : Directory L E :=
  fun q => if q = path then some e else d q

def ensure (d : Directory L E) (path : List L) : Directory L E :=
  match d path with
  | some _ => d
  | none => put d path (new path)

/-- Entries made wherever one is missing on the way from `above` along the labels. -/
def fill (d : Directory L E) (above : List L) : List L → Directory L E
  | [] => d
  | l :: ls => fill (ensure new d (above ++ [l])) (above ++ [l]) ls

end

section
variable {hit : List L → E → Prop} [∀ q e, Decidable (hit q e)] {f : E → E} {d : Directory L E}
  {q : List L} {e : E}

theorem amend_of_miss (miss : ∀ e ∈ d q, ¬ hit q e) : amend hit f d q = d q := by
  unfold amend
  cases here : d q with
  | none => rfl
  | some e => rw [Option.map_some, if_neg (miss e here)]

theorem amend_of_hit (here : d q = some e) (hits : hit q e) : amend hit f d q = some (f e) := by
  rw [amend, here, Option.map_some, if_pos hits]

theorem prune_of_hit (on : HitOn hit d q) : prune hit d q = none := if_pos on

theorem prune_of_miss (off : ¬ HitOn hit d q) : prune hit d q = d q := if_neg off

omit [∀ q e, Decidable (hit q e)] in
theorem hitOn_iff : HitOn hit d q ↔ ∃ above e, above <+: q ∧ d above = some e ∧ hit above e := by
  simp only [HitOn, List.mem_inits, Option.mem_def]
  constructor
  · rintro ⟨above, way, e, here, hits⟩
    exact ⟨above, e, way, here, hits⟩
  · rintro ⟨above, e, way, here, hits⟩
    exact ⟨above, way, e, here, hits⟩

end

section
variable [DecidableEq L] {new : List L → E} {d : Directory L E} {path q : List L} {e : E}

theorem put_here : put d path e path = some e := if_pos rfl

theorem put_elsewhere (other : q ≠ path) : put d path e q = d q := if_neg other

theorem amend_put {f : E → E} : amend (fun q _ => q = path) f (put d path e) = put d path (f e) := by
  funext q
  by_cases here : q = path
  · subst here
    have there : put d q e q = some e := put_here
    have now : put d q (f e) q = some (f e) := put_here
    rw [now]
    exact amend_of_hit there rfl
  · rw [put_elsewhere here, amend_of_miss fun _ _ => here, put_elsewhere here]

theorem ensure_old (there : d path = some e) : ensure new d path = d := by
  rw [ensure, there]

theorem ensure_new (missing : d path = none) : ensure new d path = put d path (new path) := by
  rw [ensure, missing]

theorem ensure_keeps (there : d q = some e) : ensure new d path q = some e := by
  cases here : d path with
  | some _ => rwa [ensure_old here]
  | none =>
    rw [ensure_new here, put_elsewhere]
    · exact there
    · intro same
      rw [same, here] at there
      contradiction

theorem fill_keeps {above : List L} (ls : List L) (there : d q = some e) :
    fill new d above ls q = some e := by
  induction ls generalizing d above with
  | nil => exact there
  | cons l ls ih => exact ih (ensure_keeps there)

end
end Directories
