import Mathlib.Data.List.Nodup

/- A roster that members join and leave, and a list of such changes still to be made. -/
namespace Rosters
variable {M : Type} [DecidableEq M]

inductive Change (M : Type) where
  | join (m : M)
  | leave (m : M)

def Change.member : Change M → M
  | .join m => m
  | .leave m => m

def Change.apply (roster : List M) : Change M → List M
  | .join m => roster.insert m
  | .leave m => roster.erase m

def Change.Fits (roster : List M) : Change M → Prop
  | .join m => m ∉ roster
  | .leave m => m ∈ roster

def after (roster : List M) (changes : List (Change M)) : List M :=
  changes.foldl Change.apply roster

def AllFit : List M → List (Change M) → Prop
  | _, [] => True
  | roster, c :: cs => c.Fits roster ∧ AllFit (c.apply roster) cs

section
variable {roster : List M}

theorem after_append (cs ds : List (Change M)) :
    after roster (cs ++ ds) = after (after roster cs) ds := List.foldl_append

theorem allFit_append (cs ds : List (Change M)) :
    AllFit roster (cs ++ ds) ↔ AllFit roster cs ∧ AllFit (after roster cs) ds := by
  induction cs generalizing roster with
  | nil => simp [AllFit, after]
  | cons c cs ih =>
    rw [List.cons_append, AllFit, AllFit, ih, and_assoc]
    rfl

theorem apply_nodup (distinct : roster.Nodup) (c : Change M) : (c.apply roster).Nodup := by
  cases c with
  | join m => exact distinct.insert
  | leave m => exact distinct.erase m

theorem after_nodup (distinct : roster.Nodup) (cs : List (Change M)) :
    (after roster cs).Nodup := by
  induction cs generalizing roster with
  | nil => exact distinct
  | cons c cs ih => exact ih (apply_nodup distinct c)

theorem join_mem {m n : M} : n ∈ Change.apply roster (.join m) ↔ n = m ∨ n ∈ roster :=
  List.mem_insert_iff

theorem leave_mem (distinct : roster.Nodup) {m n : M} :
    n ∈ Change.apply roster (.leave m) ↔ n ≠ m ∧ n ∈ roster := distinct.mem_erase_iff

/-- Who is there is decided by their own changes alone. -/
theorem own_changes (distinct : roster.Nodup) (m : M) (cs : List (Change M)) :
    m ∈ after roster cs ↔ m ∈ after roster (cs.filter fun c => c.member = m) := by
  have alone (r : List M) (dr : r.Nodup) (s : List M) (ds : s.Nodup) (same : m ∈ r ↔ m ∈ s) :
      m ∈ after r cs ↔ m ∈ after s (cs.filter fun c => c.member = m) := by
    induction cs generalizing r s with
    | nil => exact same
    | cons c cs ih =>
      by_cases own : c.member = m
      · rw [List.filter_cons_of_pos (by simpa using own)]
        apply ih _ (apply_nodup dr c) _ (apply_nodup ds c)
        cases c with
        | join n => rw [join_mem, join_mem, same]
        | leave n => rw [leave_mem dr, leave_mem ds, same]
      · rw [List.filter_cons_of_neg (by simpa using own)]
        apply ih _ (apply_nodup dr c) s ds
        have other : m ≠ c.member := fun eq => own eq.symm
        cases c with
        | join n =>
          rw [join_mem]
          exact ⟨fun there => same.mp (there.resolve_left other), fun there => .inr (same.mpr there)⟩
        | leave n =>
          rw [leave_mem dr]
          exact ⟨fun there => same.mp there.2, fun there => ⟨other, same.mpr there⟩⟩
  exact alone roster distinct roster distinct Iff.rfl

theorem join_length {m : M} (fits : m ∉ roster) :
    (Change.apply roster (.join m)).length = roster.length + 1 :=
  List.length_insert_of_not_mem fits

theorem leave_length {m : M} (fits : m ∈ roster) :
    (Change.apply roster (.leave m)).length + 1 = roster.length := by
  rw [Change.apply, List.length_erase_of_mem fits]
  exact Nat.sub_add_cancel (List.length_pos_of_mem fits)

end

end Rosters
