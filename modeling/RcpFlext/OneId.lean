import RcpFlext.Reports

/- The id of a parameter on the outlets: five outputs fetch it, two of them into an unsigned
   integer, before it becomes an int. -/
namespace OneId
open Atoms Datatypes ParameterTree PathLookup Reports

inductive Report where
  | added
  | removed
  | updated
  | id (argv : List Atom)
  | info (argv : List Atom)
  deriving DecidableEq

def Report.Unsigned : Report → Prop
  | .added => True
  | .removed => True
  | _ => False

instance : (r : Report) → Decidable r.Unsigned
  | .added | .removed => isTrue trivial
  | .updated | .id _ | .info _ => isFalse id

def idOutlet : List Out → Option CInt
  | [] => none
  | .int 1 v :: _ => some v
  | _ :: outs => idOutlet outs

def replied (fromEnd : Nat) : List Out → Option CInt
  | [.list 3 atoms] =>
    match atoms.reverse[fromEnd]? with
    | some (.int v) => some v
    | _ => none
  | _ => none

def idSent : Report → List Out → Option CInt
  | .id _, outs => replied 0 outs
  | .info _, outs => replied 1 outs
  | _, outs => idOutlet outs

section
variable {S : Type} (rcp : Rcp S) (get : Getters S)

/-- What is said about a parameter; an `id` is about it where its path leads there. -/
def emit (s : S) (p : Parameter) : Report → Option (List Out)
  | .added => parameterAdded rcp get s p
  | .removed => parameterRemoved rcp s p
  | .updated => parameterUpdate rcp get s p
  | .id argv =>
    if getParameter rcp s argv none = some p then some (parameterId rcp s argv) else none
  | .info argv => outputInfo get s p argv

/-- One output about the parameter with an id, whatever else has changed meanwhile. -/
structure Output (id : BitVec 16) where
  state : S
  parameter : Parameter
  report : Report
  outs : List Out
  about : parameter.id = id
  emitted : emit rcp get state parameter report = some outs

end

section
variable {S : Type} {rcp : Rcp S} {get : Getters S} {s : S} {p : Parameter}

theorem emit_ends (rooted : Rooted (rcp.parameters s)) (inside : p ∈ rcp.parameters s)
    (strings : p.type = .string → get.valueString s p.ptr ≠ none) (r : Report)
    (leads : ∀ argv, r = .id argv → getParameter rcp s argv none = some p) :
    ∃ outs, emit rcp get s p r = some outs := by
  obtain ⟨groups, ends⟩ := getParents_ends rooted inside
  obtain ⟨value, valued⟩ : ∃ value, valueAtoms get s p = some value := by
    unfold valueAtoms
    split
    · exact ⟨_, rfl⟩
    · exact ⟨_, rfl⟩
    · exact ⟨_, rfl⟩
    · rename_i string
      obtain ⟨v, some_v⟩ := Option.ne_none_iff_exists'.mp (strings string)
      exact ⟨[.symbol v], by rw [some_v]; rfl⟩
    · exact ⟨_, rfl⟩
  cases r with
  | added =>
    obtain ⟨behind, stands⟩ : ∃ behind, addedAtoms get s p = some behind := by
      unfold addedAtoms
      split
      · split
        · exact ⟨_, rfl⟩
        · exact ⟨value, valued⟩
      · split <;> exact ⟨_, rfl⟩
    exact ⟨_, by simp only [emit, parameterAdded, address, ends, stands]; rfl⟩
  | removed => exact ⟨_, by simp only [emit, parameterRemoved, address, ends]; rfl⟩
  | updated => exact ⟨_, by simp only [emit, parameterUpdate, address, ends, valued]; rfl⟩
  | id argv => exact ⟨_, if_pos (leads argv rfl)⟩
  | info argv => exact ⟨_, by simp only [emit, outputInfo, valued]; rfl⟩

theorem added_id {outs : List Out} (emitted : parameterAdded rcp get s p = some outs) :
    idOutlet outs = some (p.id.zeroExtend 32) := by
  obtain ⟨path, _, rest⟩ := Option.bind_eq_some_iff.mp emitted
  obtain ⟨value, _, eq⟩ := Option.bind_eq_some_iff.mp rest
  cases eq
  unfold addedCalls
  split
  · rfl
  · split <;> rfl

theorem idSent_eq {r : Report} {outs : List Out} (emitted : emit rcp get s p r = some outs) :
    idSent r outs = some (if r.Unsigned then p.id.zeroExtend 32 else p.id.signExtend 32) := by
  cases r with
  | added => exact added_id emitted
  | removed =>
    obtain ⟨path, _, eq⟩ := Option.bind_eq_some_iff.mp emitted
    cases eq
    rfl
  | updated =>
    obtain ⟨path, _, rest⟩ := Option.bind_eq_some_iff.mp emitted
    obtain ⟨value, _, eq⟩ := Option.bind_eq_some_iff.mp rest
    cases eq
    rfl
  | id argv =>
    simp only [emit, Option.ite_none_right_eq_some] at emitted
    obtain ⟨found, eq⟩ := emitted
    cases eq
    simp [parameterId, found, idSent, replied, Report.Unsigned]
  | info argv =>
    obtain ⟨value, _, eq⟩ := Option.bind_eq_some_iff.mp emitted
    cases eq
    simp [idSent, replied, Report.Unsigned]

theorem info_ids {argv : List Atom} {outs : List Out}
    (told : parameterInfo rcp get s argv = some outs) :
    ∀ out ∈ outs, ∃ p path, emit rcp get s p (.info path) = some [out] ∧
      idSent (.info path) [out] = some (p.id.signExtend 32) := by
  intro out among
  obtain ⟨p, path, said⟩ := parameterInfo_about told out among
  have emitted : emit rcp get s p (.info path) = some [out] := said
  refine ⟨p, path, emitted, ?_⟩
  rw [idSent_eq emitted, if_neg (by simp [Report.Unsigned])]

end

theorem widened_iff (id : BitVec 16) : id.zeroExtend 32 = id.signExtend 32 ↔ 0 ≤ id.toInt := by
  have small := id.isLt
  rw [← BitVec.toInt_inj, BitVec.toInt_signExtend_of_le (by omega)]
  simp only [BitVec.zeroExtend, BitVec.toInt_eq_toNat_cond, BitVec.toNat_setWidth]
  split <;> split <;> omega

/-- All outputs about a parameter carry one id exactly where it is not negative, or where
    only the signed or only the unsigned of them occur. -/
theorem one_id_iff {S : Type} {rcp : Rcp S} {get : Getters S} {id : BitVec 16}
    (outputs : List (Output rcp get id)) :
    (∀ a ∈ outputs, ∀ b ∈ outputs, idSent a.report a.outs = idSent b.report b.outs) ↔
      0 ≤ id.toInt ∨ (∀ o ∈ outputs, o.report.Unsigned) ∨ ∀ o ∈ outputs, ¬ o.report.Unsigned := by
  have sent (o : Output rcp get id) : idSent o.report o.outs =
      some (if o.report.Unsigned then id.zeroExtend 32 else id.signExtend 32) := by
    rw [idSent_eq o.emitted, o.about]
  constructor
  · intro one
    by_cases positive : 0 ≤ id.toInt
    · exact .inl positive
    right
    by_cases mixed : ∀ o ∈ outputs, ¬ o.report.Unsigned
    · exact .inr mixed
    left
    push Not at mixed
    obtain ⟨a, listed, unsigned⟩ := mixed
    intro b other
    by_contra signed
    have same := one a listed b other
    rw [sent a, sent b, if_pos unsigned, if_neg signed] at same
    exact positive ((widened_iff id).mp (Option.some.inj same))
  · intro alike a listed b other
    rw [sent a, sent b]
    rcases alike with positive | unsigned | signed
    · have widened := (widened_iff id).mpr positive
      split <;> split <;> simp only [widened]
    · rw [if_pos (unsigned a listed), if_pos (unsigned b other)]
    · rw [if_neg (signed a listed), if_neg (signed b other)]

def negative : Parameter := ⟨1, -1, .int32, some (.ofBytes (text ['x'])), none⟩

def zeros : Getters (List Parameter) where
  valueBool _ _ := false
  valueInt32 _ _ := 0
  valueFloat _ _ := 0
  valueString _ _ := none
  hasMinimum _ _ := false
  hasMaximum _ _ := false
  minimumI32 _ _ := 0
  maximumI32 _ _ := 0
  minimumF32 _ _ := 0
  maximumF32 _ _ := 0

/-- It is added as 65535 and updated as -1. -/
theorem negative_id_splits :
    ∃ added updated : Output ListManager.listManager zeros (-1),
      added.report = .added ∧ idSent added.report added.outs = some 65535 ∧
      updated.report = .updated ∧ idSent updated.report updated.outs = some (-1) ∧
      ¬ ∀ a ∈ [added, updated], ∀ b ∈ [added, updated],
        idSent a.report a.outs = idSent b.report b.outs := by
  refine ⟨⟨[negative], negative, .added, _, rfl, rfl⟩,
    ⟨[negative], negative, .updated, _, rfl, rfl⟩, rfl, rfl, rfl, rfl, ?_⟩
  intro one
  have same := one _ (.head _) _ (.tail _ (.head _))
  exact absurd same (by decide)

end OneId
