import RcpFlext.Input

/- Which parameter a message by label changes: the one whose label path it is, with one
   value after the path, as long as no label before the last names anything but a group. -/
namespace InputNamed
open Atoms Datatypes ParameterTree PathLookup Input

variable {S : Type} {rcp : Rcp S} {s : S}

/-- The message is the label path of the parameter and one value atom. -/
def Names (ps : List Parameter) (message : List Atom) (p : Parameter) : Prop :=
  ∃ ls a, LabelPath ps none ls p ∧ message = ls.map .symbol ++ [a]

def ChangesNamed (ps : List Parameter) (message : List Atom) (calls : List Call) : Prop :=
  ∀ ptr v, .setValue ptr v ∈ calls → ∃ p, p.ptr = ptr ∧ Names ps message p

/-- An update without a change fires a bang at the root, whose label comes first. -/
def UpdatesForBang (ps : List Parameter) (sym : CString) (calls : List Call) : Prop :=
  (∀ ptr v, .setValue ptr v ∉ calls) → .managerUpdate ∈ calls →
    ∃ p, p.type = .bang ∧ IsChild ps sym none p ∧ calls = [.setDirty p.ptr, .managerUpdate]

/-- The labels before the last name groups, and a value parameter's label is not alone. -/
def Spelled (rcp : Rcp S) (s : S) (message : List Atom) : Prop :=
  Through rcp s none message.dropLast ∧ ∀ l p, message = [.symbol l] →
    rcp.managerFindParameter s l none = some p → p.isValue = false

theorem input_updates (finds : rcp.FindsChild) {sym : CString} {args : Args} {calls : List Call}
    (done : input rcp s (rcp.managerFindParameter s sym none) args = some calls) :
    UpdatesForBang (rcp.parameters s) sym calls := by
  intro unchanged updated
  rcases input_cases done with silent | ⟨_, post⟩ | ⟨p, found, bang, fired⟩ | ⟨p, v, set, _⟩
  · rw [silent] at updated
    contradiction
  · simp [post] at updated
  · exact ⟨p, bang, finds s sym none p found, fired⟩
  · rw [set] at unchanged
    exact absurd List.mem_cons_self (unchanged p.ptr v)

theorem not_group_of_value {p : Parameter} (value : p.isValue = true) : p.isGroup = false := by
  simp only [Parameter.isValue, decide_eq_true_eq] at value
  simp [Parameter.isGroup, value.1]

theorem labels_eq (sym : CString) (front : List Atom) (a : Atom) :
    (Atom.symbol sym :: (front ++ [a])).dropLast = .symbol sym :: front := by
  rw [← List.cons_append, List.dropLast_concat]

theorem names_value (finds : rcp.FindsChild) {sym : CString} {rest : List Atom} {p : Parameter}
    (spelled : Spelled rcp s (.symbol sym :: rest))
    (found : rcp.managerFindParameter s sym none = some p) (value : p.isValue = true) :
    Names (rcp.parameters s) (.symbol sym :: rest) p := by
  obtain ⟨through, valued⟩ := spelled
  rcases List.eq_nil_or_concat rest with alone | ⟨front, a, eq⟩
  · subst alone
    exact absurd (value.symm.trans (valued sym p rfl found)) (by simp)
  · rw [List.concat_eq_append] at eq
    subst eq
    rw [labels_eq] at through
    cases front with
    | nil => exact ⟨[sym], a, .child (finds s sym none p found), rfl⟩
    | cons b front =>
      have group := ((through_cons b front found).mp through).1
      exact absurd group (by simp [not_group_of_value value])

theorem names_inside (finds : rcp.FindsChild) {sym : CString} {rest : List Atom} {p q : Parameter}
    (spelled : Spelled rcp s (.symbol sym :: rest))
    (found : rcp.managerFindParameter s sym none = some q) (group : q.isGroup = true)
    (reached : getParameter rcp s (rest.take (rest.length - 1)) (some q.ptr) = some p) :
    Names (rcp.parameters s) (.symbol sym :: rest) p := by
  have through := spelled.1
  rcases List.eq_nil_or_concat rest with alone | ⟨front, a, eq⟩
  · subst alone
    contradiction
  · rw [List.concat_eq_append] at eq
    subst eq
    rw [labels_eq] at through
    have labels : (front ++ [a]).take ((front ++ [a]).length - 1) = front := by simp
    rw [labels] at reached
    obtain ⟨ls, path, all, _⟩ := getParameter_path finds reached
    have inner : Through rcp s (some q.ptr) front := by
      cases front with
      | nil => trivial
      | cons b front => exact ((through_cons b front found).mp through).2
    refine ⟨sym :: ls, a, labelPath_cons (finds s sym none q found) group path, ?_⟩
    rw [all inner]
    rfl

theorem input_changes (finds : rcp.FindsChild) {sym : CString} {before rest : List Atom}
    {calls : List Call} (spelled : Spelled rcp s (.symbol sym :: rest))
    (done : input rcp s (rcp.managerFindParameter s sym none) ⟨before, rest⟩ = some calls) :
    ChangesNamed (rcp.parameters s) (.symbol sym :: rest) calls := by
  intro ptr w inside
  rcases input_cases done with silent | ⟨_, post⟩ | ⟨p, _, _, fired⟩ | ⟨p, v, set, origin⟩
  · simp [silent] at inside
  · simp [post] at inside
  · simp [fired] at inside
  · have same : p.ptr = ptr := by
      simp only [set, List.mem_cons, Call.setValue.injEq, reduceCtorEq, List.not_mem_nil,
        or_false] at inside
      exact inside.1.symm
    refine ⟨p, same, ?_⟩
    rcases origin with ⟨found, value⟩ | ⟨q, found, group, _, reached⟩
    · exact names_value finds spelled found value
    · exact names_inside finds spelled found group reached

/-- A list or selector message by label updates without changing a value only to fire a
    bang at the root, and changes only what it names if its labels lead through groups. -/
theorem message_framed (finds : rcp.FindsChild) (sym : CString) (rest : List Atom)
    (calls : List Call)
    (handled : mList rcp s (.symbol sym :: rest) = some calls ∨ mAny rcp s sym rest = some calls) :
    UpdatesForBang (rcp.parameters s) sym calls ∧
      (Spelled rcp s (.symbol sym :: rest) →
        ChangesNamed (rcp.parameters s) (.symbol sym :: rest) calls) := by
  rcases handled with list | any
  · rw [mList_symbol] at list
    exact ⟨input_updates finds list, fun spelled => input_changes finds spelled list⟩
  · exact ⟨input_updates finds any, fun spelled => input_changes finds spelled any⟩

open ListManager

theorem nested_framed :
    ChangesNamed nested [.symbol nameA, .symbol nameB, .int 1]
      [.setValue 2 (.float32 (Binary32.ofInt 1)), .managerUpdate] :=
  (@message_framed _ listManager nested (finds_of_first listManager_first).child nameA
    [.symbol nameB, .int 1] _ (.inl rfl)).2
    ⟨⟨rfl, trivial⟩, fun _ _ alone => by simp at alone⟩

def rootBang : List Parameter := [⟨1, 1, .bang, some nameA, none⟩]

/-- A message that names a bang at the root changes no value and does update; and `a b 1`
    past a value `a` sets `a`. -/
theorem bang_updates :
    Tree rootBang ∧ UniqueSiblings rootBang ∧
      mAny listManager rootBang nameA [.int 1] = some [.setDirty 1, .managerUpdate] ∧
      (∀ ptr v, Call.setValue ptr v ∉ [Call.setDirty 1, .managerUpdate]) ∧
      mList listManager sideBySide [.symbol nameA, .symbol nameB, .int 1] =
        some [.setValue 1 (.float32 (Binary32.ofInt 1)), .managerUpdate] ∧
      ¬ ChangesNamed sideBySide [.symbol nameA, .symbol nameB, .int 1]
        [.setValue 1 (.float32 (Binary32.ofInt 1)), .managerUpdate] := by
  refine ⟨tree_of_addresses (by decide) (by decide), by simp [UniqueSiblings, rootBang], rfl,
    by simp, rfl, ?_⟩
  intro named
  obtain ⟨p, ptr, ls, a, path, message⟩ := named 1 _ List.mem_cons_self
  have first : LabelPath sideBySide none [nameA] ⟨1, 1, .float32, some nameA, none⟩ :=
    .child ⟨List.mem_cons_self, rfl, rfl⟩
  have same := same_of_ptr sideBySide_tree (labelPath_inside path) (labelPath_inside first) ptr
  subst same
  have long := congrArg List.length message
  rw [List.length_append, List.length_map, labelPath_length sideBySide_tree path first] at long
  simp at long

end InputNamed
