import RcpFlext.Input

/- Driving a parameter by its label path: what a list and a selector message do at any
   depth. Values are set everywhere; a bang is fired at the root only. -/
namespace InputDriven
open Atoms Datatypes ParameterTree PathLookup Input

variable {S : Type} {rcp : Rcp S} {s : S} {p : Parameter} {g : Option Nat}

def Delivers (rcp : Rcp S) (s : S) (sym : CString) (rest : List Atom) (calls : List Call) : Prop :=
  mList rcp s (.symbol sym :: rest) = some calls ∧ mAny rcp s sym rest = some calls

/-- Sending a value after the path sets a value parameter; a bang is marked dirty by the
    path alone or with anything after it. -/
structure Driven (rcp : Rcp S) (s : S) (sym : CString) (labels : List CString) (p : Parameter) :
    Prop where
  value : ∀ a v, p.isValue = true → valueOf p.type a = some v →
    Delivers rcp s sym (labels.map .symbol ++ [a]) [.setValue p.ptr v, .managerUpdate]
  bang : p.type = .bang → Delivers rcp s sym (labels.map .symbol) [.setDirty p.ptr, .managerUpdate]
  bang_value : ∀ a, p.type = .bang →
    Delivers rcp s sym (labels.map .symbol ++ [a]) [.setDirty p.ptr, .managerUpdate]

theorem find_child (finds : rcp.Finds) (unique : UniqueSiblings (rcp.parameters s)) {l : CString}
    (child : IsChild (rcp.parameters s) l g p) : rcp.managerFindParameter s l g = some p := by
  cases found : rcp.managerFindParameter s l g with
  | none => exact absurd found (finds.every s l g p child)
  | some q => rw [same_of_label unique (finds.child s l g q found) child]

theorem labelPath_uncons {ps : List Parameter} {l : CString} {ls : List CString}
    (path : LabelPath ps g (l :: ls) p) :
    ls = [] ∧ IsChild ps l g p ∨ ∃ q, IsChild ps l g q ∧ q.isGroup = true ∧ ls ≠ [] ∧
      LabelPath ps (some q.ptr) ls p := by
  generalize whole : l :: ls = labels at path
  induction path generalizing l ls with
  | child child =>
    cases whole
    exact .inl ⟨rfl, child⟩
  | @under above m r p path group child ih =>
    cases above with
    | nil => exact absurd rfl (labelPath_ne_nil path)
    | cons k above =>
      rw [List.cons_append] at whole
      cases whole
      right
      rcases ih rfl with ⟨only, top⟩ | ⟨q, top, deep, some_left, lower⟩
      · subst only
        exact ⟨r, top, group, by simp, .child child⟩
      · exact ⟨q, top, deep, by simp, .under lower group child⟩

/-- With unique sibling labels a label path leads back to its parameter. -/
theorem getParameter_of_path (finds : rcp.Finds) (unique : UniqueSiblings (rcp.parameters s))
    {ls : List CString} (path : LabelPath (rcp.parameters s) g ls p) :
    getParameter rcp s (ls.map .symbol) g = some p := by
  induction ls generalizing g with
  | nil => exact absurd rfl (labelPath_ne_nil path)
  | cons l ls ih =>
    rcases labelPath_uncons path with ⟨only, child⟩ | ⟨q, top, group, some_left, lower⟩
    · subst only
      exact getParameter_last (find_child finds unique child)
    · obtain ⟨m, ms, eq⟩ := List.exists_cons_of_ne_nil some_left
      have below := ih lower
      subst eq
      rw [List.map_cons, List.map_cons,
        getParameter_into (.symbol m) (ms.map .symbol) (find_child finds unique top) group]
      exact below

theorem assign_value {a : Atom} {v : Value} (value : p.isValue = true)
    (worth : valueOf p.type a = some v) (before front : List Atom) :
    assign (some p) ⟨before, front ++ [a]⟩ = some [.setValue p.ptr v, .managerUpdate] := by
  rw [assign_snoc]
  simp [setAtomValue, value, worth]

theorem delivers_of_input {sym : CString} {rest : List Atom} {calls : List Call}
    (same : ∀ before, input rcp s (rcp.managerFindParameter s sym none) ⟨before, rest⟩ = some calls) :
    Delivers rcp s sym rest calls :=
  ⟨same [.symbol sym], same []⟩

theorem driven_at_root (finds : rcp.Finds) (unique : UniqueSiblings (rcp.parameters s))
    {sym : CString} (child : IsChild (rcp.parameters s) sym none p) : Driven rcp s sym [] p := by
  have found := find_child finds unique child
  constructor
  · intro a v value worth
    apply delivers_of_input
    intro before
    rw [found, input_value value]
    exact assign_value value worth before []
  · intro bang
    apply delivers_of_input
    intro before
    rw [found, input_bang bang]
  · intro a bang
    apply delivers_of_input
    intro before
    rw [found, input_bang bang]

theorem input_nested (finds : rcp.Finds) (unique : UniqueSiblings (rcp.parameters s))
    {sym : CString} {labels : List CString} {q : Parameter}
    (top : IsChild (rcp.parameters s) sym none q) (group : q.isGroup = true)
    (deep : labels ≠ []) (path : LabelPath (rcp.parameters s) (some q.ptr) labels p)
    (leaf : p.isGroup = false) (before : List Atom) (a : Atom) :
    input rcp s (rcp.managerFindParameter s sym none) ⟨before, labels.map .symbol ++ [a]⟩ =
      assign (some p) ⟨before, labels.map .symbol ++ [a]⟩ := by
  rw [find_child finds unique top, input_group group before _ a (by simpa using deep),
    getParameter_of_path finds unique path]
  simp [leaf]

/-- A value or bang parameter is driven by its label path exactly when it is a value or
    lies at the root. -/
theorem driven_iff (finds : rcp.Finds) (unique : UniqueSiblings (rcp.parameters s))
    (sym : CString) (labels : List CString) (p : Parameter) (leaf : p.isGroup = false)
    (path : LabelPath (rcp.parameters s) none (sym :: labels) p) :
    Driven rcp s sym labels p ↔ p.isValue = true ∨ labels = [] := by
  rcases labelPath_uncons path with ⟨only, child⟩ | ⟨q, top, group, deep, lower⟩
  · subst only
    simp only [or_true, iff_true]
    exact driven_at_root finds unique child
  · simp only [deep, or_false]
    constructor
    · intro driven
      by_contra other
      have bang : p.type = .bang := by
        simp only [Parameter.isGroup, decide_eq_false_iff_not] at leaf
        simpa [Parameter.isValue, leaf] using other
      have fired := (driven.bang_value (.int 0) bang).2
      rw [mAny, input_nested finds unique top group deep lower leaf [] (.int 0), assign_snoc] at fired
      simp [setAtomValue, Parameter.isValue, bang] at fired
    · intro value
      have not_bang : p.type ≠ .bang := by
        simp only [Parameter.isValue, decide_eq_true_eq] at value
        exact value.2
      constructor
      · intro a v _ worth
        apply delivers_of_input
        intro before
        rw [input_nested finds unique top group deep lower leaf before a]
        exact assign_value value worth before _
      · intro bang
        exact absurd bang not_bang
      · intro a bang
        exact absurd bang not_bang

open ListManager

def nestedBang : List Parameter :=
  [⟨1, 1, .group, some nameA, none⟩, ⟨2, 2, .bang, some nameB, some 1⟩]

theorem nested_value_driven :
    Driven listManager nested nameA [nameB] ⟨2, 2, .float32, some nameB, some 1⟩ :=
  (@driven_iff _ listManager nested (finds_of_first listManager_first)
    (by simp [UniqueSiblings, listManager, nested]) nameA [nameB] _ rfl
    (.under (.child ⟨List.mem_cons_self, rfl, rfl⟩) rfl
      ⟨List.mem_cons_of_mem _ List.mem_cons_self, rfl, rfl⟩)).mpr (.inl rfl)

/-- The path of a bang in a group fires nothing, alone or with a value. -/
theorem nested_bang_silent :
    Tree nestedBang ∧ UniqueSiblings nestedBang ∧
      LabelPath nestedBang none [nameA, nameB] ⟨2, 2, .bang, some nameB, some 1⟩ ∧
      mList listManager nestedBang [.symbol nameA, .symbol nameB] =
        some [.post "can not set value for group parameter" []] ∧
      mList listManager nestedBang [.symbol nameA, .symbol nameB, .int 1] = some [] ∧
      ¬ Driven listManager nestedBang nameA [nameB] ⟨2, 2, .bang, some nameB, some 1⟩ := by
  refine ⟨tree_of_addresses (by decide) (by decide), by simp [UniqueSiblings, nestedBang],
    .under (.child ⟨List.mem_cons_self, rfl, rfl⟩) rfl
      ⟨List.mem_cons_of_mem _ List.mem_cons_self, rfl, rfl⟩, rfl, rfl, ?_⟩
  intro driven
  have fired : some [Call.post "can not set value for group parameter" []] =
      some [Call.setDirty 2, .managerUpdate] := (driven.bang rfl).1
  simp at fired

end InputDriven
