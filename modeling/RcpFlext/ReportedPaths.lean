import RcpFlext.Reports
import RcpFlext.InputDriven

/- The way up and the way down: the labels that a report puts in front of the value are a
   path that leads back to the parameter. -/
namespace ReportedPaths
open Atoms Datatypes ParameterTree PathLookup Reports

def GroupPath (ps : List Parameter) (p : Parameter) (labels : List CString) : Prop :=
  match p.parent with
  | none => labels = []
  | some g => ∃ group ∈ ps, group.ptr = g ∧ LabelPath ps none labels group

section
variable {S : Type} (rcp : Rcp S) (get : Getters S) (s : S) (p : Parameter)

/-- Every report has these labels between its word and the value. -/
structure ReportedUnder (labels : List CString) : Prop where
  update : parameterUpdate rcp get s p = (valueAtoms get s p).map fun value =>
    [.int 1 (p.id.signExtend 32),
      .list 0 ([symbol ['u', 'p', 'd', 'a', 't', 'e']] ++ labels.map .symbol ++ value)]
  added : parameterAdded rcp get s p = (addedAtoms get s p).map fun value =>
    addedCalls p ++ [.int 1 (p.id.zeroExtend 32),
      .list 0 ([symbol ['a', 'd', 'd']] ++ labels.map .symbol ++ value)]
  removed : parameterRemoved rcp s p = some [.int 1 (p.id.zeroExtend 32),
    .list 0 ([symbol ['r', 'e', 'm', 'o', 'v', 'e']] ++ labels.map .symbol)]

end

section
variable {ps : List Parameter} {p : Parameter} {groups : List CString} {l : CString}

theorem getParentsFrom_some {turns g : Nat}
    (walked : getParentsFrom ps turns (some g) = some groups) :
    ∃ group less above, group ∈ ps ∧ group.ptr = g ∧
      getParentsFrom ps less group.parent = some above ∧ less < turns ∧
      groups = group.label.getD (.ofBytes (text ['n', 'u', 'l', 'l'])) :: above := by
  cases turns with
  | zero => contradiction
  | succ turns =>
    rw [getParentsFrom] at walked
    obtain ⟨group, found, rest⟩ := Option.bind_eq_some_iff.mp walked
    obtain ⟨above, higher, eq⟩ := Option.bind_eq_some_iff.mp rest
    have address : group.ptr = g := by simpa using List.find?_some found
    exact ⟨group, turns, above, List.mem_of_find?_eq_some found, address, higher,
      Nat.lt_succ_self turns, (Option.some.inj eq).symm⟩

theorem parent_isGroup (rooted : Rooted ps) {group : Parameter} (inside : p ∈ ps)
    (listed : group ∈ ps) (parent : p.parent = some group.ptr) : group.isGroup = true := by
  obtain ⟨other, other_listed, same, isGroup⟩ := rooted.listed p inside _ parent
  rw [← same_of_ptr rooted.toTree other_listed listed same]
  exact isGroup

/-- Reversed, the way up with the own label behind it is the label path down. -/
theorem path_of_parents (rooted : Rooted ps) (labelled : ∀ q ∈ ps, q.label ≠ none)
    (inside : p ∈ ps) (label : p.label = some l) {turns : Nat}
    (walked : getParentsFrom ps turns p.parent = some groups) :
    LabelPath ps none (groups.reverse ++ [l]) p := by
  induction turns using Nat.strong_induction_on generalizing p groups l with
  | _ turns ih =>
    cases parent : p.parent with
    | none =>
      rw [parent] at walked
      have empty : groups = [] := by
        cases turns <;> exact (Option.some.inj walked).symm
      subst empty
      exact .child ⟨inside, label, parent⟩
    | some g =>
      rw [parent] at walked
      obtain ⟨group, less, above, listed, address, higher, fewer, eq⟩ := getParentsFrom_some walked
      obtain ⟨k, named⟩ := Option.ne_none_iff_exists'.mp (labelled group listed)
      have up := ih less fewer listed named higher
      rw [named, Option.getD_some] at eq
      subst address eq
      rw [List.reverse_cons]
      exact .under up (parent_isGroup rooted inside listed parent) ⟨inside, label, parent⟩

theorem groupPath_of_parents (rooted : Rooted ps) (labelled : ∀ q ∈ ps, q.label ≠ none)
    (walked : getParents ps p = some groups) : GroupPath ps p groups.reverse := by
  unfold getParents at walked
  unfold GroupPath
  cases parent : p.parent with
  | none =>
    rw [parent] at walked
    have empty : groups = [] := by
      revert walked
      cases ps.length <;> exact fun walked => (Option.some.inj walked).symm
    rw [empty]
    rfl
  | some g =>
    rw [parent] at walked
    obtain ⟨group, less, above, listed, address, higher, _, eq⟩ := getParentsFrom_some walked
    obtain ⟨k, named⟩ := Option.ne_none_iff_exists'.mp (labelled group listed)
    rw [named, Option.getD_some] at eq
    subst eq
    refine ⟨group, listed, address, ?_⟩
    rw [List.reverse_cons]
    exact path_of_parents rooted labelled listed named higher

end

section
variable {S : Type} {rcp : Rcp S} {get : Getters S} {s : S} {p : Parameter} {l : CString}
  {groups : List CString}

theorem address_labels (label : p.label = some l)
    (walked : getParents (rcp.parameters s) p = some groups) (word : List Char) :
    address rcp s p word = some ([symbol word] ++ (groups.reverse ++ [l]).map .symbol) := by
  rw [address, walked, label]
  simp

theorem reportedUnder_labels (label : p.label = some l)
    (walked : getParents (rcp.parameters s) p = some groups) :
    ReportedUnder rcp get s p (groups.reverse ++ [l]) := by
  have address := @address_labels S rcp s p l groups label walked
  constructor
  · rw [parameterUpdate, address]
    cases valueAtoms get s p <;> rfl
  · rw [parameterAdded, address]
    cases addedAtoms get s p <;> rfl
  · rw [parameterRemoved, address]
    rfl

/-- In a tree whose siblings have distinct labels each report names its parameter. -/
theorem leads_back (finds : rcp.Finds) (rooted : Rooted (rcp.parameters s))
    (unique : UniqueSiblings (rcp.parameters s))
    (labelled : ∀ q ∈ rcp.parameters s, q.label ≠ none) (inside : p ∈ rcp.parameters s) :
    ∃ groups labels, getParents (rcp.parameters s) p = some groups ∧
      GroupPath (rcp.parameters s) p groups.reverse ∧
      LabelPath (rcp.parameters s) none labels p ∧
      ReportedUnder rcp get s p labels ∧
      getParameter rcp s (labels.map .symbol) none = some p := by
  obtain ⟨groups, walked⟩ := getParents_ends rooted inside
  obtain ⟨l, label⟩ := Option.ne_none_iff_exists'.mp (labelled p inside)
  have path := path_of_parents rooted labelled inside label walked
  exact ⟨groups, groups.reverse ++ [l], walked, groupPath_of_parents rooted labelled walked, path,
    reportedUnder_labels label walked, InputDriven.getParameter_of_path finds unique path⟩

end

def blank : Getters (List Parameter) where
  valueBool _ _ := false
  valueInt32 _ _ := 0
  valueFloat _ _ := 0
  valueString _ _ := none
  hasMinimum _ _ := false
  hasMaximum _ _ := false
  minimumI32 _ _ := 0
  maximumI32 _ _ := 0
  minimumF32 _ _ := 0
  maximumF32 _ _ := 0

theorem nested_rooted : Rooted nested where
  toTree := nested_tree
  listed := by
    intro p inside g parent
    simp only [nested, List.mem_cons, List.not_mem_nil, or_false] at inside
    rcases inside with top | below
    · subst top
      contradiction
    · subst below
      cases parent
      exact ⟨_, .head _, rfl, rfl⟩

theorem nested_unique : UniqueSiblings nested := by
  simp [UniqueSiblings, nested]

theorem nested_leads_back :
    ∃ groups labels, getParents nested ⟨2, 2, .float32, some nameB, some 1⟩ = some groups ∧
      GroupPath nested ⟨2, 2, .float32, some nameB, some 1⟩ groups.reverse ∧
      LabelPath nested none labels ⟨2, 2, .float32, some nameB, some 1⟩ ∧
      ReportedUnder ListManager.listManager blank nested ⟨2, 2, .float32, some nameB, some 1⟩
        labels ∧
      getParameter ListManager.listManager nested (labels.map .symbol) none =
        some ⟨2, 2, .float32, some nameB, some 1⟩ :=
  leads_back (finds_of_first ListManager.listManager_first) nested_rooted
    nested_unique (by decide) (.tail _ (.head _))

end ReportedPaths
