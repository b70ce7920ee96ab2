import RcpFlext.ReportedPaths

/- `info` without arguments against `info` with each parameter's own path. The one rebuilds
   the labels of the groups and leaves the parameter's own out, the other echoes them all. -/
namespace InfoListing
open Atoms ParameterTree PathLookup Reports

section
variable {S : Type} (rcp : Rcp S) (get : Getters S) (s : S)

def queries (paths : List (List CString)) : Option (List Out) :=
  (paths.mapM fun labels => parameterInfo rcp get s (labels.map .symbol)).map List.flatten

/-- The listing is what the queries for the full paths give, in the manager's order. -/
def ListsAsQueried : Prop :=
  ∃ paths outs,
    List.Forall₂ (fun p labels => LabelPath (rcp.parameters s) none labels p) (rcp.parameters s)
      paths ∧
    parameterInfo rcp get s [] = some outs ∧ queries rcp get s paths = some outs

end

section
variable {S : Type} {rcp : Rcp S} {get : Getters S} {s : S} {p : Parameter} {outs : List Out}

theorem outputInfo_list {argv : List Atom} (told : outputInfo get s p argv = some outs) :
    ∃ value, valueAtoms get s p = some value ∧
      outs = [.list 3 ([symbol ['i', 'n', 'f', 'o']] ++ argv ++ value ++ limitAtoms get s p ++
        [.int (p.id.signExtend 32), typeToString p.type])] := by
  obtain ⟨value, read, eq⟩ := Option.bind_eq_some_iff.mp told
  exact ⟨value, read, (Option.some.inj eq).symm⟩

theorem outputInfo_labels {left right : List Atom} {first second more others : List Out}
    (one : outputInfo get s p left = some first) (other : outputInfo get s p right = some second)
    (same : first ++ more = second ++ others) : left.length = right.length := by
  obtain ⟨value, read, eq⟩ := outputInfo_list one
  obtain ⟨value', read', eq'⟩ := outputInfo_list other
  rw [read] at read'
  cases read'
  subst eq eq'
  have lists := (List.cons.inj same).1
  injection lists with _ atoms
  have lengths := congrArg List.length atoms
  simp only [List.length_append] at lengths
  omega

theorem mapM_flatten_cons {A : Type} {f : A → Option (List Out)} {a : A} {as : List A}
    (mapped : ((a :: as).mapM f).map List.flatten = some outs) :
    ∃ first others, f a = some first ∧ outs = first ++ others := by
  obtain ⟨lists, gives, eq⟩ := Option.map_eq_some_iff.mp mapped
  rw [List.mapM_cons] at gives
  obtain ⟨first, here, rest⟩ := Option.bind_eq_some_iff.mp gives
  obtain ⟨others, later, same⟩ := Option.bind_eq_some_iff.mp rest
  cases same
  exact ⟨first, others.flatten, here, eq.symm⟩

/-- The first parameter is already listed with one label less than its query echoes. -/
theorem listing_differs (finds : rcp.Finds) (rooted : Rooted (rcp.parameters s))
    (unique : UniqueSiblings (rcp.parameters s))
    (labelled : ∀ q ∈ rcp.parameters s, q.label ≠ none) {ps : List Parameter}
    (all : rcp.parameters s = p :: ps) : ¬ ListsAsQueried rcp get s := by
  rintro ⟨paths, outs, full, listed, queried⟩
  have inside : p ∈ rcp.parameters s := by
    rw [all]
    exact .head _
  rw [parameterInfo, if_pos rfl] at listed
  nth_rewrite 2 [all] at listed
  nth_rewrite 2 [all] at full
  cases full with
  | @cons _ labels _ more above later =>
  obtain ⟨l, label⟩ := Option.ne_none_iff_exists'.mp (labelled p inside)
  obtain ⟨first, others, here, eq⟩ := mapM_flatten_cons listed
  obtain ⟨second, rest, there, eq'⟩ := mapM_flatten_cons queried
  obtain ⟨groups, walked, echoed⟩ := Option.bind_eq_some_iff.mp here
  -- the query finds the parameter and echoes all its labels
  have some_label : labels.map Atom.symbol ≠ [] := by
    simpa using labelPath_ne_nil above
  rw [parameterInfo, if_neg some_label,
    InputDriven.getParameter_of_path finds unique above] at there
  have fewer := outputInfo_labels echoed there (eq.symm.trans eq')
  have whole := ReportedPaths.path_of_parents rooted labelled inside label walked
  have full := labelPath_length rooted.toTree above whole
  simp only [List.length_map, List.length_reverse, List.length_append, List.length_cons,
    List.length_nil] at fewer full
  omega

/-- The listing agrees with the queries on no parameter, so only where there is none. -/
theorem lists_as_queried_iff (finds : rcp.Finds) (rooted : Rooted (rcp.parameters s))
    (unique : UniqueSiblings (rcp.parameters s))
    (labelled : ∀ q ∈ rcp.parameters s, q.label ≠ none) :
    ListsAsQueried rcp get s ↔ rcp.parameters s = [] := by
  constructor
  · intro agrees
    cases all : rcp.parameters s with
    | nil => rfl
    | cons p ps => exact absurd agrees (listing_differs finds rooted unique labelled all)
  · intro none
    refine ⟨[], [], ?_, ?_, rfl⟩
    · rw [none]
      exact .nil
    · rw [parameterInfo, if_pos rfl, none]
      rfl

end

theorem nested_listing :
    ListsAsQueried ListManager.listManager ReportedPaths.blank nested ↔
      ListManager.listManager.parameters nested = [] :=
  lists_as_queried_iff (finds_of_first ListManager.listManager_first) ReportedPaths.nested_rooted
    ReportedPaths.nested_unique (by decide)

/-- A group `a` with the value `b` in it is listed as `info 1 group` and `info a 0 2 float`. -/
theorem label_left_out :
    Rooted nested ∧ UniqueSiblings nested ∧
    parameterInfo ListManager.listManager ReportedPaths.blank nested [] =
      some [.list 3 [symbol ['i', 'n', 'f', 'o'], .int 1, typeToString .group],
        .list 3 [symbol ['i', 'n', 'f', 'o'], .symbol nameA, .float 0, .int 2,
          typeToString .float32]] ∧
    queries ListManager.listManager ReportedPaths.blank nested [[nameA], [nameA, nameB]] =
      some [.list 3 [symbol ['i', 'n', 'f', 'o'], .symbol nameA, .int 1, typeToString .group],
        .list 3 [symbol ['i', 'n', 'f', 'o'], .symbol nameA, .symbol nameB, .float 0, .int 2,
          typeToString .float32]] ∧
    ¬ ListsAsQueried ListManager.listManager ReportedPaths.blank nested :=
  ⟨ReportedPaths.nested_rooted, ReportedPaths.nested_unique, by decide, by decide,
    listing_differs (finds_of_first ListManager.listManager_first) ReportedPaths.nested_rooted
      ReportedPaths.nested_unique (by decide) rfl⟩

end InfoListing
