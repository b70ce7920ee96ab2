import RcpFlext.ExposeWhole

/- Whether the atoms that exposed a parameter find it again. createGroups looks among
   groups and takes any atom as a label; getParameter looks among all parameters and takes
   symbols only. -/
namespace ExposeAddress
open Atoms Datatypes ParameterTree PathLookup Expose ExposeWhole

variable {S : Type} (rcp : Rcp S)

/-- The label is a symbol, and at each group on the way the manager lists the group that
    createGroups takes or makes before every other parameter of its name there. -/
def Clear (s : S) (g : Option Nat) : Atom → List Atom → Prop
  | a, [] => isString a = true
  | a, b :: rest =>
      match rcp.serverFindGroup s (getAsString a) g with
      | some group => rcp.managerFindParameter s (getAsString a) g = some group ∧
          Clear s (some group.ptr) b rest
      | none =>
        match rcp.serverCreateGroup s (getAsString a) g with
        | (next, group) =>
          (∃ new, rcp.managerFindParameter next (getAsString a) g = some new ∧
            group = some new.ptr) ∧ Clear next group b rest

variable {rcp}

section
variable {s next : S} {g group : Option Nat} {a b : Atom} {rest : List Atom} {found : Parameter}

theorem clear_found (inside : rcp.serverFindGroup s (getAsString a) g = some found) :
    Clear rcp s g a (b :: rest) ↔
      rcp.managerFindParameter s (getAsString a) g = some found ∧
        Clear rcp s (some found.ptr) b rest := by
  simp [Clear, inside]

theorem clear_made (missing : rcp.serverFindGroup s (getAsString a) g = none)
    (made : rcp.serverCreateGroup s (getAsString a) g = (next, group)) :
    Clear rcp s g a (b :: rest) ↔
      (∃ new, rcp.managerFindParameter next (getAsString a) g = some new ∧
        group = some new.ptr) ∧ Clear rcp next group b rest := by
  simp [Clear, missing, made]

end

theorem groupsMade_of_clear (s : S) (g : Option Nat) (a : Atom) (rest : List Atom)
    (clear : Clear rcp s g a rest) : GroupsMade rcp s g a rest := by
  induction rest generalizing s g a with
  | nil => trivial
  | cons b rest ih =>
    cases found : rcp.serverFindGroup s (getAsString a) g with
    | some group =>
      obtain ⟨_, later⟩ := (clear_found found).mp clear
      exact (groupsMade_found found).mpr (ih s (some group.ptr) b later)
    | none =>
      cases made : rcp.serverCreateGroup s (getAsString a) g with
      | mk next group =>
        obtain ⟨⟨new, _, is_new⟩, later⟩ := (clear_made found made).mp clear
        subst is_new
        exact (groupsMade_made found made).mpr ⟨Option.some_ne_none _, ih next (some new.ptr) b later⟩

section
variable (first : rcp.FindsFirst) (creates : rcp.Creates) (request : Request)
include first creates

theorem new_below (s : S) (g : Option Nat) (a : Atom) (rest : List Atom) (p : Parameter)
    (all : GroupsMade rcp s g a rest)
    (inside : p ∈ rcp.parameters (exposeFrom rcp request s g a rest).server) :
    p ∈ rcp.parameters s ∨
      ∃ ls, LabelPath (rcp.parameters (exposeFrom rcp request s g a rest).server) g ls p := by
  induction rest generalizing s g a with
  | nil =>
    have ends := exposeFrom_last request rcp s g a
    generalize exposeFrom rcp request s g a [] = exposed at ends inside ⊢
    cases ends with
    | unlabelled _ => exact .inl inside
    | taken _ _ => exact .inl inside
    | refused _ _ made => exact .inl (creates.no_expose _ _ _ _ _ made ▸ inside)
    | created _ _ made =>
      obtain ⟨id, grown⟩ := creates.expose _ _ _ _ _ _ made
      rcases (grown_mem grown).mp inside with new | old
      · subst new
        exact .inr ⟨[_], .child ⟨inside, rfl, rfl⟩⟩
      · exact .inl old
  | cons b rest ih =>
    cases string : isString a with
    | false =>
      rw [(exposeFrom_other request b rest string).2] at inside
      exact .inl inside
    | true =>
      cases found : rcp.serverFindGroup s (getAsString a) g with
      | some group =>
        obtain ⟨child, isGroup⟩ := (finds_of_first first).group s _ g group found
        have same := exposeFrom_found request b rest string found
        have kept := exposeFrom_keeps creates request same child.1
        rw [same] at inside kept ⊢
        rcases ih s (some group.ptr) b ((groupsMade_found found).mp all) inside with old | ⟨ls, path⟩
        · exact .inl old
        · exact .inr ⟨_, labelPath_cons ⟨kept, child.2⟩ isGroup path⟩
      | none =>
        cases made : rcp.serverCreateGroup s (getAsString a) g with
        | mk next group =>
          obtain ⟨some_group, later⟩ := (groupsMade_made found made).mp all
          obtain ⟨ptr, eq⟩ := Option.ne_none_iff_exists'.mp some_group
          subst eq
          obtain ⟨id, grown⟩ := creates.group _ _ _ _ _ made
          have same := exposeFrom_made request b rest string found made
          have kept := exposeFrom_keeps creates request same ((grown_mem grown).mpr (.inl rfl))
          rw [same] at inside kept ⊢
          rcases ih next (some ptr) b later inside with old | ⟨ls, path⟩
          · rcases (grown_mem grown).mp old with new | older
            · subst new
              exact .inr ⟨[_], .child ⟨kept, rfl, rfl⟩⟩
            · exact .inl older
          · exact .inr ⟨_, labelPath_cons ⟨kept, rfl, rfl⟩ rfl path⟩

theorem find_kept (s : S) (tree : Tree (rcp.parameters s)) (g : Option Nat) (q : Parameter)
    (child : IsChild (rcp.parameters s) k g q) (group : q.isGroup = true) (a : Atom)
    (rest : List Atom) (all : GroupsMade rcp s (some q.ptr) a rest) (l : CString) :
    rcp.managerFindParameter (exposeFrom rcp request s (some q.ptr) a rest).server l g =
      rcp.managerFindParameter s l g := by
  have growth := exposeFrom_growth creates request s (some q.ptr) a rest
  have final := growth_tree growth tree
  rw [first.parameter, first.parameter]
  apply growth_find growth
  intro p inside
  rcases new_below first creates request s (some q.ptr) a rest p all inside with old | ⟨ls, path⟩
  · exact .inl old
  · right
    by_contra answers
    have answers : p.label = some l ∧ p.parent = g := by simpa using answers
    have top : IsChild _ k g q := ⟨(growth_sublist growth).subset child.1, child.2⟩
    have deep := labelPath_cons top group path
    have flat := labelPath_length final deep (.child ⟨inside, answers⟩)
    exact labelPath_ne_nil path (List.length_eq_zero_iff.mp (by simpa using flat))

omit first creates in
theorem symbol_of_created {s : S} {g : Option Nat} {a b : Atom} {rest : List Atom} {ptr : Nat}
    (created : (exposeFrom rcp request s g a (b :: rest)).created = some ptr) :
    ∃ l, a = .symbol l := by
  cases string : isString a with
  | false =>
    rw [(exposeFrom_other request b rest string).1] at created
    contradiction
  | true => exact ⟨getString a, isString_getString string⟩

omit creates in
theorem find_new {s s' : S} {new : Parameter} {l : CString} {g : Option Nat}
    (grown : Grown (rcp.parameters s) new (rcp.parameters s')) (label : new.label = some l)
    (parent : new.parent = g) (free : rcp.managerFindParameter s l g = none) :
    rcp.managerFindParameter s' l g = some new := by
  have finds := finds_of_first first
  have child : IsChild (rcp.parameters s') l g new := ⟨(grown_mem grown).mpr (.inl rfl), label, parent⟩
  cases found : rcp.managerFindParameter s' l g with
  | none => exact absurd found (finds.every s' l g new child)
  | some q =>
    obtain ⟨inside, named, under⟩ := finds.child s' l g q found
    rcases (grown_mem grown).mp inside with same | old
    · rw [same]
    · exact absurd free (finds.every s l g q ⟨old, named, under⟩)

/-- On a clear path the walk that looks up goes where the walk that makes has gone. -/
theorem found_of_clear (s : S) (tree : Tree (rcp.parameters s)) (g : Option Nat) (a : Atom)
    (rest : List Atom) (ptr : Nat)
    (created : (exposeFrom rcp request s g a rest).created = some ptr)
    (clear : Clear rcp s g a rest) :
    ∃ p, getParameter rcp (exposeFrom rcp request s g a rest).server (a :: rest) g = some p ∧
      p.ptr = ptr := by
  induction rest generalizing s g a with
  | nil =>
    have symbol := isString_getString clear
    generalize getString a = l at symbol
    subst symbol
    have ends := exposeFrom_last request rcp s g (.symbol l)
    generalize exposeFrom rcp request s g (.symbol l) [] = exposed at ends created ⊢
    cases ends with
    | unlabelled _ => contradiction
    | taken _ _ => contradiction
    | refused _ _ _ => contradiction
    | created _ free made =>
      obtain ⟨id, grown⟩ := creates.expose _ _ _ _ _ _ made
      cases created
      have found := find_new first grown rfl rfl free
      exact ⟨_, getParameter_last found, rfl⟩
  | cons b rest ih =>
    obtain ⟨l, symbol⟩ := symbol_of_created request created
    subst symbol
    cases found : rcp.serverFindGroup s l g with
    | some q =>
      obtain ⟨child, group⟩ := (finds_of_first first).group s l g q found
      obtain ⟨ahead, later⟩ := (clear_found found).mp clear
      rw [exposeFrom_found request b rest rfl found] at created ⊢
      have all := groupsMade_of_clear s (some q.ptr) b rest later
      have lookup := find_kept first creates request s tree g q child group b rest all l
      rw [getParameter_into b rest (lookup.trans ahead) group]
      exact ih s tree (some q.ptr) b created later
    | none =>
      cases made : rcp.serverCreateGroup s l g with
      | mk next group =>
        obtain ⟨⟨n, ahead, is_new⟩, later⟩ := (clear_made found made).mp clear
        subst is_new
        obtain ⟨id, grown⟩ := creates.group _ _ _ _ _ made
        have tree_next := grown_tree grown tree
        have child := (finds_of_first first).child next l g n ahead
        have is_new := same_of_ptr tree_next child.1 ((grown_mem grown).mpr (.inl rfl)) rfl
        have group : n.isGroup = true := is_new ▸ rfl
        rw [exposeFrom_made request b rest rfl found made] at created ⊢
        have all := groupsMade_of_clear next (some n.ptr) b rest later
        have lookup := find_kept first creates request next tree_next g n child group b rest all l
        rw [getParameter_into b rest (lookup.trans ahead) group]
        exact ih next tree_next (some n.ptr) b created later

/-- A list that finds the parameter it made has gone through groups, since going past
    anything else would end nearer to the start. -/
theorem through_of_found (s : S) (tree : Tree (rcp.parameters s)) (g : Option Nat) (a : Atom)
    (rest : List Atom) (p : Parameter) (all : GroupsMade rcp s g a rest)
    (created : (exposeFrom rcp request s g a rest).created = some p.ptr)
    (found : getParameter rcp (exposeFrom rcp request s g a rest).server (a :: rest) g = some p) :
    Through rcp (exposeFrom rcp request s g a rest).server g (a :: rest) ∧
      LabelPath (rcp.parameters (exposeFrom rcp request s g a rest).server) g
        ((a :: rest).map getAsString) p := by
  have finds := finds_of_first first
  have final := growth_tree (exposeFrom_growth creates request s g a rest) tree
  have whole := whole_of_created request s g a rest p.ptr all created
  obtain ⟨q, made, _, path⟩ := whole_as_requested finds creates request s g a rest whole
  obtain ⟨ls, walked, _, short, _⟩ := getParameter_path finds.child found
  have ptr : q.ptr = p.ptr := Option.some.inj (made.symm.trans created)
  have same := same_of_ptr final (labelPath_inside path) (labelPath_inside walked) ptr
  subst same
  refine ⟨?_, path⟩
  by_contra off
  have fewer := short off
  rw [labelPath_length final walked path, List.length_map] at fewer
  exact Nat.lt_irrefl _ fewer

theorem step_of_found (s : S) (tree : Tree (rcp.parameters s)) (r : Nat) (b : Atom)
    (rest : List Atom) (p q : Parameter) (all : GroupsMade rcp s (some r) b rest)
    (created : (exposeFrom rcp request s (some r) b rest).created = some p.ptr)
    (found : getParameter rcp (exposeFrom rcp request s (some r) b rest).server (b :: rest)
      (some q.ptr) = some p)
    (through : Through rcp (exposeFrom rcp request s (some r) b rest).server (some q.ptr)
      (b :: rest)) : q.ptr = r := by
  have finds := finds_of_first first
  have final := growth_tree (exposeFrom_growth creates request s (some r) b rest) tree
  have whole := whole_of_created request s (some r) b rest p.ptr all created
  obtain ⟨p', made, _, path⟩ := whole_as_requested finds creates request s (some r) b rest whole
  obtain ⟨ls, walked, all, _⟩ := getParameter_path finds.child found
  have ptr : p'.ptr = p.ptr := Option.some.inj (made.symm.trans created)
  have same := same_of_ptr final (labelPath_inside path) (labelPath_inside walked) ptr
  subst same
  have length : ls.length = ((b :: rest).map getAsString).length := by
    rw [List.length_map, all through, List.length_map]
  exact Option.some.inj (labelPath_top final walked path length)

theorem clear_of_found (s : S) (tree : Tree (rcp.parameters s)) (g : Option Nat) (a : Atom)
    (rest : List Atom) (p : Parameter) (all : GroupsMade rcp s g a rest)
    (created : (exposeFrom rcp request s g a rest).created = some p.ptr)
    (found : getParameter rcp (exposeFrom rcp request s g a rest).server (a :: rest) g = some p) :
    Clear rcp s g a rest := by
  induction rest generalizing s g a with
  | nil =>
    obtain ⟨l, _, symbol, _⟩ := getParameter_step found
    rw [symbol]
    rfl
  | cons b rest ih =>
    have final := growth_tree (exposeFrom_growth creates request s g a (b :: rest)) tree
    obtain ⟨through, _⟩ := through_of_found first creates request s tree g a (b :: rest) p all
      created found
    obtain ⟨l, q, symbol, ahead, tail⟩ := getParameter_step found
    subst symbol
    obtain ⟨group, through⟩ := (through_cons b rest ahead).mp through
    rw [if_pos group, getParameter_cons] at tail
    cases inside : rcp.serverFindGroup s l g with
    | some r =>
      obtain ⟨child, isGroup⟩ := (finds_of_first first).group s l g r inside
      have later := (groupsMade_found inside).mp all
      have same : exposeFrom rcp request s g (.symbol l) (b :: rest) =
          exposeFrom rcp request s (some r.ptr) b rest :=
        exposeFrom_found request b rest rfl inside
      have kept := exposeFrom_keeps creates request same child.1
      have reached := ((finds_of_first first).child _ l g q ahead).1
      rw [same] at created ahead tail through final kept reached
      have ptr := step_of_found first creates request s tree r.ptr b rest p q later created tail
        through
      have is_group := same_of_ptr final reached kept ptr
      subst is_group
      have lookup := find_kept first creates request s tree g q child isGroup b rest later l
      exact (clear_found inside).mpr
        ⟨lookup.symm.trans ahead, ih s tree (some q.ptr) b later created tail⟩
    | none =>
      cases made : rcp.serverCreateGroup s l g with
      | mk next made_group =>
        obtain ⟨some_group, later⟩ := (groupsMade_made inside made).mp all
        obtain ⟨r, eq⟩ := Option.ne_none_iff_exists'.mp some_group
        subst eq
        obtain ⟨id, grown⟩ := creates.group _ _ _ _ _ made
        have tree_next := grown_tree grown tree
        have same : exposeFrom rcp request s g (.symbol l) (b :: rest) =
            exposeFrom rcp request next (some r) b rest :=
          exposeFrom_made request b rest rfl inside made
        have new := (grown_mem grown).mpr (.inl rfl)
        have kept := exposeFrom_keeps creates request same new
        have reached := ((finds_of_first first).child _ l g q ahead).1
        rw [same] at created ahead tail through final kept reached
        have ptr := step_of_found first creates request next tree_next r b rest p q later created
          tail through
        have is_new := same_of_ptr final reached kept ptr
        have child : IsChild (rcp.parameters next) l g q :=
          ⟨is_new ▸ new, by rw [is_new], by rw [is_new]⟩
        subst ptr
        have lookup := find_kept first creates request next tree_next g q child group b rest later l
        exact (clear_made inside made).mpr
          ⟨⟨q, lookup.symm.trans ahead, rfl⟩, ih next tree_next (some q.ptr) b later created tail⟩

end

theorem step_tree (creates : rcp.Creates) (removes : rcp.Removes) (s : S) (command : Command)
    (next : S × List Call) (tree : Tree (rcp.parameters s))
    (stepped : step rcp s command = some next) : Tree (rcp.parameters next.1) := by
  cases command with
  | expose argv =>
    cases stepped
    simp only [exposeParameter]
    split
    · exact tree
    · rename_i request _
      exact growth_tree (exposeFrom_growth creates request s none request.first request.rest) tree
  | removeId id =>
    cases stepped
    exact sublist_tree (removeParameter_sublist removes s id) tree
  | removeList argv =>
    cases stepped
    exact sublist_tree (removeParameterList_sublist removes s argv) tree

def FindsAgain (rcp : Rcp S) (request : Request) (exposed : Exposed S) : Prop :=
  ∃ p, getParameter rcp exposed.server (request.first :: request.rest) none = some p ∧
    exposed.created = some p.ptr

/-- Right after a command that makes a parameter, its path finds the parameter if the path
    is clear, and only if it is where every group asked for was made. -/
theorem addressable_iff (first : rcp.FindsFirst) (creates : rcp.Creates) (removes : rcp.Removes)
    (start s : S) (empty : rcp.parameters start = []) (commands : List Command)
    (ran : Runs.run (step rcp) start commands = some s) (argv : List Atom) (request : Request)
    (read : readRequest argv = .ok request)
    (created : (exposeParameter rcp s argv).created ≠ none) :
    (GroupsMade rcp s none request.first request.rest →
      (FindsAgain rcp request (exposeParameter rcp s argv) ↔
        Clear rcp s none request.first request.rest)) ∧
    (Clear rcp s none request.first request.rest →
      FindsAgain rcp request (exposeParameter rcp s argv)) := by
  have start_tree : Tree (rcp.parameters start) := by
    rw [empty]
    exact empty_tree
  have tree : Tree (rcp.parameters s) :=
    Runs.run_keeps (fun t command next kept stepped =>
      step_tree creates removes t command next kept stepped) start_tree ran
  obtain ⟨ptr, created⟩ := Option.ne_none_iff_exists'.mp created
  simp only [exposeParameter, read, FindsAgain] at created ⊢
  have enough : Clear rcp s none request.first request.rest →
      FindsAgain rcp request (exposeRequest rcp s request) := by
    intro clear
    obtain ⟨p, found, same⟩ := found_of_clear first creates request s tree none request.first
      request.rest ptr created clear
    exact ⟨p, found, same ▸ created⟩
  refine ⟨fun all => ⟨?_, enough⟩, enough⟩
  rintro ⟨p, found, same⟩
  exact clear_of_found first creates request s tree none request.first request.rest p all
    same found

open ListManager

theorem new_path_found :
    ∃ p, getParameter listManager
      (exposeParameter listManager [] [letterF, .symbol nameA, .symbol nameB]).server
      [.symbol nameA, .symbol nameB] none = some p ∧ some 2 = some p.ptr :=
  (addressable_iff listManager_first listManager_creates listManager_removes [] [] rfl [] rfl
    [letterF, .symbol nameA, .symbol nameB] _ rfl (Option.some_ne_none 2)).2
    ⟨⟨⟨1, 1, .group, some nameA, none⟩, rfl, rfl⟩, rfl⟩

/-- A number is taken as a label and refused as a path; and where a value `a` is listed
    first, the group made beside it is never entered. -/
theorem label_not_found :
    (∃ ptr, (exposeParameter listManager [] [letterF, .int 7]).created = some ptr) ∧
    getParameter listManager (exposeParameter listManager [] [letterF, .int 7]).server
      [.int 7] none = none ∧
    (∃ s, Runs.run (step listManager) [] [.expose [letterF, .symbol nameA]] = some s ∧
      (exposeParameter listManager s [letterF, .symbol nameA, .symbol nameB]).created = some 3 ∧
      getParameter listManager
        (exposeParameter listManager s [letterF, .symbol nameA, .symbol nameB]).server
        [.symbol nameA, .symbol nameB] none = none) := by
  exact ⟨⟨1, by decide⟩, rfl, _, rfl, rfl, rfl⟩

end ExposeAddress
