import RcpFlext.Expose

/- expose as one operation: the parameter under exactly the path asked for, or the tree as
   it was. Groups are made one by one in front of everything that can still go wrong, and a
   group that could not be made is the root for the rest of the path. -/
namespace ExposeWhole
open Atoms Datatypes ParameterTree PathLookup Expose

variable {S : Type} (rcp : Rcp S)

/-- Every group missing on the path and then the parameter are made. -/
def Whole (type : Datatype) (s : S) (g : Option Nat) : Atom → List Atom → Prop
  | a, [] => (getAsString a).isEmpty = false ∧
      rcp.managerFindParameter s (getAsString a) g = none ∧
      (rcp.serverExpose s type (getAsString a) g).2 ≠ none
  | a, b :: rest => isString a = true ∧
      match rcp.serverFindGroup s (getAsString a) g with
      | some group => Whole type s (some group.ptr) b rest
      | none =>
        match rcp.serverCreateGroup s (getAsString a) g with
        | (next, group) => group ≠ none ∧ Whole type next group b rest

/-- No call that would make something returns a parameter. -/
def Nothing (type : Datatype) (s : S) (g : Option Nat) : Atom → List Atom → Prop
  | a, [] => (getAsString a).isEmpty = true ∨
      rcp.managerFindParameter s (getAsString a) g ≠ none ∨
      (rcp.serverExpose s type (getAsString a) g).2 = none
  | a, b :: rest => isString a = true →
      match rcp.serverFindGroup s (getAsString a) g with
      | some group => Nothing type s (some group.ptr) b rest
      | none =>
        match rcp.serverCreateGroup s (getAsString a) g with
        | (next, group) => group = none ∧ Nothing type next group b rest

def GroupsMade (s : S) (g : Option Nat) : Atom → List Atom → Prop
  | _, [] => True
  | a, b :: rest =>
    match rcp.serverFindGroup s (getAsString a) g with
    | some group => GroupsMade s (some group.ptr) b rest
    | none =>
      match rcp.serverCreateGroup s (getAsString a) g with
      | (next, group) => group ≠ none ∧ GroupsMade next group b rest

def AsRequested (request : Request) (exposed : Exposed S) : Prop :=
  ∃ p, exposed.created = some p.ptr ∧ p.type = request.type ∧
    LabelPath (rcp.parameters exposed.server) none
      ((request.first :: request.rest).map getAsString) p

def AllOrNothing (s : S) (argv : List Atom) : Prop :=
  (∃ request, readRequest argv = .ok request ∧
    AsRequested rcp request (exposeParameter rcp s argv)) ∨
  rcp.parameters (exposeParameter rcp s argv).server = rcp.parameters s

variable {rcp}

section
variable {type : Datatype} {s next : S} {g group : Option Nat} {a b : Atom} {rest : List Atom}
  {found : Parameter}

theorem whole_found (string : isString a = true)
    (inside : rcp.serverFindGroup s (getAsString a) g = some found) :
    Whole rcp type s g a (b :: rest) ↔ Whole rcp type s (some found.ptr) b rest := by
  simp [Whole, string, inside]

theorem whole_made (string : isString a = true)
    (missing : rcp.serverFindGroup s (getAsString a) g = none)
    (made : rcp.serverCreateGroup s (getAsString a) g = (next, group)) :
    Whole rcp type s g a (b :: rest) ↔ group ≠ none ∧ Whole rcp type next group b rest := by
  simp [Whole, string, missing, made]

theorem nothing_found (string : isString a = true)
    (inside : rcp.serverFindGroup s (getAsString a) g = some found) :
    Nothing rcp type s g a (b :: rest) ↔ Nothing rcp type s (some found.ptr) b rest := by
  simp [Nothing, string, inside]

theorem nothing_made (string : isString a = true)
    (missing : rcp.serverFindGroup s (getAsString a) g = none)
    (made : rcp.serverCreateGroup s (getAsString a) g = (next, group)) :
    Nothing rcp type s g a (b :: rest) ↔ group = none ∧ Nothing rcp type next group b rest := by
  simp [Nothing, string, missing, made]

theorem groupsMade_found (inside : rcp.serverFindGroup s (getAsString a) g = some found) :
    GroupsMade rcp s g a (b :: rest) ↔ GroupsMade rcp s (some found.ptr) b rest := by
  simp [GroupsMade, inside]

theorem groupsMade_made (missing : rcp.serverFindGroup s (getAsString a) g = none)
    (made : rcp.serverCreateGroup s (getAsString a) g = (next, group)) :
    GroupsMade rcp s g a (b :: rest) ↔ group ≠ none ∧ GroupsMade rcp next group b rest := by
  simp [GroupsMade, missing, made]

end

def exposeFrom (rcp : Rcp S) (request : Request) (s : S) (g : Option Nat) (a : Atom)
    (rest : List Atom) : Exposed S :=
  exposeIn rcp request (createGroups rcp s g a rest)

section
variable (request : Request) {s next : S} {g group : Option Nat} {a : Atom} (b : Atom)
  (rest : List Atom)

theorem exposeFrom_last (rcp : Rcp S) (s : S) (g : Option Nat) (a : Atom) :
    Ends rcp request ⟨s, g, getAsString a, []⟩ (exposeFrom rcp request s g a []) :=
  exposeIn_ends rcp request (createGroups rcp s g a [])

theorem exposeFrom_other (other : isString a = false) :
    (exposeFrom rcp request s g a (b :: rest)).created = none ∧
      (exposeFrom rcp request s g a (b :: rest)).server = s := by
  rw [exposeFrom, createGroups_other other]
  exact ⟨rfl, rfl⟩

theorem exposeFrom_found {found : Parameter} (string : isString a = true)
    (inside : rcp.serverFindGroup s (getAsString a) g = some found) :
    exposeFrom rcp request s g a (b :: rest) =
      exposeFrom rcp request s (some found.ptr) b rest := by
  rw [exposeFrom, createGroups_found string inside, exposeFrom]

theorem exposeFrom_made (string : isString a = true)
    (missing : rcp.serverFindGroup s (getAsString a) g = none)
    (made : rcp.serverCreateGroup s (getAsString a) g = (next, group)) :
    exposeFrom rcp request s g a (b :: rest) = exposeFrom rcp request next group b rest := by
  rw [exposeFrom, createGroups_made string missing made, exposeFrom]

end

section
variable (finds : rcp.Finds) (creates : rcp.Creates) (request : Request)
include creates

theorem exposeFrom_growth (s : S) (g : Option Nat) (a : Atom) (rest : List Atom) :
    Growth (rcp.parameters s) (rcp.parameters (exposeFrom rcp request s g a rest).server) :=
  growth_trans (createGroups_growth creates s g a rest) (ends_growth creates (exposeIn_ends _ _ _))

theorem exposeFrom_keeps {s next : S} {g group : Option Nat} {a b : Atom} {rest : List Atom}
    {p : Parameter} (same : exposeFrom rcp request s g a (b :: rest) =
      exposeFrom rcp request next group b rest) (inside : p ∈ rcp.parameters next) :
    p ∈ rcp.parameters (exposeFrom rcp request s g a (b :: rest)).server := by
  rw [same]
  exact (growth_sublist (exposeFrom_growth creates request next group b rest)).subset inside

include finds in
theorem whole_as_requested (s : S) (g : Option Nat) (a : Atom) (rest : List Atom)
    (whole : Whole rcp request.type s g a rest) :
    ∃ p, (exposeFrom rcp request s g a rest).created = some p.ptr ∧ p.type = request.type ∧
      LabelPath (rcp.parameters (exposeFrom rcp request s g a rest).server) g
        ((a :: rest).map getAsString) p := by
  induction rest generalizing s g a with
  | nil =>
    obtain ⟨some_label, free, made⟩ := whole
    have ends := exposeFrom_last request rcp s g a
    generalize exposeFrom rcp request s g a [] = exposed at ends ⊢
    cases ends with
    | unlabelled empty => exact absurd empty (by simp [some_label])
    | taken _ found => exact absurd found (by simp [free])
    | refused _ _ refused => exact absurd (congrArg Prod.snd refused) made
    | created _ _ made =>
      obtain ⟨id, grown⟩ := creates.expose _ _ _ _ _ _ made
      exact ⟨_, rfl, rfl, .child ⟨(grown_mem grown).mpr (.inl rfl), rfl, rfl⟩⟩
  | cons b rest ih =>
    have string := whole.1
    cases found : rcp.serverFindGroup s (getAsString a) g with
    | some group =>
      have same := exposeFrom_found request b rest string found
      obtain ⟨p, created, type, path⟩ := ih s (some group.ptr) b ((whole_found string found).mp whole)
      obtain ⟨child, isGroup⟩ := finds.group s _ g group found
      have kept := exposeFrom_keeps creates request same child.1
      rw [same] at kept ⊢
      exact ⟨p, created, type, labelPath_cons ⟨kept, child.2⟩ isGroup path⟩
    | none =>
      cases made : rcp.serverCreateGroup s (getAsString a) g with
      | mk next group =>
        obtain ⟨some_group, later⟩ := (whole_made string found made).mp whole
        obtain ⟨ptr, eq⟩ := Option.ne_none_iff_exists'.mp some_group
        subst eq
        have same := exposeFrom_made request b rest string found made
        obtain ⟨p, created, type, path⟩ := ih next (some ptr) b later
        obtain ⟨id, grown⟩ := creates.group _ _ _ _ _ made
        have new := (grown_mem grown).mpr (.inl rfl)
        have kept := exposeFrom_keeps creates request same new
        rw [same] at kept ⊢
        exact ⟨p, created, type, labelPath_cons ⟨kept, rfl, rfl⟩ rfl path⟩

theorem nothing_same (s : S) (g : Option Nat) (a : Atom) (rest : List Atom)
    (nothing : Nothing rcp request.type s g a rest) :
    rcp.parameters (exposeFrom rcp request s g a rest).server = rcp.parameters s := by
  induction rest generalizing s g a with
  | nil =>
    have ends := exposeFrom_last request rcp s g a
    generalize exposeFrom rcp request s g a [] = exposed at ends ⊢
    cases ends with
    | unlabelled _ => rfl
    | taken _ _ => rfl
    | refused _ _ refused => exact creates.no_expose _ _ _ _ _ refused
    | created some_label free made =>
      rcases nothing with empty | taken | refused
      · exact absurd empty (by simp [some_label])
      · exact absurd free taken
      · exact absurd ((congrArg Prod.snd made).symm.trans refused) (by simp)
  | cons b rest ih =>
    cases string : isString a with
    | false =>
      exact congrArg rcp.parameters (exposeFrom_other request b rest string).2
    | true =>
      cases found : rcp.serverFindGroup s (getAsString a) g with
      | some group =>
        rw [exposeFrom_found request b rest string found]
        exact ih s (some group.ptr) b ((nothing_found string found).mp nothing)
      | none =>
        cases made : rcp.serverCreateGroup s (getAsString a) g with
        | mk next group =>
          obtain ⟨no_group, later⟩ := (nothing_made string found made).mp nothing
          subst no_group
          rw [exposeFrom_made request b rest string found made, ← creates.no_group _ _ _ _ made]
          exact ih next none b later

theorem nothing_of_same (s : S) (g : Option Nat) (a : Atom) (rest : List Atom)
    (same : (rcp.parameters (exposeFrom rcp request s g a rest).server).length ≤
      (rcp.parameters s).length) : Nothing rcp request.type s g a rest := by
  induction rest generalizing s g a with
  | nil =>
    have ends := exposeFrom_last request rcp s g a
    generalize exposeFrom rcp request s g a [] = exposed at ends same
    cases ends with
    | unlabelled empty => exact .inl empty
    | taken _ found => exact .inr (.inl (fun free => absurd (found.symm.trans free) (by simp)))
    | refused _ _ made => exact .inr (.inr (congrArg Prod.snd made))
    | created _ _ made =>
      obtain ⟨id, grown⟩ := creates.expose _ _ _ _ _ _ made
      have longer := grown_length grown
      exact absurd (Nat.le_trans (Nat.le_of_eq longer.symm) same) (Nat.not_succ_le_self _)
  | cons b rest ih =>
    intro string
    cases found : rcp.serverFindGroup s (getAsString a) g with
    | some group =>
      rw [exposeFrom_found request b rest string found] at same
      exact ih s (some group.ptr) b same
    | none =>
      cases made : rcp.serverCreateGroup s (getAsString a) g with
      | mk next group =>
        rw [exposeFrom_made request b rest string found made] at same
        cases group with
        | none =>
          rw [← creates.no_group _ _ _ _ made] at same
          exact ⟨rfl, ih next none b same⟩
        | some ptr =>
          obtain ⟨id, grown⟩ := creates.group _ _ _ _ _ made
          have longer := grown_length grown
          have later := growth_sublist (exposeFrom_growth creates request next (some ptr) b rest)
          have most := Nat.le_trans later.length_le same
          rw [longer] at most
          exact absurd most (Nat.not_succ_le_self _)

omit creates in
theorem whole_of_created_last (s : S) (g : Option Nat) (a : Atom) (ptr : Nat)
    (created : (exposeFrom rcp request s g a []).created = some ptr) :
    Whole rcp request.type s g a [] := by
  have ends := exposeFrom_last request rcp s g a
  generalize exposeFrom rcp request s g a [] = exposed at ends created
  cases ends with
  | unlabelled _ => contradiction
  | taken _ _ => contradiction
  | refused _ _ _ => contradiction
  | created some_label free made =>
    refine ⟨some_label, free, ?_⟩
    have made_eq : (rcp.serverExpose s request.type (getAsString a) g).2 = _ :=
      congrArg Prod.snd made
    rw [made_eq]
    exact Option.some_ne_none _

include finds in
/-- A parameter made without everything being made lies nearer to the root than the path
    is long: some group of the path was not made. -/
theorem created_whole_or_short (s : S) (g : Option Nat) (a : Atom) (rest : List Atom) (ptr : Nat)
    (created : (exposeFrom rcp request s g a rest).created = some ptr) :
    Whole rcp request.type s g a rest ∨ ∃ ls p, p.ptr = ptr ∧
      LabelPath (rcp.parameters (exposeFrom rcp request s g a rest).server) none ls p ∧
      ls.length < (a :: rest).length := by
  induction rest generalizing s g a with
  | nil => exact .inl (whole_of_created_last request s g a ptr created)
  | cons b rest ih =>
    cases string : isString a with
    | false =>
      rw [(exposeFrom_other request b rest string).1] at created
      contradiction
    | true =>
      cases found : rcp.serverFindGroup s (getAsString a) g with
      | some group =>
        rw [whole_found string found]
        rw [exposeFrom_found request b rest string found] at created ⊢
        rcases ih s (some group.ptr) b created with whole | ⟨ls, p, same, path, short⟩
        · exact .inl whole
        · exact .inr ⟨ls, p, same, path, Nat.lt_succ_of_lt short⟩
      | none =>
        cases made : rcp.serverCreateGroup s (getAsString a) g with
        | mk next group =>
          rw [whole_made string found made]
          rw [exposeFrom_made request b rest string found made] at created ⊢
          rcases ih next group b created with whole | ⟨ls, p, same, path, short⟩
          · cases group with
            | some ptr => exact .inl ⟨Option.some_ne_none ptr, whole⟩
            | none =>
              right
              obtain ⟨p, made_here, _, path⟩ :=
                whole_as_requested finds creates request next none b rest whole
              have same := Option.some.inj (made_here.symm.trans created)
              exact ⟨_, p, same, path, by simp⟩
          · exact .inr ⟨ls, p, same, path, Nat.lt_succ_of_lt short⟩

omit creates in
theorem whole_of_created (s : S) (g : Option Nat) (a : Atom) (rest : List Atom) (ptr : Nat)
    (all : GroupsMade rcp s g a rest)
    (created : (exposeFrom rcp request s g a rest).created = some ptr) :
    Whole rcp request.type s g a rest := by
  induction rest generalizing s g a with
  | nil => exact whole_of_created_last request s g a ptr created
  | cons b rest ih =>
    cases string : isString a with
    | false =>
      rw [(exposeFrom_other request b rest string).1] at created
      contradiction
    | true =>
      cases found : rcp.serverFindGroup s (getAsString a) g with
      | some group =>
        rw [exposeFrom_found request b rest string found] at created
        have later := (groupsMade_found found).mp all
        exact (whole_found string found).mpr (ih s (some group.ptr) b later created)
      | none =>
        cases made : rcp.serverCreateGroup s (getAsString a) g with
        | mk next group =>
          rw [exposeFrom_made request b rest string found made] at created
          obtain ⟨some_group, later⟩ := (groupsMade_made found made).mp all
          exact (whole_made string found made).mpr ⟨some_group, ih next group b later created⟩

end

/-- expose is all or nothing exactly when everything missing is made or nothing is. -/
theorem all_or_nothing_iff (finds : rcp.Finds) (creates : rcp.Creates) (s : S)
    (tree : Tree (rcp.parameters s)) (argv : List Atom) :
    AllOrNothing rcp s argv ↔ ∀ request, readRequest argv = .ok request →
      Whole rcp request.type s none request.first request.rest ∨
        Nothing rcp request.type s none request.first request.rest := by
  unfold AllOrNothing exposeParameter
  cases read : readRequest argv with
  | error call => simp
  | ok request =>
    simp only [Except.ok.injEq, exists_eq_left', forall_eq']
    have created : (exposeRequest rcp s request).created =
        (exposeFrom rcp request s none request.first request.rest).created := rfl
    have server : (exposeRequest rcp s request).server =
        (exposeFrom rcp request s none request.first request.rest).server := rfl
    unfold AsRequested
    rw [created, server]
    constructor
    · rintro (⟨p, made, _, path⟩ | same)
      · left
        rcases created_whole_or_short finds creates request s none request.first request.rest
          p.ptr made with whole | ⟨ls, q, ptr, other, short⟩
        · exact whole
        · have final := growth_tree
            (exposeFrom_growth creates request s none request.first request.rest) tree
          have same := same_of_ptr final (labelPath_inside other) (labelPath_inside path) ptr
          subst same
          rw [labelPath_length final other path, List.length_map] at short
          exact absurd short (Nat.lt_irrefl _)
      · right
        apply nothing_of_same creates request s none request.first request.rest
        rw [same]
    · rintro (whole | nothing)
      · exact .inl (whole_as_requested finds creates request s none request.first request.rest whole)
      · exact .inr (nothing_same creates request s none request.first request.rest nothing)

open ListManager

theorem value_in_new_group :
    AllOrNothing listManager [] [letterF, .symbol nameA, .symbol nameB] := by
  apply (all_or_nothing_iff (finds_of_first listManager_first) listManager_creates [] empty_tree
    [letterF, .symbol nameA, .symbol nameB]).mpr
  intro request read
  cases read
  left
  exact ⟨rfl, Option.some_ne_none _, rfl, rfl, Option.some_ne_none _⟩

/-- `expose f a 7 b` makes the group `a` and then refuses the 7. -/
theorem group_left_behind :
    (exposeParameter listManager [] [letterF, .symbol nameA, .int 7, .symbol nameB]).server =
        [⟨1, 1, .group, some nameA, none⟩] ∧
      ¬ AllOrNothing listManager [] [letterF, .symbol nameA, .int 7, .symbol nameB] := by
  have left_behind :
      (exposeParameter listManager [] [letterF, .symbol nameA, .int 7, .symbol nameB]).server =
        [⟨1, 1, .group, some nameA, none⟩] := rfl
  refine ⟨left_behind, ?_⟩
  rintro (⟨request, read, p, created, _⟩ | same)
  · contradiction
  · have none_left : (exposeParameter listManager [] [letterF, .symbol nameA, .int 7,
        .symbol nameB]).server = [] := same
    rw [left_behind] at none_left
    contradiction

end ExposeWhole
