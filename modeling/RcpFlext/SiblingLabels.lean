import RcpFlext.Expose

/- Unique sibling labels on the server. The last label is looked up before it is used; the
   groups on the way are looked up among groups only, so a value of that name is no
   obstacle to a new group. -/
namespace SiblingLabels
open Atoms ParameterTree PathLookup Expose

variable {S : Type} (rcp : Rcp S)

/-- No group on the path is made beside a parameter of the same name. -/
def Unshadowed (s : S) (lastGroup : Option Nat) : Atom → List Atom → Prop
  | _, [] => True
  | a, b :: rest =>
    isString a = true →
      match rcp.serverFindGroup s (getAsString a) lastGroup with
      | some group => Unshadowed s (some group.ptr) b rest
      | none =>
        match rcp.serverCreateGroup s (getAsString a) lastGroup with
        | (next, group) =>
          (group ≠ none → rcp.managerFindParameter s (getAsString a) lastGroup = none) ∧
            Unshadowed next group b rest

def Careful (s : S) : Command → Prop
  | .expose argv => ∀ request, readRequest argv = .ok request →
      Unshadowed rcp s none request.first request.rest
  | _ => True

variable {rcp}

theorem unshadowed_found {s : S} {g : Option Nat} {a b : Atom} {rest : List Atom}
    {group : Parameter} (string : isString a = true)
    (found : rcp.serverFindGroup s (getAsString a) g = some group) :
    Unshadowed rcp s g a (b :: rest) ↔ Unshadowed rcp s (some group.ptr) b rest := by
  simp [Unshadowed, string, found]

theorem unshadowed_made {s next : S} {g group : Option Nat} {a b : Atom} {rest : List Atom}
    (string : isString a = true) (missing : rcp.serverFindGroup s (getAsString a) g = none)
    (made : rcp.serverCreateGroup s (getAsString a) g = (next, group)) :
    Unshadowed rcp s g a (b :: rest) ↔
      (group ≠ none → rcp.managerFindParameter s (getAsString a) g = none) ∧
        Unshadowed rcp next group b rest := by
  simp [Unshadowed, string, missing, made]

theorem unique_grown_iff {ps qs : List Parameter} {new : Parameter} (grown : Grown ps new qs) :
    UniqueSiblings qs ↔
      UniqueSiblings ps ∧ ∀ p ∈ ps, p.parent = new.parent → p.label ≠ new.label := by
  obtain ⟨before, after, was, now⟩ := grown.inserted
  have symmetric : ∀ {x y : Parameter}, (x.parent = y.parent → x.label ≠ y.label) →
      y.parent = x.parent → y.label ≠ x.label :=
    fun distinct parent label => distinct parent.symm label.symm
  unfold UniqueSiblings
  rw [was, now, List.pairwise_middle symmetric, List.pairwise_cons, and_comm]
  apply and_congr_right
  intro _
  constructor
  · intro distinct p inside parent label
    exact distinct p inside parent.symm label.symm
  · intro distinct p inside parent label
    exact distinct p inside parent.symm label.symm

theorem unique_new_iff (finds : rcp.Finds) {s s' : S} {new : Parameter} {l : CString}
    (grown : Grown (rcp.parameters s) new (rcp.parameters s')) (label : new.label = some l) :
    UniqueSiblings (rcp.parameters s') ↔ UniqueSiblings (rcp.parameters s) ∧
      rcp.managerFindParameter s l new.parent = none := by
  rw [unique_grown_iff grown, label]
  apply and_congr_right
  intro _
  constructor
  · intro distinct
    cases found : rcp.managerFindParameter s l new.parent with
    | none => rfl
    | some p =>
      obtain ⟨inside, named, under⟩ := finds.child s l new.parent p found
      exact absurd named (distinct p inside under)
  · intro free p inside under named
    exact absurd free (finds.every s l new.parent p ⟨inside, named, under⟩)

/-- The walk that makes groups keeps labels unique exactly when nothing is shadowed. -/
theorem createGroups_unique_iff (finds : rcp.Finds) (creates : rcp.Creates) (s : S)
    (g : Option Nat) (a : Atom) (rest : List Atom) (unique : UniqueSiblings (rcp.parameters s)) :
    UniqueSiblings (rcp.parameters (createGroups rcp s g a rest).server) ↔
      Unshadowed rcp s g a rest := by
  induction rest generalizing s g a with
  | nil => exact ⟨fun _ => trivial, fun _ => unique⟩
  | cons b rest ih =>
    cases string : isString a with
    | false =>
      rw [createGroups_other string]
      simp only [Unshadowed, string, Bool.false_eq_true, false_implies, iff_true]
      exact unique
    | true =>
      cases found : rcp.serverFindGroup s (getAsString a) g with
      | some group =>
        rw [createGroups_found string found, unshadowed_found string found]
        exact ih s (some group.ptr) b unique
      | none =>
        cases made : rcp.serverCreateGroup s (getAsString a) g with
        | mk next group =>
          rw [createGroups_made string found made, unshadowed_made string found made]
          cases group with
          | none =>
            have same := creates.no_group _ _ _ _ made
            have later := ih next none b (same ▸ unique)
            rw [later]
            exact (and_iff_right (fun some_group => absurd rfl some_group)).symm
          | some ptr =>
            obtain ⟨id, grown⟩ := creates.group _ _ _ _ _ made
            have step := unique_new_iff finds grown rfl
            constructor
            · intro later
              have unique_next : UniqueSiblings (rcp.parameters next) :=
                later.sublist (growth_sublist (createGroups_growth creates next (some ptr) b rest))
              exact ⟨fun _ => (step.mp unique_next).2, (ih next (some ptr) b unique_next).mp later⟩
            · intro free
              have unique_next := step.mpr ⟨unique, free.1 (by simp)⟩
              exact (ih next (some ptr) b unique_next).mpr free.2

theorem ends_unique_iff (finds : rcp.Finds) (creates : rcp.Creates) {request : Request}
    {groups : Groups S} {exposed : Exposed S} (ends : Ends rcp request groups exposed) :
    UniqueSiblings (rcp.parameters exposed.server) ↔
      UniqueSiblings (rcp.parameters groups.server) := by
  cases ends with
  | unlabelled _ => rfl
  | taken _ _ => rfl
  | refused _ _ made => rw [creates.no_expose _ _ _ _ _ made]
  | created _ free made =>
    obtain ⟨id, grown⟩ := creates.expose _ _ _ _ _ _ made
    rw [unique_new_iff finds grown rfl]
    exact and_iff_left free

theorem step_unique_iff (finds : rcp.Finds) (creates : rcp.Creates) (removes : rcp.Removes)
    (s : S) (command : Command) (next : S × List Call)
    (unique : UniqueSiblings (rcp.parameters s)) (stepped : step rcp s command = some next) :
    UniqueSiblings (rcp.parameters next.1) ↔ Careful rcp s command := by
  cases command with
  | expose argv =>
    cases stepped
    simp only [Careful, exposeParameter]
    cases read : readRequest argv with
    | error call => simpa using unique
    | ok request =>
      simp only [exposeRequest, ends_unique_iff finds creates (exposeIn_ends _ _ _),
        Except.ok.injEq, forall_eq']
      exact createGroups_unique_iff finds creates s none request.first request.rest unique
  | removeId id =>
    cases stepped
    exact iff_of_true (unique.sublist (removeParameter_sublist removes s id)) trivial
  | removeList argv =>
    cases stepped
    exact iff_of_true (unique.sublist (removeParameterList_sublist removes s argv)) trivial

/-- From an empty server, labels stay unique among siblings exactly as long as no expose
    makes a group beside a parameter of the same name. -/
theorem unique_run_iff (finds : rcp.Finds) (creates : rcp.Creates) (removes : rcp.Removes)
    (s : S) (empty : rcp.parameters s = []) (commands : List Command) :
    Runs.Visits (step rcp) (fun t => UniqueSiblings (rcp.parameters t)) s commands ↔
      Runs.Steps (step rcp) (Careful rcp) s commands := by
  have start : UniqueSiblings (rcp.parameters s) := by
    rw [empty]
    exact List.Pairwise.nil
  exact Runs.visits_iff_steps (fun _ => True) (fun _ _ _ _ _ => trivial)
    (fun t command next _ unique stepped =>
      step_unique_iff finds creates removes t command next unique stepped) trivial start commands

open ListManager

theorem group_then_value_unique :
    Runs.Visits (step listManager) (fun t => UniqueSiblings (listManager.parameters t)) []
      [.expose [letterF, .symbol nameA, .symbol nameB]] := by
  apply (unique_run_iff (finds_of_first listManager_first) listManager_creates listManager_removes
    [] rfl _).mpr
  intro next _
  refine ⟨?_, trivial⟩
  intro request read
  cases read
  exact fun _ => ⟨fun _ => rfl, trivial⟩

/-- `expose f a` and then `expose f a b` give a value and a group of one name. -/
theorem group_beside_value :
    ∃ t, Runs.run (step listManager) []
        [.expose [letterF, .symbol nameA], .expose [letterF, .symbol nameA, .symbol nameB]] = some t ∧
      ¬ UniqueSiblings (listManager.parameters t) := by
  refine ⟨_, rfl, ?_⟩
  intro unique
  exact (List.pairwise_cons.mp unique).1 ⟨2, 2, .group, some nameA, none⟩ (by decide) rfl rfl

end SiblingLabels
