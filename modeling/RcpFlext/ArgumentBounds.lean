import RcpFlext.Indexing

/- Which messages make a handler read an atom that was not delivered with them. -/
namespace ArgumentBounds
open Atoms Datatypes ParameterTree ListManager Indexing

inductive Message where
  | list (first : Atom) (rest : List Atom)
  | any (sym : CString) (argv : List Atom)
  | expose (argv : List Atom)
  | remove (argv : List Atom)
  | setreadonly (argv : List Atom)
  | setorder (argv : List Atom)
  | setmin (argv : List Atom)
  | setmax (argv : List Atom)
  | setminmax (argv : List Atom)
  deriving DecidableEq

section
variable {S : Type} (rcp : Rcp S) (s : S)

/-- The handler on the message as it is delivered: with the new state and the calls it
    makes, or with the first index outside the message that it reads. -/
def handle : Message → Except Int (S × List Call)
  | .list first rest => (mList rcp s (first :: rest).length ⟨first :: rest, 0⟩).map (s, ·)
  | .any sym argv => (mAny rcp s sym argv.length ⟨argv, 0⟩).map (s, ·)
  | .expose argv => (exposeParameter rcp s argv.length ⟨argv, 0⟩).map fun exposed =>
      (exposed.server, exposed.calls)
  | .remove argv => removeParameterList rcp s argv.length ⟨argv, 0⟩
  | .setreadonly argv => (parameterSetReadonly rcp s argv.length ⟨argv, 0⟩).map (s, ·)
  | .setorder argv => (parameterSetOrder rcp s argv.length ⟨argv, 0⟩).map (s, ·)
  | .setmin argv => (parameterSetMin rcp s argv.length ⟨argv, 0⟩).map (s, ·)
  | .setmax argv => (parameterSetMax rcp s argv.length ⟨argv, 0⟩).map (s, ·)
  | .setminmax argv => (parameterSetMinMax rcp s argv.length ⟨argv, 0⟩).map (s, ·)

def Inside (m : Message) : Prop := ∃ out, handle rcp s m = .ok out

/-- A bare selector must not name a value parameter, and two commands must have arguments. -/
def Safe : Message → Prop
  | .any sym argv => argv = [] → ∀ p, rcp.managerFindParameter s sym none = some p →
      p.isValue = false
  | .setreadonly argv => argv ≠ []
  | .setorder argv => argv ≠ []
  | _ => True

end

section
variable {S : Type} {rcp : Rcp S} {s : S}

theorem last_inside {args : Input.Args} (some_atom : args.atoms ≠ [] ∨ args.before ≠ []) :
    ∃ a, args.last = some a := by
  obtain ⟨before, atoms⟩ := args
  cases atoms with
  | nil =>
    cases before with
    | nil => simp at some_atom
    | cons a before => exact ⟨a, rfl⟩
  | cons a atoms =>
    have place : ((a :: atoms).length : Int) - 1 = atoms.length := by
      rw [List.length_cons]
      omega
    refine ⟨(a :: atoms)[atoms.length], ?_⟩
    rw [Input.Args.last, place, Input.Args.at, if_pos (by omega), Int.toNat_natCast]
    exact List.getElem?_eq_getElem _

theorem assign_inside {args : Input.Args} (some_atom : args.atoms ≠ [] ∨ args.before ≠ [])
    (param : Option Parameter) : ∃ calls, Input.assign param args = some calls := by
  obtain ⟨a, last⟩ := last_inside some_atom
  exact ⟨_, by rw [Input.assign, last, Option.map_some]⟩

theorem input_inside {args : Input.Args} (some_atom : args.atoms ≠ [] ∨ args.before ≠ [])
    (parameter : Option Parameter) : ∃ calls, Input.input rcp s parameter args = some calls := by
  cases parameter with
  | none => exact ⟨_, rfl⟩
  | some p =>
    simp only [Input.input]
    split
    · split
      · split
        · exact ⟨_, rfl⟩
        · split
          · exact ⟨_, rfl⟩
          · exact assign_inside some_atom _
      · exact ⟨_, rfl⟩
    · split
      · exact ⟨_, rfl⟩
      · exact assign_inside some_atom _

theorem input_bare_iff (parameter : Option Parameter) :
    (∃ calls, Input.input rcp s parameter ⟨[], []⟩ = some calls) ↔
      ∀ p, parameter = some p → p.isValue = false := by
  cases parameter with
  | none => simp [Input.input]
  | some p =>
    by_cases group : p.isGroup = true
    · have not_value : p.isValue = false := by
        simp only [Parameter.isGroup, decide_eq_true_eq] at group
        simp [Parameter.isValue, group]
      simp [Input.input, group, not_value]
    · by_cases bang : p.type = .bang
      · have not_value : p.isValue = false := by simp [Parameter.isValue, bang]
        simp [Input.input, Parameter.isGroup, bang, not_value]
      · have value : p.isValue = true := by
          simp only [Parameter.isGroup, decide_eq_true_eq] at group
          simp [Parameter.isValue, group, bang]
        simp [Input.input_value value, Input.assign, Input.Args.last, Input.Args.at, value]

theorem mList_inside (first : Atom) (rest : List Atom) :
    ∃ calls, Input.mList rcp s (first :: rest) = some calls ∧
      mList rcp s (first :: rest).length ⟨first :: rest, 0⟩ = .ok calls := by
  obtain ⟨id, given⟩ : ∃ id : BitVec 16,
      (if canbeInt first = true then (getAInt first 0).setWidth 16 else 0) = id := ⟨_, rfl⟩
  obtain ⟨told, assigned⟩ := @assign_inside ⟨[], first :: rest⟩ (.inl (List.cons_ne_nil _ _))
    (rcp.managerGetParameter s id)
  obtain ⟨named, ended⟩ := @input_inside S rcp s ⟨[first], rest⟩ (.inr (List.cons_ne_nil _ _))
    (rcp.managerFindParameter s (getString first) none)
  have assigned' : assign (rcp.managerGetParameter s id) (first :: rest).length
      ⟨first :: rest, 0⟩ = .ok told := by
    have same := assign_argvOf (rcp.managerGetParameter s id) ⟨[], first :: rest⟩
    rw [assigned] at same
    exact same
  have ended' : input rcp s (rcp.managerFindParameter s (getString first) none)
      ((first :: rest).length - 1) (Argv.next ⟨first :: rest, 0⟩) = .ok named := by
    have same := @input_argvOf S rcp s (rcp.managerFindParameter s (getString first) none)
      ⟨[first], rest⟩
    rw [ended] at same
    have count : ((first :: rest).length : Int) - 1 = rest.length := by
      rw [List.length_cons]
      omega
    rw [count]
    exact same
  -- what both branches fall back on, where the id gave nothing
  have by_label : ∃ calls,
      (if isString first = true then
        Input.input rcp s (rcp.managerFindParameter s (getString first) none) ⟨[first], rest⟩
      else some []) = some calls ∧
      (if isString first = true then
        input rcp s (rcp.managerFindParameter s (getString first) none)
          ((first :: rest).length - 1) (Argv.next ⟨first :: rest, 0⟩)
      else .ok []) = .ok calls := by
    by_cases string : isString first = true
    · simp only [string, ↓reduceIte]
      exact ⟨named, ended, ended'⟩
    · simp only [string, Bool.false_eq_true, ↓reduceIte]
      exact ⟨[], rfl, rfl⟩
  have read : Argv.get ⟨first :: rest, 0⟩ 0 = .ok first := rfl
  have first_at : (⟨[], first :: rest⟩ : Input.Args).at 0 = some first := rfl
  have next : (⟨[], first :: rest⟩ : Input.Args).next = ⟨[first], rest⟩ := rfl
  simp only [mList, read, ok_bind, Input.mList, first_at, next, given]
  by_cases zero : id = 0
  · simp only [zero, ↓reduceIte, ne_eq, not_true_eq_false]
    exact by_label
  · simp only [zero, ↓reduceIte, assigned, assigned', ok_bind]
    cases told with
    | cons call calls => exact ⟨call :: calls, rfl, rfl⟩
    | nil =>
      simp only [ne_eq, not_true_eq_false, ↓reduceIte]
      exact by_label

theorem get_whole {argv : List Atom} {i : Int} (front : 0 ≤ i) (inside : i < argv.length) :
    ∃ a, Argv.get ⟨argv, 0⟩ i = .ok a := by
  have position : ((⟨argv, 0⟩ : Argv).offset + i).toNat < argv.length := by
    simp only [Nat.cast_zero, zero_add]
    omega
  refine ⟨argv[((⟨argv, 0⟩ : Argv).offset + i).toNat], ?_⟩
  rw [get_behind (by simpa using front)]
  simp only [List.getElem?_eq_getElem position]
  rfl

theorem getParameter_whole {argv : List Atom} {argc : Int} (short : argc.toNat ≤ argv.length)
    (g : Option Nat) : ∃ found, getParameter rcp s argc ⟨argv, 0⟩ g = .ok found := by
  have message : argv = [] ++ (argv.take argc.toNat ++ argv.drop argc.toNat) := by simp
  exact ⟨_, getParameter_eq _ message rfl (by simpa using short) g⟩

theorem last_and_path (a : Atom) (argv : List Atom) :
    ∃ v found, Argv.get ⟨a :: argv, 0⟩ ((a :: argv).length - 1) = .ok v ∧
      getParameter rcp s ((a :: argv).length - 1) ⟨a :: argv, 0⟩ none = .ok found := by
  obtain ⟨v, read⟩ := @get_whole (a :: argv) ((a :: argv).length - 1) (by simp) (by omega)
  obtain ⟨found, walked⟩ := @getParameter_whole S rcp s (a :: argv) ((a :: argv).length - 1)
    (by omega) none
  exact ⟨v, found, read, walked⟩

theorem map_inside_iff {A B : Type} (r : Except Int A) (f : A → B) :
    (∃ out, r.map f = .ok out) ↔ ∃ x, r = .ok x := by
  cases r with
  | error k => simp [Except.map]
  | ok x => simp [Except.map]

theorem any_inside_iff (sym : CString) (argv : List Atom) :
    Inside rcp s (.any sym argv) ↔ Safe rcp s (.any sym argv) := by
  have elim (r : Option (List Call)) (e : Except Int (List Call)) (bad : ∀ x, e ≠ .ok x) :
      (∃ x, r.elim e .ok = .ok x) ↔ ∃ calls, r = some calls := by
    cases r with
    | none => simpa using bad
    | some calls => simp
  rw [Inside, handle, map_inside_iff, mAny_eq, elim _ _ (by simp), Safe]
  cases argv with
  | nil => simpa [Input.mAny] using input_bare_iff (rcp.managerFindParameter s sym none)
  | cons a argv =>
    have inside := @input_inside S rcp s ⟨[], a :: argv⟩ (.inl (List.cons_ne_nil _ _))
      (rcp.managerFindParameter s sym none)
    exact ⟨fun _ bare => absurd bare (List.cons_ne_nil _ _), fun _ => inside⟩

theorem setLast_inside_iff (complaint : String) (set : Nat → Atom → Call) (argv : List Atom) :
    (∃ calls, setLast rcp s complaint set argv.length ⟨argv, 0⟩ = .ok calls) ↔ argv ≠ [] := by
  cases argv with
  | nil =>
    have outside : setLast rcp s complaint set ([] : List Atom).length ⟨[], 0⟩ = .error (-1) := rfl
    rw [outside]
    simp
  | cons a argv =>
    obtain ⟨v, found, read, walked⟩ := @last_and_path S rcp s a argv
    simp only [ne_eq, reduceCtorEq, not_false_eq_true, iff_true]
    rw [setLast, read, ok_bind]
    by_cases number : canbeInt v = false
    · exact ⟨_, if_pos number⟩
    · rw [if_neg number, walked, ok_bind]
      cases found with
      | none => exact ⟨_, rfl⟩
      | some p => exact ⟨_, rfl⟩

theorem setBound_inside (set : Nat → Value → Call) (argv : List Atom) :
    ∃ calls, setBound rcp s set argv.length ⟨argv, 0⟩ = .ok calls := by
  cases argv with
  | nil => exact ⟨[], rfl⟩
  | cons a argv =>
    obtain ⟨v, found, read, walked⟩ := @last_and_path S rcp s a argv
    rw [setBound, walked, ok_bind]
    cases found with
    | none => exact ⟨_, rfl⟩
    | some p =>
      dsimp only
      rw [read, ok_bind, ok_bind]
      split
      · split <;> exact ⟨_, rfl⟩
      · split
        · split <;> exact ⟨_, rfl⟩
        · exact ⟨_, rfl⟩

theorem setMinMax_inside (argv : List Atom) :
    ∃ calls, parameterSetMinMax rcp s argv.length ⟨argv, 0⟩ = .ok calls := by
  rw [parameterSetMinMax]
  split
  · exact ⟨_, rfl⟩
  · rename_i long
    obtain ⟨low, read_low⟩ := @get_whole argv (argv.length - 2) (by omega) (by omega)
    obtain ⟨high, read_high⟩ := @get_whole argv (argv.length - 1) (by omega) (by omega)
    obtain ⟨found, walked⟩ := @getParameter_whole S rcp s argv (argv.length - 2) (by omega) none
    rw [read_low, ok_bind]
    split
    · exact ⟨_, rfl⟩
    · rw [read_high, ok_bind]
      split
      · exact ⟨_, rfl⟩
      · rw [walked, ok_bind]
        cases found with
        | none => exact ⟨_, rfl⟩
        | some p =>
          dsimp only
          split
          · exact ⟨_, rfl⟩
          · split <;> exact ⟨_, rfl⟩

theorem remove_inside (argv : List Atom) :
    ∃ out, removeParameterList rcp s argv.length ⟨argv, 0⟩ = .ok out := by
  obtain ⟨found, walked⟩ := @getParameter_whole S rcp s argv argv.length (by omega) none
  rw [removeParameterList, walked, ok_bind]
  cases found with
  | none => exact ⟨_, rfl⟩
  | some p => exact ⟨_, rfl⟩

end

/-- For every tree and every message the reads stay inside exactly where the message is
    safe: only a bare selector that names a value parameter and the bare commands setreadonly
    and setorder read in front of their arguments. -/
theorem inside_iff {S : Type} (rcp : Rcp S) (s : S) (m : Message) :
    Inside rcp s m ↔ Safe rcp s m := by
  cases m with
  | list first rest =>
    obtain ⟨calls, _, inside⟩ := @mList_inside S rcp s first rest
    simp only [Safe, iff_true]
    exact (map_inside_iff _ _).mpr ⟨calls, inside⟩
  | any sym argv => exact any_inside_iff sym argv
  | expose argv =>
    simp only [Safe, iff_true]
    exact (map_inside_iff _ _).mpr ⟨_, exposeParameter_eq argv⟩
  | remove argv =>
    simp only [Safe, iff_true]
    exact remove_inside argv
  | setreadonly argv => exact (map_inside_iff _ _).trans (setLast_inside_iff _ _ argv)
  | setorder argv => exact (map_inside_iff _ _).trans (setLast_inside_iff _ _ argv)
  | setmin argv =>
    simp only [Safe, iff_true]
    exact (map_inside_iff _ _).mpr (setBound_inside _ argv)
  | setmax argv =>
    simp only [Safe, iff_true]
    exact (map_inside_iff _ _).mpr (setBound_inside _ argv)
  | setminmax argv =>
    simp only [Safe, iff_true]
    exact (map_inside_iff _ _).mpr (setMinMax_inside argv)

/-- The bare label of a value, and a bare setreadonly and setorder, read `argv[-1]`. -/
theorem bare_messages_read_in_front :
    handle listManager oneNumber (.any (.ofBytes (text ['x'])) []) = .error (-1) ∧
    handle listManager oneNumber (.setreadonly []) = .error (-1) ∧
    handle listManager oneNumber (.setorder []) = .error (-1) := ⟨rfl, rfl, rfl⟩

end ArgumentBounds
