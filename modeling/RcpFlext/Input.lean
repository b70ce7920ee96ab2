import RcpFlext.PathLookup

/- Values sent to a parameter: a list or a selector message gives labels and then a value,
   and `_input` finds out what they mean. -/
namespace Input
open Atoms Datatypes ParameterTree PathLookup

/-- `argc` and `argv`, with the atoms of the same array in front of `argv`, nearest first. -/
structure Args where
  before : List Atom
  atoms : List Atom

def Args.at (args : Args) (i : Int) : Option Atom :=
  if 0 ≤ i then args.atoms[i.toNat]? else args.before[(-i - 1).toNat]?

def Args.next (args : Args) : Args :=
  match args.atoms with
  | [] => args
  | a :: atoms => ⟨a :: args.before, atoms⟩

def Args.last (args : Args) : Option Atom := args.at ((args.atoms.length : Int) - 1)

def valueOf (type : Datatype) (a : Atom) : Option Value :=
  match type with
  | .boolean => if canbeInt a then some (.boolean (0 < (getAInt a 0).toInt)) else none
  | .int32 => if canbeInt a then some (.int32 (getAInt a 0)) else none
  | .float32 => if canbeFloat a then some (.float32 (getAFloat a)) else none
  | .string => if isString a then some (.string (getString a)) else none
  | _ => none

def setAtomValue (param : Option Parameter) (a : Atom) : Option Call :=
  match param with
  | none => none
  | some p => if p.isValue then (valueOf p.type a).map (.setValue p.ptr) else none

def assign (param : Option Parameter) (args : Args) : Option (List Call) :=
  args.last.map fun a =>
    match setAtomValue param a with
    | some call => [call, .managerUpdate]
    | none => []

variable {S : Type} (rcp : Rcp S) (s : S)

/-- `_input`; none where an atom outside the array is read. -/
def input (parameter : Option Parameter) (args : Args) : Option (List Call) :=
  match parameter with
  | none => some []
  | some p =>
    if p.isGroup then
      if 1 < args.atoms.length then
        match getParameter rcp s (args.atoms.take (args.atoms.length - 1)) (some p.ptr) with
        | none => some [.post "parameter not found" []]
        | some q =>
          if q.isGroup then some [.post "can not set value for group parameter" []]
          else assign (some q) args
      else some [.post "can not set value for group parameter" []]
    else if p.type = .bang then some [.setDirty p.ptr, .managerUpdate]
    else assign (some p) args

def mList (argv : List Atom) : Option (List Call) :=
  let args : Args := ⟨[], argv⟩
  match args.at 0 with
  | none => none
  | some first =>
    let id : BitVec 16 := if canbeInt first then (getAInt first 0).setWidth 16 else 0
    let byId := if id = 0 then some [] else assign (rcp.managerGetParameter s id) args
    match byId with
    | some [] =>
      if isString first then
        input rcp s (rcp.managerFindParameter s (getString first) none) args.next
      else some []
    | calls => calls

def mAny (sym : CString) (argv : List Atom) : Option (List Call) :=
  input rcp s (rcp.managerFindParameter s sym none) ⟨[], argv⟩

variable {rcp s}

theorem assign_snoc (param : Option Parameter) (before front : List Atom) (a : Atom) :
    assign param ⟨before, front ++ [a]⟩ = some (match setAtomValue param a with
      | some call => [call, .managerUpdate]
      | none => []) := by
  have last : Args.last ⟨before, front ++ [a]⟩ = some a := by
    have position : ((front ++ [a]).length : Int) - 1 = front.length := by simp
    simp [Args.last, Args.at]
  rw [assign, last]
  rfl

theorem mList_symbol (sym : CString) (rest : List Atom) :
    mList rcp s (.symbol sym :: rest) =
      input rcp s (rcp.managerFindParameter s sym none) ⟨[.symbol sym], rest⟩ := rfl

theorem input_group {p : Parameter} (group : p.isGroup = true) (before front : List Atom) (a : Atom)
    (deep : front ≠ []) :
    input rcp s (some p) ⟨before, front ++ [a]⟩ =
      match getParameter rcp s front (some p.ptr) with
      | none => some [.post "parameter not found" []]
      | some q =>
        if q.isGroup then some [.post "can not set value for group parameter" []]
        else assign (some q) ⟨before, front ++ [a]⟩ := by
  have positive := List.length_pos_iff.mpr deep
  have many : 1 < (front ++ [a]).length := by
    rw [List.length_append, List.length_singleton]
    omega
  have front_eq : (front ++ [a]).take ((front ++ [a]).length - 1) = front := by simp
  simp only [input, group, ↓reduceIte, many, front_eq]

theorem not_group_of_bang {p : Parameter} (bang : p.type = .bang) : p.isGroup = false := by
  simp [Parameter.isGroup, bang]

theorem input_bang {p : Parameter} (bang : p.type = .bang) (args : Args) :
    input rcp s (some p) args = some [.setDirty p.ptr, .managerUpdate] := by
  simp only [input, not_group_of_bang bang, Bool.false_eq_true, bang, ↓reduceIte]

theorem input_value {p : Parameter} (value : p.isValue = true) (args : Args) :
    input rcp s (some p) args = assign (some p) args := by
  simp only [Parameter.isValue, decide_eq_true_eq] at value
  simp only [input, Parameter.isGroup, value, decide_false, Bool.false_eq_true, ↓reduceIte]

theorem setAtomValue_cases {param : Option Parameter} {a : Atom} {call : Call}
    (set : setAtomValue param a = some call) :
    ∃ p v, param = some p ∧ p.isValue = true ∧ valueOf p.type a = some v ∧
      call = .setValue p.ptr v := by
  cases param with
  | none => contradiction
  | some p =>
    simp only [setAtomValue] at set
    split at set
    · obtain ⟨v, worth, eq⟩ := Option.map_eq_some_iff.mp set
      exact ⟨p, v, rfl, ‹_›, worth, eq.symm⟩
    · contradiction

theorem assign_cases {p : Parameter} {args : Args} {calls : List Call}
    (done : assign (some p) args = some calls) :
    calls = [] ∨ ∃ v, calls = [.setValue p.ptr v, .managerUpdate] := by
  obtain ⟨a, _, eq⟩ := Option.map_eq_some_iff.mp done
  subst eq
  cases set : setAtomValue (some p) a with
  | none => exact .inl rfl
  | some call =>
    obtain ⟨q, v, same, _, _, eq⟩ := setAtomValue_cases set
    cases same
    exact .inr ⟨v, by rw [eq]⟩

/-- How `_input` can end: with a line on the console or nothing, with a bang fired, or with
    one value set, of the parameter itself or of what the labels find in the group. -/
theorem input_cases {parameter : Option Parameter} {args : Args} {calls : List Call}
    (done : input rcp s parameter args = some calls) :
    calls = [] ∨ (∃ format, calls = [.post format []]) ∨
    (∃ p, parameter = some p ∧ p.type = .bang ∧ calls = [.setDirty p.ptr, .managerUpdate]) ∨
    ∃ p v, calls = [.setValue p.ptr v, .managerUpdate] ∧
      (parameter = some p ∧ p.isValue = true ∨ ∃ g, parameter = some g ∧ g.isGroup = true ∧
        1 < args.atoms.length ∧
        getParameter rcp s (args.atoms.take (args.atoms.length - 1)) (some g.ptr) = some p) := by
  cases parameter with
  | none =>
    cases done
    exact .inl rfl
  | some p =>
    simp only [input] at done
    split at done
    · rename_i group
      split at done
      · rename_i long
        split at done
        · cases done
          exact .inr (.inl ⟨_, rfl⟩)
        · rename_i q found
          split at done
          · cases done
            exact .inr (.inl ⟨_, rfl⟩)
          · rcases assign_cases done with silent | ⟨v, set⟩
            · exact .inl silent
            · exact .inr (.inr (.inr ⟨q, v, set, .inr ⟨p, rfl, group, long, found⟩⟩))
      · cases done
        exact .inr (.inl ⟨_, rfl⟩)
    · rename_i leaf
      split at done
      · rename_i bang
        cases done
        exact .inr (.inr (.inl ⟨p, rfl, bang, rfl⟩))
      · rename_i other
        have value : p.isValue = true := by
          simp only [Parameter.isGroup, decide_eq_true_eq] at leaf
          simp [Parameter.isValue, leaf, other]
        rcases assign_cases done with silent | ⟨v, set⟩
        · exact .inl silent
        · exact .inr (.inr (.inr ⟨p, v, set, .inl ⟨rfl, value⟩⟩))

end Input
