import RcpFlext.ListManager
import RcpFlext.Library.Decimal

/- getParameter: a walk along labels. It steps into a group and stays where it is at any
   other parameter, so a list of atoms is a label path only if it goes through groups. -/
namespace PathLookup
open Atoms ParameterTree

def getAsString (a : Atom) : CString :=
  match a with
  | .symbol s => s
  | .int v => .ofBytes (Decimal.signed v.toInt)
  | .float w => .ofBytes (Binary32.fixed w)
  | .pointer => .empty

variable {S : Type} (rcp : Rcp S) (s : S)

def getParameterFrom (param : Option Parameter) (last_group : Option Nat) :
    List Atom → Option Parameter
  | [] => param
  | a :: argv =>
    if isString a = false then none
    else
      match rcp.managerFindParameter s (getString a) last_group with
      | none => none
      | some p => getParameterFrom (some p) (if p.isGroup then some p.ptr else last_group) argv

def getParameter (argv : List Atom) (group : Option Nat) : Option Parameter :=
  getParameterFrom rcp s none group argv

/-- `removeParameter`; the id is an int cut to 16 bits. -/
def removeParameter (id : CInt) : S × List Call :=
  let (next, removed) := rcp.serverRemoveParameterId s (id.setWidth 16)
  (next, if removed then [.serverUpdate] else [])

def removeParameterList (argv : List Atom) : S × List Call :=
  match getParameter rcp s argv none with
  | some param => removeParameter rcp s (param.id.signExtend 32)
  | none => (s, [])

/-- Every atom but the last names a group in the group reached so far. -/
def Through : Option Nat → List Atom → Prop
  | _, [] => True
  | _, [_] => True
  | g, a :: b :: argv =>
    match rcp.managerFindParameter s (getString a) g with
    | some p => p.isGroup = true ∧ Through (some p.ptr) (b :: argv)
    | none => True

variable {rcp s}

theorem through_cons {l : CString} {g : Option Nat} {p : Parameter} (b : Atom) (argv : List Atom)
    (found : rcp.managerFindParameter s l g = some p) :
    Through rcp s g (.symbol l :: b :: argv) ↔
      p.isGroup = true ∧ Through rcp s (some p.ptr) (b :: argv) := by
  simp only [Through, getString, found]

theorem getParameter_cons (a : Atom) (argv : List Atom) (param : Option Parameter)
    (g : Option Nat) :
    getParameterFrom rcp s param g (a :: argv) = getParameter rcp s (a :: argv) g := rfl

theorem getParameter_step {a : Atom} {argv : List Atom} {g : Option Nat} {p : Parameter}
    (found : getParameter rcp s (a :: argv) g = some p) :
    ∃ l q, a = .symbol l ∧ rcp.managerFindParameter s l g = some q ∧
      getParameterFrom rcp s (some q) (if q.isGroup then some q.ptr else g) argv = some p := by
  simp only [getParameter, getParameterFrom] at found
  split at found
  · contradiction
  · rename_i string
    have symbol := isString_getString (by simpa using string)
    split at found
    · contradiction
    · exact ⟨getString a, _, symbol, ‹_›, found⟩

theorem getParameter_last {l : CString} {g : Option Nat} {p : Parameter}
    (found : rcp.managerFindParameter s l g = some p) :
    getParameter rcp s [.symbol l] g = some p := by
  simp [getParameter, getParameterFrom, isString, getString, found]

theorem getParameter_into {l : CString} {g : Option Nat} {q : Parameter} (b : Atom)
    (argv : List Atom) (found : rcp.managerFindParameter s l g = some q)
    (group : q.isGroup = true) :
    getParameter rcp s (.symbol l :: b :: argv) g =
      getParameter rcp s (b :: argv) (some q.ptr) := by
  rw [getParameter, getParameterFrom]
  simp only [isString, getString, found, group, ↓reduceIte, Bool.true_eq_false]
  rfl

/-- What is found lies at the end of a label path no longer than the list, and the path is
    the list where all the way goes through groups, else shorter. -/
theorem getParameter_path (finds : rcp.FindsChild) {argv : List Atom} {g : Option Nat}
    {p : Parameter} (found : getParameter rcp s argv g = some p) :
    ∃ ls, LabelPath (rcp.parameters s) g ls p ∧
      (Through rcp s g argv → argv = ls.map .symbol) ∧
      (¬ Through rcp s g argv → ls.length < argv.length) ∧ ls.length ≤ argv.length := by
  induction argv generalizing g with
  | nil => contradiction
  | cons a argv ih =>
    obtain ⟨l, q, symbol, child, rest⟩ := getParameter_step found
    have isChild := finds s l g q child
    subst symbol
    cases argv with
    | nil =>
      have same : q = p := Option.some.inj rest
      subst same
      exact ⟨[l], .child isChild, fun _ => rfl, fun off => absurd trivial off, Nat.le_refl _⟩
    | cons b argv =>
      rw [getParameter_cons] at rest
      obtain ⟨ls, path, all, some_left, fewer⟩ := ih rest
      by_cases group : q.isGroup = true
      · simp only [group, ↓reduceIte] at path all some_left
        refine ⟨l :: ls, labelPath_cons isChild group path, ?_, ?_, Nat.succ_le_succ fewer⟩
        · intro through
          rw [all ((through_cons b argv child).mp through).2]
          rfl
        · intro off
          have tail_off : ¬ Through rcp s (some q.ptr) (b :: argv) :=
            fun through => off ((through_cons b argv child).mpr ⟨group, through⟩)
          exact Nat.succ_lt_succ (some_left tail_off)
      · simp only [group, Bool.false_eq_true, ↓reduceIte] at path
        have shorter : ls.length < (Atom.symbol l :: b :: argv).length := Nat.lt_succ_of_le fewer
        refine ⟨ls, path, ?_, fun _ => shorter, Nat.le_of_lt shorter⟩
        intro through
        exact absurd ((through_cons b argv child).mp through).1 group

/-- The list that found a parameter is its label path exactly when it goes through groups,
    and `remove` takes that parameter's id. -/
theorem getParameter_path_iff (finds : rcp.FindsChild) (tree : Tree (rcp.parameters s))
    (argv : List Atom) (g : Option Nat) (p : Parameter)
    (found : getParameter rcp s argv g = some p) :
    ((∃ ls, argv = ls.map .symbol ∧ LabelPath (rcp.parameters s) g ls p) ↔
      Through rcp s g argv) ∧
    (g = none → removeParameterList rcp s argv = removeParameter rcp s (p.id.signExtend 32)) := by
  obtain ⟨ls, path, all, some_left, _⟩ := getParameter_path finds found
  constructor
  · constructor
    · rintro ⟨ms, same, other⟩
      by_contra off
      have shorter := some_left off
      rw [same, List.length_map, labelPath_length tree other path] at shorter
      exact Nat.lt_irrefl _ shorter
    · intro through
      exact ⟨ls, all through, path⟩
  · intro root
    subst root
    simp only [removeParameterList, found]

open ListManager

def nameA : CString := .ofBytes [97]
def nameB : CString := .ofBytes [98]

theorem names_apart : nameA ≠ nameB := by decide

def nested : List Parameter :=
  [⟨1, 1, .group, some nameA, none⟩, ⟨2, 2, .float32, some nameB, some 1⟩]

def sideBySide : List Parameter :=
  [⟨1, 1, .float32, some nameA, none⟩, ⟨2, 2, .float32, some nameB, none⟩]

theorem nested_tree : Tree nested := tree_of_addresses (by decide) (by decide)

theorem sideBySide_tree : Tree sideBySide := tree_of_addresses (by decide) (by decide)

theorem nested_found :
    ((∃ ls, [Atom.symbol nameA, .symbol nameB] = ls.map .symbol ∧
      LabelPath nested none ls ⟨2, 2, .float32, some nameB, some 1⟩) ↔
        Through listManager nested none [.symbol nameA, .symbol nameB]) ∧
    ((none : Option Nat) = none → removeParameterList listManager nested [.symbol nameA, .symbol nameB] =
      removeParameter listManager nested 2) :=
  getParameter_path_iff (finds_of_first listManager_first).child nested_tree
    [.symbol nameA, .symbol nameB] none ⟨2, 2, .float32, some nameB, some 1⟩ rfl

/-- Beside a value `a`, the list `a b` finds the value `b` at the root, and `remove a b`
    removes it. -/
theorem value_on_the_way_skipped :
    Tree sideBySide ∧ UniqueSiblings sideBySide ∧
    getParameter listManager sideBySide [.symbol nameA, .symbol nameB] none =
      some ⟨2, 2, .float32, some nameB, none⟩ ∧
    (¬ ∃ ls, [Atom.symbol nameA, .symbol nameB] = ls.map .symbol ∧
      LabelPath sideBySide none ls ⟨2, 2, .float32, some nameB, none⟩) ∧
    removeParameterList listManager sideBySide [.symbol nameA, .symbol nameB] =
      ([⟨1, 1, .float32, some nameA, none⟩], [.serverUpdate]) := by
  refine ⟨sideBySide_tree, by simp [UniqueSiblings, sideBySide, names_apart], rfl, ?_, rfl⟩
  rintro ⟨ls, same, path⟩
  have short : LabelPath sideBySide none [nameB] ⟨2, 2, .float32, some nameB, none⟩ :=
    .child ⟨by simp [sideBySide], rfl, rfl⟩
  have long := congrArg List.length same
  rw [List.length_map, labelPath_length sideBySide_tree path short] at long
  contradiction

end PathLookup
