import RcpFlext.ParameterTree

/- A manager that keeps its parameters in one list, new ones at the end. It meets every law
   asked of rcp-c. -/
namespace ListManager
open Atoms Datatypes ParameterTree

def unused (ps : List Parameter) (g : Option Nat) : Nat :=
  ps.foldr (fun p top => max (max p.ptr (p.parent.getD 0)) top) (g.getD 0) + 1

def add (ps : List Parameter) (type : Datatype) (l : CString) (g : Option Nat) :
    List Parameter × Option Nat :=
  let ptr := unused ps g
  (ps ++ [⟨ptr, BitVec.ofNat 16 ptr, type, some l, g⟩], some ptr)

def listManager : Rcp (List Parameter) where
  parameters := id
  managerFindParameter ps l g := ps.find? fun p => p.label = some l ∧ p.parent = g
  managerGetParameter ps id := ps.find? fun p => p.id = id
  serverFindGroup ps l g :=
    ps.find? fun p => (p.label = some l ∧ p.parent = g) ∧ p.isGroup = true
  serverCreateGroup ps l g := add ps .group l g
  serverExpose ps type l g := add ps type l g
  serverRemoveParameterId ps id :=
    (ps.filter fun p => p.id ≠ id, ps.any fun p => p.id = id)

theorem parent_lt_unused (ps : List Parameter) (g : Option Nat) : g.getD 0 < unused ps g := by
  induction ps with
  | nil => exact Nat.lt_succ_self _
  | cons p ps ih =>
    simp only [unused, List.foldr_cons] at ih ⊢
    omega

theorem inside_lt_unused {ps : List Parameter} {p : Parameter} (g : Option Nat) (inside : p ∈ ps) :
    p.ptr < unused ps g ∧ p.parent.getD 0 < unused ps g := by
  induction ps with
  | nil => contradiction
  | cons q ps ih =>
    simp only [unused, List.foldr_cons] at ih ⊢
    rcases List.mem_cons.mp inside with h | h
    · subst h
      omega
    · have := ih h
      omega

theorem add_grown (ps : List Parameter) (type : Datatype) (l : CString) (g : Option Nat) :
    Grown ps ⟨unused ps g, BitVec.ofNat 16 (unused ps g), type, some l, g⟩ (add ps type l g).1 where
  inserted := ⟨ps, [], by simp, by simp [add]⟩
  fresh p inside := by
    have below := inside_lt_unused g inside
    constructor
    · exact Nat.ne_of_lt below.1
    · intro same
      have parent : p.parent = some (unused ps g) := same
      rw [parent, Option.getD_some] at below
      exact Nat.lt_irrefl _ below.2
  proper := by
    intro same
    have parent : g = some (unused ps g) := same
    have below := parent_lt_unused ps g
    generalize unused ps g = ptr at parent below
    rw [parent, Option.getD_some] at below
    exact Nat.lt_irrefl _ below

theorem listManager_first : listManager.FindsFirst where
  parameter _ _ _ := rfl
  group _ _ _ := rfl

theorem listManager_creates : listManager.Creates where
  group s l g s' ptr made := by
    cases made
    exact ⟨_, add_grown s .group l g⟩
  no_group s l g s' made := by
    cases congrArg Prod.snd made
  expose s type l g s' ptr made := by
    cases made
    exact ⟨_, add_grown s type l g⟩
  no_expose s type l g s' made := by
    cases congrArg Prod.snd made

theorem listManager_removes : listManager.Removes :=
  fun _ _ => List.filter_sublist

def oneNumber : List Parameter := [⟨1, 1, .float32, some (.ofBytes (text ['x'])), none⟩]

theorem oneNumber_tree : Tree oneNumber where
  distinct := by decide
  ranked := ⟨fun _ => 0, by simp [oneNumber]⟩

end ListManager
