import RcpFlext.Input

/- Parameters addressed by a number: a list message and the remove command cut a 32-bit
   integer down to the 16 bits of an id. -/
namespace NumericIds
open Atoms Datatypes ParameterTree ListManager Input PathLookup

/-- `rcp_manager_get_parameter` and `rcp_server_remove_parameter_id` act on the parameters
    with exactly the id they are given. -/
structure ActsById {S : Type} (rcp : Rcp S) : Prop where
  get : ∀ s id p, rcp.managerGetParameter s id = some p → p ∈ rcp.parameters s ∧ p.id = id
  remove : ∀ s id, ∀ p ∈ rcp.parameters s,
    p ∉ rcp.parameters (rcp.serverRemoveParameterId s id).1 ↔ p.id = id

def Fits (n : CInt) : Prop := -32768 ≤ n.toInt ∧ n.toInt ≤ 32767

instance (n : CInt) : Decidable (Fits n) := inferInstanceAs (Decidable (_ ∧ _))

theorem narrowed_iff (n : CInt) : (n.setWidth 16).toInt = n.toInt ↔ Fits n := by
  have small := n.isLt
  rw [Fits, BitVec.toInt_eq_toNat_cond, BitVec.toInt_eq_toNat_cond, BitVec.toNat_setWidth]
  split <;> split <;> omega

section
variable {S : Type} (rcp : Rcp S) (s : S)

def ListExact (n : CInt) (rest : List Atom) : Prop :=
  ∀ calls, mList rcp s (.int n :: rest) = some calls → ∀ ptr v, .setValue ptr v ∈ calls →
    ∀ p ∈ rcp.parameters s, p.ptr = ptr → p.id.toInt = n.toInt

def RemoveExact (n : CInt) : Prop :=
  ∀ p ∈ rcp.parameters s, p ∉ rcp.parameters (removeParameter rcp s n).1 → p.id.toInt = n.toInt

end

section
variable {S : Type} {rcp : Rcp S} {s : S}

theorem last_getLastD (a : Atom) (rest : List Atom) :
    Args.last ⟨[], a :: rest⟩ = some (rest.getLastD a) := by
  have place : ((a :: rest).length : Int) - 1 = rest.length := by
    rw [List.length_cons]
    omega
  have last : (a :: rest)[rest.length]? = (a :: rest).getLast? := by
    rw [List.getLast?_eq_getElem?]
    rfl
  rw [Args.last, place, Args.at, if_pos (by omega), Int.toNat_natCast, last, List.getLast?_cons,
    List.getLastD_eq_getLast?]

theorem mList_int (n : CInt) (rest : List Atom) :
    mList rcp s (.int n :: rest) =
      some (if n.setWidth 16 = (0 : BitVec 16) then [] else
        (setAtomValue (rcp.managerGetParameter s (n.setWidth 16)) (rest.getLastD (.int n))).elim []
          fun call => [call, .managerUpdate]) := by
  have first : (⟨[], .int n :: rest⟩ : Args).at 0 = some (.int n) := rfl
  by_cases zero : n.setWidth 16 = (0 : BitVec 16)
  · simp [mList, first, canbeInt, isInt, getAInt, zero, isString]
  · simp only [mList, first, canbeInt, isInt, getAInt, Bool.true_or, ↓reduceIte, zero, assign,
      last_getLastD, Option.map_some, isString, Bool.false_eq_true]
    cases setAtomValue (rcp.managerGetParameter s (n.setWidth 16)) (rest.getLastD (.int n)) with
    | none => rfl
    | some call => rfl

theorem mList_sets_iff (n : CInt) (rest : List Atom) (ptr : Nat) (v : Value) :
    (∃ calls, mList rcp s (.int n :: rest) = some calls ∧ .setValue ptr v ∈ calls) ↔
      n.setWidth 16 ≠ (0 : BitVec 16) ∧
        setAtomValue (rcp.managerGetParameter s (n.setWidth 16)) (rest.getLastD (.int n)) =
          some (.setValue ptr v) := by
  rw [mList_int]
  by_cases zero : n.setWidth 16 = (0 : BitVec 16)
  · simp [zero]
  · cases setAtomValue (rcp.managerGetParameter s (n.setWidth 16)) (rest.getLastD (.int n)) with
    | none => simp
    | some call => simp [eq_comm]

theorem listExact_iff (acts : ActsById rcp) (tree : Tree (rcp.parameters s)) (n : CInt)
    (rest : List Atom) :
    ListExact rcp s n rest ↔ Fits n ∨ n.setWidth 16 = (0 : BitVec 16) ∨
      ∀ p, rcp.managerGetParameter s (n.setWidth 16) = some p →
        setAtomValue (some p) (rest.getLastD (.int n)) = none := by
  rw [← narrowed_iff]
  constructor
  · intro exact_list
    by_cases zero : n.setWidth 16 = (0 : BitVec 16)
    · exact .inr (.inl zero)
    · by_cases silent : ∀ p, rcp.managerGetParameter s (n.setWidth 16) = some p →
        setAtomValue (some p) (rest.getLastD (.int n)) = none
      · exact .inr (.inr silent)
      · left
        push Not at silent
        obtain ⟨p, found, sets⟩ := silent
        obtain ⟨call, set⟩ := Option.ne_none_iff_exists'.mp sets
        obtain ⟨q, v, same, _, _, eq⟩ := setAtomValue_cases set
        cases same
        subst eq
        obtain ⟨inside, id⟩ := acts.get s _ p found
        rw [← found] at set
        obtain ⟨calls, told, among⟩ := (mList_sets_iff n rest p.ptr v).mpr ⟨zero, set⟩
        rw [← id]
        exact exact_list calls told p.ptr v among p inside rfl
  · intro condition calls told ptr v among p inside address
    obtain ⟨nonzero, set⟩ := (mList_sets_iff n rest ptr v).mp ⟨calls, told, among⟩
    obtain ⟨q, w, found, _, _, eq⟩ := setAtomValue_cases set
    cases eq
    obtain ⟨listed, id⟩ := acts.get s _ q found
    rw [same_of_ptr tree inside listed address, id]
    rcases condition with fits | zero | silent
    · exact fits
    · exact absurd zero nonzero
    · rw [found, silent q found] at set
      contradiction

theorem removeExact_iff (acts : ActsById rcp) (n : CInt) :
    RemoveExact rcp s n ↔ Fits n ∨ ∀ p ∈ rcp.parameters s, p.id ≠ n.setWidth 16 := by
  rw [← narrowed_iff]
  constructor
  · intro exact_remove
    by_cases absent : ∀ p ∈ rcp.parameters s, p.id ≠ n.setWidth 16
    · exact .inr absent
    · left
      push Not at absent
      obtain ⟨p, inside, id⟩ := absent
      rw [← id]
      exact exact_remove p inside ((acts.remove s _ p inside).mpr id)
  · intro condition p inside gone
    have id := (acts.remove s _ p inside).mp gone
    rcases condition with fits | absent
    · rw [id]
      exact fits
    · exact absurd id (absent p inside)

/-- Both commands are exact where the integer is that of an id, and otherwise only by luck:
    the id it is cut down to is 0 or names nothing that the command would change. -/
theorem exact_iff (acts : ActsById rcp) (tree : Tree (rcp.parameters s)) (n : CInt)
    (rest : List Atom) :
    (ListExact rcp s n rest ↔ Fits n ∨ n.setWidth 16 = (0 : BitVec 16) ∨
      ∀ p, rcp.managerGetParameter s (n.setWidth 16) = some p →
        setAtomValue (some p) (rest.getLastD (.int n)) = none) ∧
    (RemoveExact rcp s n ↔ Fits n ∨ ∀ p ∈ rcp.parameters s, p.id ≠ n.setWidth 16) :=
  ⟨listExact_iff acts tree n rest, removeExact_iff acts n⟩

end

theorem listManager_actsById : ActsById listManager where
  get s id p found := by
    have same := List.find?_some found
    exact ⟨List.mem_of_find?_eq_some found, by simpa using same⟩
  remove s id p inside := by
    constructor
    · intro gone
      by_contra other
      exact gone (List.mem_filter.mpr ⟨inside, by simpa using other⟩)
    · intro same still
      have other := (List.mem_filter.mp still).2
      simp [same] at other

theorem exact_iff_oneNumber :
    (ListExact listManager oneNumber 1 [.int 7] ↔
      Fits 1 ∨ (1 : CInt).setWidth 16 = (0 : BitVec 16) ∨
        ∀ p, listManager.managerGetParameter oneNumber ((1 : CInt).setWidth 16) =
          some p → setAtomValue (some p) (.int 7) = none) ∧
    (RemoveExact listManager oneNumber 1 ↔
      Fits 1 ∨ ∀ p ∈ oneNumber, p.id ≠ (1 : CInt).setWidth 16) :=
  exact_iff listManager_actsById oneNumber_tree 1 [.int 7]

/-- 65537 sets and removes the parameter with id 1. -/
theorem alias_of_one :
    mList listManager oneNumber [.int 65537, .int 7] =
      some [.setValue 1 (.float32 (Binary32.ofInt 7)), .managerUpdate] ∧
    listManager.parameters
      (removeParameter listManager oneNumber 65537).1 = [] ∧
    ¬ ListExact listManager oneNumber 65537 [.int 7] ∧
    ¬ RemoveExact listManager oneNumber 65537 := by
  refine ⟨rfl, rfl, ?_, ?_⟩
  · intro exact_list
    have same := exact_list _ rfl 1 (.float32 (Binary32.ofInt 7)) (by decide) _ (.head _) rfl
    exact absurd same (by decide)
  · intro exact_remove
    have same := exact_remove _ (.head _) (by decide)
    exact absurd same (by decide)

end NumericIds
