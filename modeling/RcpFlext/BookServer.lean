import RcpFlext.ServerDirectory

/- A server that keeps its parameters in one list and what is set of them beside it. It meets
   every law that is asked of rcp-c for the directory. -/
namespace BookServer
open Atoms Datatypes ParameterTree Contents ServerDirectory ListManager

structure Book where
  parameters : List Parameter
  fields : Nat → Fields

/-- Nothing is made where the id would be one that is in use. -/
def addTo (b : Book) (type : Datatype) (l : CString) (g : Option Nat) : Book × Option Nat :=
  let ptr := unused b.parameters g
  if b.parameters.any fun p => p.id = BitVec.ofNat 16 ptr then (b, none)
  else
    ({ parameters := (add b.parameters type l g).1
       fields := fun k => if k = ptr then blank else b.fields k }, some ptr)

def bookServer : Rcp Book where
  parameters b := b.parameters
  managerFindParameter b := listManager.managerFindParameter b.parameters
  managerGetParameter b := listManager.managerGetParameter b.parameters
  serverFindGroup b := listManager.serverFindGroup b.parameters
  serverCreateGroup b := addTo b .group
  serverExpose := addTo
  serverRemoveParameterId b id :=
    ({ b with parameters := (listManager.serverRemoveParameterId b.parameters id).1 },
      (listManager.serverRemoveParameterId b.parameters id).2)

def int32 : Option Value → CInt
  | some (.int32 v) => v
  | _ => 0

def float32 : Option Value → Binary32.Word
  | some (.float32 w) => w
  | _ => 0

def getters : Queries.Getters Book where
  valueBool b k := (b.fields k).value = some (.boolean true)
  valueInt32 b k := int32 (b.fields k).value
  valueFloat b k := float32 (b.fields k).value
  valueString b k :=
    match (b.fields k).value with
    | some (.string t) => some t
    | _ => none
  hasMinimum b k := (b.fields k).minimum.isSome
  hasMaximum b k := (b.fields k).maximum.isSome
  minimumI32 b k := int32 (b.fields k).minimum
  maximumI32 b k := int32 (b.fields k).maximum
  minimumF32 b k := float32 (b.fields k).minimum
  maximumF32 b k := float32 (b.fields k).maximum
  readonly b k := (b.fields k).readonly
  order b k := (b.fields k).order
  minInt32 b k := int32 (b.fields k).minimum
  maxInt32 b k := int32 (b.fields k).maximum
  minFloat b k := float32 (b.fields k).minimum
  maxFloat b k := float32 (b.fields k).maximum

def perform (b : Book) (c : Call) : Book := { b with fields := fun k => changed k (b.fields k) c }

def emptyBook : Book := ⟨[], fun _ => blank⟩

def shownValue (type : Datatype) (v : Option Value) : Option Value :=
  match type with
  | .boolean => some (.boolean (v = some (.boolean true)))
  | .int32 => some (.int32 (int32 v))
  | .float32 => some (.float32 (float32 v))
  | .string =>
    (match v with
    | some (.string t) => some t
    | _ => none).map .string
  | _ => none

def shownLimit (type : Datatype) (v : Option Value) : Option Value :=
  if v.isSome then
    match type with
    | .int32 => some (.int32 (int32 v))
    | .float32 => some (.float32 (float32 v))
    | _ => none
  else none

def shown (type : Datatype) (f : Fields) : Fields :=
  { f with
    value := shownValue type f.value
    minimum := shownLimit type f.minimum
    maximum := shownLimit type f.maximum }

theorem fieldsOf_shown (b : Book) (p : Parameter) :
    fieldsOf getters b p = shown p.type (b.fields p.ptr) := rfl

theorem shownValue_own (v : Value) : shownValue (valueType v) (some v) = some v := by
  cases v with
  | boolean b => cases b <;> rfl
  | int32 | float32 | string => rfl

theorem shownLimit_own {v : Value} {type : Datatype} (own : limitType v = some type) :
    shownLimit type (some v) = some v := by
  cases v with
  | boolean | string => cases own
  | int32 | float32 =>
    cases own
    rfl

theorem addTo_adds {b b' : Book} {type : Datatype} {l : CString} {g : Option Nat} {ptr : Nat}
    (made : addTo b type l g = (b', some ptr)) :
    Adds bookServer getters b ⟨ptr, BitVec.ofNat 16 ptr, type, some l, g⟩ b' := by
  simp only [addTo] at made
  split at made
  · cases made
  · rename_i free
    cases made
    have grown := add_grown b.parameters type l g
    refine ⟨grown, ?_, ?_, ?_⟩
    · intro p inside same
      exact free (List.any_eq_true.mpr ⟨p, inside, decide_eq_true same⟩)
    · intro p inside
      have old : (if p.ptr = unused b.parameters g then blank else b.fields p.ptr) =
          b.fields p.ptr := if_neg (grown.fresh p inside).1
      rw [fieldsOf_shown, fieldsOf_shown]
      exact congrArg (shown p.type) old
    · rw [fieldsOf_shown]
      simp [shown, shownLimit, blank]

theorem book_makes : Makes bookServer getters where
  group _ _ _ _ _ made := ⟨_, addTo_adds made⟩
  expose _ _ _ _ _ _ made := ⟨_, addTo_adds made⟩

theorem book_takes : Takes bookServer getters where
  gone b id p inside same := by
    intro still
    have other := (List.mem_filter.mp still).2
    simp [same] at other
  kept b id q inside apart := by
    refine List.mem_filter.mpr ⟨inside, ?_⟩
    by_contra hit
    exact (apart q inside (by simpa using hit)).1 rfl
  fewer _ _ := List.filter_sublist
  fields _ _ _ _ := rfl

theorem book_finds : bookServer.Finds where
  child b := (finds_of_first listManager_first).child b.parameters
  every b := (finds_of_first listManager_first).every b.parameters
  group b := (finds_of_first listManager_first).group b.parameters
  every_group b := (finds_of_first listManager_first).every_group b.parameters

theorem book_findsId : FindsId bookServer where
  inside b id p found :=
    ⟨List.mem_of_find?_eq_some found, by simpa using List.find?_some found⟩
  every b id p inside same := by
    intro missing
    have other := List.find?_eq_none.mp missing p inside
    simp [same] at other

theorem book_performs : Performs bookServer getters perform where
  parameters _ _ := rfl
  fields b c p inside suits := by
    have shows : fieldsOf getters (perform b c) p =
        shown p.type (changed p.ptr (b.fields p.ptr) c) := rfl
    rw [shows, fieldsOf_shown]
    generalize b.fields p.ptr = f
    cases c with
    | setValue k v =>
      by_cases here : k = p.ptr
      · have type : valueType v = p.type := suits here
        simp only [changed, if_pos here, shown]
        rw [← type, shownValue_own]
      · simp only [changed, if_neg here]
    | setMin k v | setMax k v =>
      by_cases here : k = p.ptr
      · have type : limitType v = some p.type := suits here
        simp only [changed, if_pos here, shown]
        rw [shownLimit_own type]
      · simp only [changed, if_neg here]
    | setOrder k | setReadonly k =>
      by_cases here : k = p.ptr
      · simp only [changed, if_pos here, shown]
      · simp only [changed, if_neg here]
    | setValueUpdatedCb | setBangCb | setDirty | managerUpdate | serverUpdate | post | error => rfl

theorem book_library : Library bookServer getters perform where
  finds := book_finds
  findsId := book_findsId
  makes := book_makes
  takes := book_takes
  performs := book_performs

end BookServer
