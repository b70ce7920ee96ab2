import RcpFlext.Indexing

/- Both limits in one message against one message for each. `setminmax` wants two float
   atoms, the others take what can be a number. -/
namespace Limits
open Atoms Datatypes ParameterTree

structure Bounds where
  minimum : Option Value
  maximum : Option Value
  deriving DecidableEq

/-- The options of the type definitions, by the parameters' addresses. -/
abbrev Store := Nat → Bounds

def put (store : Store) : Call → Store
  | .setMin ptr v => fun k => if k = ptr then { store k with minimum := some v } else store k
  | .setMax ptr v => fun k => if k = ptr then { store k with maximum := some v } else store k
  | _ => store

section
variable {S : Type} (rcp : Rcp S) (s : S) (path : List Atom) (a b : Atom)

def together : Except Int (List Call) :=
  Indexing.parameterSetMinMax rcp s (path.length + 2) ⟨path ++ [a, b], 0⟩

def apart : Except Int (List Call) := do
  let low ← Indexing.parameterSetMin rcp s (path.length + 1) ⟨path ++ [a], 0⟩
  let high ← Indexing.parameterSetMax rcp s (path.length + 1) ⟨path ++ [b], 0⟩
  .ok (low ++ high)

/-- Both ways leave every parameter with the same limits. -/
def SameBounds (store : Store) : Prop :=
  ∃ one two, together rcp s path a b = .ok one ∧ apart rcp s path a b = .ok two ∧
    one.foldl put store = two.foldl put store

end

def IsNumber (p : Parameter) : Prop := p.type = .float32 ∨ p.type = .int32

instance (p : Parameter) : Decidable (IsNumber p) :=
  inferInstanceAs (Decidable (p.type = .float32 ∨ p.type = .int32))

def numberOf (p : Parameter) (a : Atom) : Value :=
  if p.type = .float32 then .float32 (getAFloat a) else .int32 (getAInt a 0)

section
variable {S : Type} {rcp : Rcp S} {s : S} {path : List Atom} {a b : Atom}

def sends (found : Option Parameter) (calls : Parameter → List Call) : List Call :=
  match found with
  | some p => if IsNumber p then calls p else []
  | none => []

theorem branches_send (p : Parameter) (calls : Parameter → List Call) {float32 int32 : List Call}
    (float : p.type = .float32 → float32 = calls p) (int : p.type = .int32 → int32 = calls p) :
    (if p.type = .float32 then Except.ok float32 else if p.type = .int32 then .ok int32 else .ok [] :
      Except Int (List Call)) = .ok (sends (some p) calls) := by
  by_cases first : p.type = .float32
  · simp [sends, IsNumber, first, float first]
  · by_cases second : p.type = .int32
    · simp [sends, IsNumber, second, int second]
    · simp [sends, IsNumber, first, second]

theorem setBound_sends (set : Nat → Value → Call) (number : canbeFloat a = true) :
    Indexing.setBound rcp s set (path.length + 1) ⟨path ++ [a], 0⟩ =
      .ok (sends (PathLookup.getParameter rcp s path none) fun p =>
        [set p.ptr (numberOf p a), .serverUpdate]) := by
  have lookup : Indexing.getParameter rcp s ((path.length : Int) + 1 - 1) ⟨path ++ [a], 0⟩ none =
      .ok (PathLookup.getParameter rcp s path none) :=
    @Indexing.getParameter_eq S rcp s ⟨path ++ [a], 0⟩ path [] [a] _ rfl rfl (by omega) none
  have read : Indexing.Argv.get ⟨path ++ [a], 0⟩ ((path.length : Int) + 1 - 1) = .ok a :=
    Indexing.get_at rfl (by simp)
  have int : canbeInt a = true := number
  simp only [Indexing.setBound, lookup, read, Indexing.ok_bind]
  cases PathLookup.getParameter rcp s path none with
  | none => rfl
  | some p =>
    simp only [number, int, ↓reduceIte]
    apply branches_send
    · intro float
      simp [numberOf, float]
    · intro integer
      simp [numberOf, integer]

theorem together_sends : together rcp s path a b =
    .ok (if path ≠ [] ∧ isFloat a = true ∧ isFloat b = true then
      sends (PathLookup.getParameter rcp s path none) fun p =>
        [.setMin p.ptr (numberOf p a), .setMax p.ptr (numberOf p b), .serverUpdate]
    else [.error "invalid data for setting min and max" []]) := by
  have lookup : Indexing.getParameter rcp s ((path.length : Int) + 2 - 2) ⟨path ++ [a, b], 0⟩ none =
      .ok (PathLookup.getParameter rcp s path none) :=
    @Indexing.getParameter_eq S rcp s ⟨path ++ [a, b], 0⟩ path [] [a, b] _ rfl rfl (by omega) none
  have low : Indexing.Argv.get ⟨path ++ [a, b], 0⟩ ((path.length : Int) + 2 - 2) = .ok a :=
    Indexing.get_at rfl (by simp)
  have high : Indexing.Argv.get ⟨path ++ [a, b], 0⟩ ((path.length : Int) + 2 - 1) = .ok b :=
    @Indexing.get_at ⟨path ++ [a, b], 0⟩ (path ++ [a]) [] b _ (by simp) (by simp; omega)
  unfold together Indexing.parameterSetMinMax
  by_cases empty : path = []
  · subst empty
    rfl
  have some_atom : 0 < path.length := List.length_pos_iff.mpr empty
  rw [if_neg (by omega), low, Indexing.ok_bind]
  by_cases first : isFloat a = true
  · rw [if_neg (by simp [first]), high, Indexing.ok_bind]
    by_cases second : isFloat b = true
    · rw [if_neg (by simp [second]), lookup, Indexing.ok_bind, if_pos ⟨empty, first, second⟩]
      cases PathLookup.getParameter rcp s path none with
      | none => rfl
      | some p =>
        apply branches_send
        · intro float
          simp [numberOf, float]
        · intro integer
          simp [numberOf, integer]
    · rw [if_pos (by simpa using second), if_neg (fun all => second all.2.2)]
  · rw [if_pos (by simpa using first), if_neg (fun all => first all.2.1)]

theorem apart_sends (low : canbeFloat a = true) (high : canbeFloat b = true) :
    apart rcp s path a b =
      .ok (sends (PathLookup.getParameter rcp s path none) fun p =>
        [.setMin p.ptr (numberOf p a), .serverUpdate, .setMax p.ptr (numberOf p b),
          .serverUpdate]) := by
  simp only [apart, Indexing.parameterSetMin, Indexing.parameterSetMax, setBound_sends _ low,
    setBound_sends _ high, Indexing.ok_bind, sends]
  cases PathLookup.getParameter rcp s path none with
  | none => rfl
  | some p =>
    simp only
    split <;> rfl

theorem put_both (store : Store) (ptr : Nat) (low high : Value) :
    put (put store (.setMin ptr low)) (.setMax ptr high) =
      fun k => if k = ptr then ⟨some low, some high⟩ else store k := by
  funext k
  by_cases same : k = ptr <;> simp [put, same]

/-- Setting both to what they are is the one way of changing nothing. -/
theorem put_both_eq_iff {store : Store} {ptr : Nat} {low high : Value} :
    store = put (put store (.setMin ptr low)) (.setMax ptr high) ↔
      store ptr = ⟨some low, some high⟩ := by
  rw [put_both]
  constructor
  · intro same
    have here := congrFun same ptr
    rwa [if_pos rfl] at here
  · intro already
    funext k
    split
    · rename_i same
      rw [same, already]
    · rfl

/-- The one message does what the two do exactly when both atoms are floats, or there is no
    number at the end of the path, or it has these limits already. -/
theorem same_bounds_iff (rcp : Rcp S) (s : S) (path : List Atom) (a b : Atom) (store : Store)
    (low : canbeFloat a = true) (high : canbeFloat b = true) :
    SameBounds rcp s path a b store ↔ (isFloat a = true ∧ isFloat b = true) ∨
      ∀ p, PathLookup.getParameter rcp s path none = some p →
        ¬ IsNumber p ∨ store p.ptr = ⟨some (numberOf p a), some (numberOf p b)⟩ := by
  have opened : SameBounds rcp s path a b store ↔
      (if path ≠ [] ∧ isFloat a = true ∧ isFloat b = true then
        sends (PathLookup.getParameter rcp s path none) fun p =>
          [.setMin p.ptr (numberOf p a), .setMax p.ptr (numberOf p b), .serverUpdate]
      else [.error "invalid data for setting min and max" []]).foldl put store =
      (sends (PathLookup.getParameter rcp s path none) fun p =>
        [.setMin p.ptr (numberOf p a), .serverUpdate, .setMax p.ptr (numberOf p b),
          .serverUpdate]).foldl put store := by
    rw [SameBounds, together_sends, apart_sends low high]
    constructor
    · rintro ⟨one, two, first, second, same⟩
      cases first
      cases second
      exact same
    · intro same
      exact ⟨_, _, rfl, rfl, same⟩
  rw [opened]
  cases found : PathLookup.getParameter rcp s path none with
  | none =>
    simp only [sends, reduceCtorEq, false_implies, implies_true, or_true, iff_true]
    split <;> rfl
  | some p =>
    have some_atom : path ≠ [] := by
      intro empty
      rw [empty] at found
      cases found
    by_cases number : IsNumber p
    · by_cases floats : isFloat a = true ∧ isFloat b = true
      · rw [if_pos ⟨some_atom, floats⟩]
        simp only [sends, number, ↓reduceIte, floats, and_self, true_or, iff_true]
        rfl
      · rw [if_neg (fun all => floats all.2)]
        simp only [sends, number, ↓reduceIte, floats, false_or, Option.some.injEq, not_true_eq_false,
          forall_eq']
        exact put_both_eq_iff
    · simp only [sends, number, ↓reduceIte, not_false_eq_true, true_or, or_true, iff_true,
        Option.some.injEq, forall_eq']
      split <;> rfl

end

def lone : List Parameter := [⟨1, 1, .int32, some PathLookup.nameA, none⟩]

def unlimited : Store := fun _ => ⟨none, none⟩

theorem lone_ints :
    SameBounds ListManager.listManager lone [.symbol PathLookup.nameA] (.int 0) (.int 10) unlimited ↔
      (isFloat (.int 0) = true ∧ isFloat (.int 10) = true) ∨
        ∀ p, PathLookup.getParameter ListManager.listManager lone [.symbol PathLookup.nameA] none =
            some p →
          ¬ IsNumber p ∨ unlimited p.ptr = ⟨some (numberOf p (.int 0)), some (numberOf p (.int 10))⟩ :=
  same_bounds_iff ListManager.listManager lone [.symbol PathLookup.nameA] (.int 0) (.int 10)
    unlimited rfl rfl

/-- `setminmax a 0 10` with int atoms is an error, `setmin a 0` and `setmax a 10` set both. -/
theorem int_atoms_refused :
    together ListManager.listManager lone [.symbol PathLookup.nameA] (.int 0) (.int 10) =
      .ok [.error "invalid data for setting min and max" []] ∧
    apart ListManager.listManager lone [.symbol PathLookup.nameA] (.int 0) (.int 10) =
      .ok [.setMin 1 (.int32 0), .serverUpdate, .setMax 1 (.int32 10), .serverUpdate] ∧
    ¬ SameBounds ListManager.listManager lone [.symbol PathLookup.nameA] (.int 0) (.int 10)
      unlimited := by
  have one : together ListManager.listManager lone [.symbol PathLookup.nameA] (.int 0) (.int 10) =
      .ok [.error "invalid data for setting min and max" []] := rfl
  have two : apart ListManager.listManager lone [.symbol PathLookup.nameA] (.int 0) (.int 10) =
      .ok [.setMin 1 (.int32 0), .serverUpdate, .setMax 1 (.int32 10), .serverUpdate] := rfl
  refine ⟨one, two, ?_⟩
  rintro ⟨_, _, first, second, same⟩
  rw [one] at first
  rw [two] at second
  cases first
  cases second
  exact absurd (congrFun same 1) (by decide)

end Limits
