import RcpFlext.PathLookup

/- What the objects say about a parameter: the id outlet and the list that follows it when a
   parameter is added, removed or updated, and the replies to `id` and `info`. -/
namespace Reports
open Atoms Datatypes ParameterTree PathLookup

/-- The getters of rcp-c that reports read besides the fields of `Parameter`. A string may
    be NULL. -/
structure Getters (S : Type) where
  valueBool : S → Nat → Bool
  valueInt32 : S → Nat → CInt
  valueFloat : S → Nat → Binary32.Word
  valueString : S → Nat → Option CString
  hasMinimum : S → Nat → Bool
  hasMaximum : S → Nat → Bool
  minimumI32 : S → Nat → CInt
  maximumI32 : S → Nat → CInt
  minimumF32 : S → Nat → Binary32.Word
  maximumF32 : S → Nat → Binary32.Word

inductive Out where
  | int (outlet : Nat) (v : CInt)
  | list (outlet : Nat) (atoms : List Atom)
  | call (c : Call)
  deriving DecidableEq

def symbol (s : List Char) : Atom := .symbol (.ofBytes (text s))

def typeToString (type : Datatype) : Atom :=
  match type with
  | .float32 => symbol ['f', 'l', 'o', 'a', 't']
  | .int32 => symbol ['i', 'n', 't']
  | .boolean => symbol ['t', 'o', 'g', 'g', 'l', 'e']
  | .bang => symbol ['b', 'a', 'n', 'g']
  | .string => symbol ['s', 't', 'r', 'i', 'n', 'g']
  | .group => symbol ['g', 'r', 'o', 'u', 'p']
  | _ => symbol ['u', 'n', 'k', 'n', 'o', 'w', 'n']

def setBool (b : Bool) : Atom := .int (if b then 1 else 0)

/-- The loop of `getParents` from a group upwards, with as many turns left. -/
def getParentsFrom (ps : List Parameter) : Nat → Option Nat → Option (List CString)
  | _, none => some []
  | 0, some _ => none
  | turns + 1, some g => do
    let group ← ps.find? (·.ptr = g)
    let above ← getParentsFrom ps turns group.parent
    some (group.label.getD (.ofBytes (text ['n', 'u', 'l', 'l'])) :: above)

def getParents (ps : List Parameter) (p : Parameter) : Option (List CString) :=
  getParentsFrom ps ps.length p.parent

section
variable {S : Type} (rcp : Rcp S) (get : Getters S) (s : S) (p : Parameter)

def address (word : List Char) : Option (List Atom) :=
  (getParents (rcp.parameters s) p).map fun groups =>
    [symbol word] ++ groups.reverse.map .symbol ++
      [.symbol (p.label.getD (.ofBytes (text ['<', 'n', 'o', 'l', 'a', 'b', 'e', 'l', '>'])))]

def valueAtoms : Option (List Atom) :=
  match p.type with
  | .boolean => some [setBool (get.valueBool s p.ptr)]
  | .int32 => some [.int (get.valueInt32 s p.ptr)]
  | .float32 => some [.float (get.valueFloat s p.ptr)]
  | .string => (get.valueString s p.ptr).map fun v => [.symbol v]
  | _ => some []

def addedAtoms : Option (List Atom) :=
  if p.isValue then
    if p.type = .string then some [.symbol ((get.valueString s p.ptr).getD .empty)]
    else valueAtoms get s p
  else if p.type = .bang then some [symbol ['[', 'b', 'a', 'n', 'g', ']']]
  else some [symbol ['[', 'g', 'r', 'o', 'u', 'p', ']']]

def addedCalls : List Out :=
  if p.isValue then [.call (.setValueUpdatedCb p.ptr)]
  else if p.type = .bang then [.call (.setBangCb p.ptr)]
  else []

/-- The id is fetched into a `uint16_t`. -/
def parameterAdded : Option (List Out) := do
  let path ← address rcp s p ['a', 'd', 'd']
  let value ← addedAtoms get s p
  some (addedCalls p ++ [.int 1 (p.id.zeroExtend 32), .list 0 (path ++ value)])

def parameterRemoved : Option (List Out) := do
  let path ← address rcp s p ['r', 'e', 'm', 'o', 'v', 'e']
  some [.int 1 (p.id.zeroExtend 32), .list 0 path]

/-- The id is fetched into an `int16_t`. -/
def parameterUpdate : Option (List Out) := do
  let path ← address rcp s p ['u', 'p', 'd', 'a', 't', 'e']
  let value ← valueAtoms get s p
  some [.int 1 (p.id.signExtend 32), .list 0 (path ++ value)]

def limitAtoms : List Atom :=
  match p.type with
  | .int32 =>
    (if get.hasMinimum s p.ptr then [.int (get.minimumI32 s p.ptr)] else []) ++
      (if get.hasMaximum s p.ptr then [.int (get.maximumI32 s p.ptr)] else [])
  | .float32 =>
    (if get.hasMinimum s p.ptr then [.float (get.minimumF32 s p.ptr)] else []) ++
      (if get.hasMaximum s p.ptr then [.float (get.maximumF32 s p.ptr)] else [])
  | _ => []

/-- `_outputInfo` for a parameter that was found; the id is fetched into an `int16_t`. -/
def outputInfo (argv : List Atom) : Option (List Out) := do
  let value ← valueAtoms get s p
  some [.list 3 ([symbol ['i', 'n', 'f', 'o']] ++ argv ++ value ++ limitAtoms get s p ++
    [.int (p.id.signExtend 32), typeToString p.type])]

end

section
variable {S : Type} (rcp : Rcp S) (get : Getters S) (s : S)

def parameterId (argv : List Atom) : List Out :=
  match getParameter rcp s argv none with
  | some p => [.list 3 ([symbol ['i', 'd']] ++ argv ++ [.int (p.id.signExtend 32)])]
  | none => []

def parameterInfo (argv : List Atom) : Option (List Out) :=
  if argv = [] then
    ((rcp.parameters s).mapM fun p => do
      let groups ← getParents (rcp.parameters s) p
      outputInfo get s p (groups.reverse.map .symbol)).map List.flatten
  else
    match getParameter rcp s argv none with
    | some p => outputInfo get s p argv
    | none => some []

end

theorem mapM_mem {A B : Type} {f : A → Option B} {as : List A} {bs : List B}
    (mapped : as.mapM f = some bs) : ∀ b ∈ bs, ∃ a ∈ as, f a = some b := by
  induction as generalizing bs with
  | nil =>
    cases mapped
    intro b none
    contradiction
  | cons a as ih =>
    rw [List.mapM_cons] at mapped
    obtain ⟨first, here, rest⟩ := Option.bind_eq_some_iff.mp mapped
    obtain ⟨others, later, eq⟩ := Option.bind_eq_some_iff.mp rest
    cases eq
    intro b among
    rcases List.mem_cons.mp among with same | other
    · exact ⟨a, .head _, same ▸ here⟩
    · obtain ⟨c, inside, gives⟩ := ih later b other
      exact ⟨c, .tail _ inside, gives⟩

section
variable {S : Type} {rcp : Rcp S} {get : Getters S} {s : S} {argv : List Atom} {outs : List Out}

theorem outputInfo_single {p : Parameter} (told : outputInfo get s p argv = some outs) :
    ∃ out, outs = [out] := by
  obtain ⟨value, _, eq⟩ := Option.bind_eq_some_iff.mp told
  cases eq
  exact ⟨_, rfl⟩

theorem parameterInfo_about (told : parameterInfo rcp get s argv = some outs) :
    ∀ out ∈ outs, ∃ p path, outputInfo get s p path = some [out] := by
  intro out among
  -- the list comes from one call of outputInfo, which sends one list
  have from_one {p : Parameter} {path : List Atom} {lists : List Out}
      (said : outputInfo get s p path = some lists) (member : out ∈ lists) :
      ∃ p path, outputInfo get s p path = some [out] := by
    obtain ⟨one, eq⟩ := outputInfo_single said
    subst eq
    rw [List.mem_singleton.mp member]
    exact ⟨p, path, said⟩
  unfold parameterInfo at told
  split at told
  · obtain ⟨lists, mapped, eq⟩ := Option.map_eq_some_iff.mp told
    subst eq
    obtain ⟨some_list, inside, member⟩ := List.mem_flatten.mp among
    obtain ⟨p, _, said⟩ := mapM_mem mapped some_list inside
    obtain ⟨groups, _, said⟩ := Option.bind_eq_some_iff.mp said
    exact from_one said member
  · split at told
    · exact from_one told among
    · cases told
      contradiction

end

/-- Parents are listed groups, so every way up ends at the root. -/
structure Rooted (ps : List Parameter) : Prop extends Tree ps where
  listed : ∀ p ∈ ps, ∀ g, p.parent = some g → ∃ group ∈ ps, group.ptr = g ∧ group.isGroup = true

section
variable {ps : List Parameter}

/-- What has been seen on the way up ranks above the next address, so that is a new one,
    and there are never more than the list has. -/
theorem next_fresh {rank : Nat → Nat} {seen : List Nat} (distinct : seen.Nodup)
    (inside : ∀ a ∈ seen, a ∈ ps.map (·.ptr)) {g : Nat} (above : ∀ a ∈ seen, rank g < rank a)
    (listed : g ∈ ps.map (·.ptr)) : (g :: seen).Nodup ∧ (g :: seen).length ≤ ps.length := by
  have fresh : (g :: seen).Nodup := by
    refine List.nodup_cons.mpr ⟨?_, distinct⟩
    intro again
    exact Nat.lt_irrefl _ (above g again)
  have within : g :: seen ⊆ ps.map (·.ptr) := List.cons_subset.mpr ⟨listed, inside⟩
  have shorter := (List.subperm_of_subset fresh within).length_le
  rw [List.length_map] at shorter
  exact ⟨fresh, shorter⟩

theorem getParentsFrom_ends (rooted : Rooted ps) {rank : Nat → Nat}
    (falls : ∀ p ∈ ps, ∀ g, p.parent = some g → rank g < rank p.ptr) (turns : Nat)
    {seen : List Nat} (distinct : seen.Nodup) (inside : ∀ a ∈ seen, a ∈ ps.map (·.ptr))
    {g : Nat} (above : ∀ a ∈ seen, rank g < rank a) (listed : g ∈ ps.map (·.ptr))
    (enough : ps.length ≤ turns + seen.length) :
    ∃ groups, getParentsFrom ps turns (some g) = some groups := by
  induction turns generalizing seen g with
  | zero =>
    have room := (next_fresh distinct inside above listed).2
    rw [List.length_cons] at room
    omega
  | succ turns ih =>
    have fresh := (next_fresh distinct inside above listed).1
    obtain ⟨group, mem, address⟩ := List.mem_map.mp listed
    obtain ⟨found, first⟩ : ∃ found, ps.find? (·.ptr = g) = some found :=
      Option.isSome_iff_exists.mp (List.find?_isSome.mpr ⟨group, mem, by simpa using address⟩)
    have found_mem := List.mem_of_find?_eq_some first
    have found_at : found.ptr = g := by simpa using List.find?_some first
    have onwards : ∃ above, getParentsFrom ps turns found.parent = some above := by
      cases parent : found.parent with
      | none => exact ⟨[], by cases turns <;> rfl⟩
      | some h =>
        have lower : rank h < rank g := found_at ▸ falls found found_mem h parent
        obtain ⟨higher, higher_mem, higher_at, _⟩ := rooted.listed found found_mem h parent
        apply ih fresh (List.forall_mem_cons.mpr ⟨listed, inside⟩)
          (List.forall_mem_cons.mpr ⟨lower, ?_⟩) (List.mem_map.mpr ⟨higher, higher_mem, higher_at⟩)
        · rw [List.length_cons]
          omega
        · intro a seen_a
          exact Nat.lt_trans lower (above a seen_a)
    obtain ⟨rest, ended⟩ := onwards
    refine ⟨found.label.getD (.ofBytes (text ['n', 'u', 'l', 'l'])) :: rest, ?_⟩
    rw [getParentsFrom, first]
    simp [ended]

theorem getParents_ends (rooted : Rooted ps) {p : Parameter} (inside : p ∈ ps) :
    ∃ groups, getParents ps p = some groups := by
  unfold getParents
  cases parent : p.parent with
  | none => exact ⟨[], by cases ps.length <;> rfl⟩
  | some g =>
    obtain ⟨rank, falls⟩ := rooted.ranked
    obtain ⟨group, mem, address, _⟩ := rooted.listed p inside g parent
    apply getParentsFrom_ends rooted falls ps.length List.nodup_nil
    · intro a none
      contradiction
    · intro a none
      contradiction
    · exact List.mem_map.mpr ⟨group, mem, address⟩
    · omega

end

end Reports
