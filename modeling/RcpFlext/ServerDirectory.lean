import RcpFlext.Contents
import RcpFlext.ExposeWhole
import RcpFlext.Limits

/- rcp.server as a directory. Every message that makes, sets or removes something does to the
   contents of the server what `act` does to a directory, and nothing else. -/
namespace ServerDirectory
open Atoms Datatypes ParameterTree PathLookup Expose Contents Directories

inductive Message where
  | expose (argv : List Atom)
  | removeId (id : CInt)
  | remove (argv : List Atom)
  | setreadonly (argv : List Atom)
  | setorder (argv : List Atom)
  | setmin (argv : List Atom)
  | setmax (argv : List Atom)
  | setminmax (argv : List Atom)
  | list (argv : List Atom)
  | anything (sym : CString) (argv : List Atom)

section
variable {S : Type} (rcp : Rcp S) (perform : S → Call → S)

/-- A handler's calls, made; no step where it reads outside the message. -/
def handled (s : S) : Except Int (List Call) → Option (S × List Call)
  | .ok calls => some (calls.foldl perform s, calls)
  | .error _ => none

def step : Runs.Machine S Message (List Call) := fun s m =>
  match m with
  | .expose argv =>
    let exposed := exposeParameter rcp s argv
    some (exposed.calls.foldl perform exposed.server, exposed.calls)
  | .removeId id =>
    let (next, calls) := removeParameter rcp s id
    some (calls.foldl perform next, calls)
  | .remove argv =>
    let (next, calls) := removeParameterList rcp s argv
    some (calls.foldl perform next, calls)
  | .setreadonly argv =>
    handled perform s (Indexing.parameterSetReadonly rcp s argv.length ⟨argv, 0⟩)
  | .setorder argv => handled perform s (Indexing.parameterSetOrder rcp s argv.length ⟨argv, 0⟩)
  | .setmin argv => handled perform s (Indexing.parameterSetMin rcp s argv.length ⟨argv, 0⟩)
  | .setmax argv => handled perform s (Indexing.parameterSetMax rcp s argv.length ⟨argv, 0⟩)
  | .setminmax argv => handled perform s (Indexing.parameterSetMinMax rcp s argv.length ⟨argv, 0⟩)
  | .list argv => (Input.mList rcp s argv).map fun calls => (calls.foldl perform s, calls)
  | .anything sym argv => (Input.mAny rcp s sym argv).map fun calls => (calls.foldl perform s, calls)

end

/- What the messages mean for a directory. -/

def byPath (argv : List Atom) (q : List CString) (_ : Entry) : Prop := argv = q.map .symbol

def byId (id : BitVec 16) (_ : List CString) (e : Entry) : Prop := e.id = id

instance (argv : List Atom) (q : List CString) (e : Entry) : Decidable (byPath argv q e) :=
  inferInstanceAs (Decidable (_ = _))

instance (id : BitVec 16) (q : List CString) (e : Entry) : Decidable (byId id q e) :=
  inferInstanceAs (Decidable (_ = _))

def limit (type : Datatype) (a : Atom) : Option Value :=
  match type with
  | .float32 => some (.float32 (getAFloat a))
  | .int32 => some (.int32 (getAInt a 0))
  | _ => none

def default : Datatype → Option Value
  | .float32 => some (.float32 0)
  | .int32 => some (.int32 0)
  | .boolean => some (.boolean false)
  | .string => some (.string .empty)
  | _ => none

namespace Entry

def setReadonly (a : Atom) (e : Entry) : Entry :=
  { e with fields.readonly := 0 < (getAInt a 0).toInt }

def setOrder (a : Atom) (e : Entry) : Entry := { e with fields.order := getAInt a 0 }

def setMin (a : Atom) (e : Entry) : Entry :=
  match limit e.type a with
  | some v => { e with fields.minimum := some v }
  | none => e

def setMax (a : Atom) (e : Entry) : Entry :=
  match limit e.type a with
  | some v => { e with fields.maximum := some v }
  | none => e

def drive (a : Atom) (e : Entry) : Entry :=
  match Input.valueOf e.type a with
  | some v => { e with fields.value := some v }
  | none => e

def group (id : BitVec 16) : Entry := ⟨.group, id, blank⟩

/-- An exposed parameter: its limits come as floats and are cut to its type. -/
def fresh (type : Datatype) (id : BitVec 16) (options : Options) : Entry where
  type := type
  id := id
  fields :=
    { value := default type
      minimum := options.min.bind fun w => limit type (.float w)
      maximum := options.max.bind fun w => limit type (.float w)
      order := options.order.getD 0
      readonly := options.readonly.getD false }

end Entry

abbrev Contents := Directory CString Entry

def amendLast (argv : List Atom) (accepts : Atom → Bool) (f : Atom → Entry → Entry)
    (d : Contents) : Contents :=
  match argv.getLast? with
  | some a => if accepts a then amend (byPath argv.dropLast) (f a) d else d
  | none => d

def driveLast (argv : List Atom) (d : Contents) : Contents :=
  match argv with
  | [] => d
  | a :: rest =>
    if canbeInt a then
      let id : BitVec 16 := (getAInt a 0).setWidth 16
      if id = 0 then d else amend (byId id) (Entry.drive (rest.getLastD a)) d
    else if isString a then amendLast (a :: rest) (fun _ => true) Entry.drive d
    else d

/-- Groups where they are missing, then the parameter if it has a label and is not there. -/
def exposeAt (ids : List CString → BitVec 16) (request : Request) (d : Contents) : Contents :=
  let labels := (request.first :: request.rest).map getAsString
  let grouped := fill (fun q => Entry.group (ids q)) d [] labels.dropLast
  if (labels.getLastD .empty).isEmpty ∨ (grouped labels).isSome then grouped
  else put grouped labels (Entry.fresh request.type (ids labels) request.options)

/-- The ids are the library's choice. -/
def act (ids : List CString → BitVec 16) (d : Contents) : Message → Contents
  | .expose argv =>
    match readRequest argv with
    | .ok request => exposeAt ids request d
    | .error _ => d
  | .removeId id => prune (byId (id.setWidth 16)) d
  | .remove argv => prune (byPath argv) d
  | .setreadonly argv => amendLast argv canbeInt Entry.setReadonly d
  | .setorder argv => amendLast argv canbeInt Entry.setOrder d
  | .setmin argv => amendLast argv canbeFloat Entry.setMin d
  | .setmax argv => amendLast argv canbeFloat Entry.setMax d
  | .setminmax argv =>
    match argv.getLast? with
    | some high =>
      if isFloat high then
        amendLast argv.dropLast isFloat (fun low e => Entry.setMax high (Entry.setMin low e)) d
      else d
    | none => d
  | .list argv => driveLast argv d
  | .anything sym argv => driveLast (.symbol sym :: argv) d

def Clear (d : Contents) (path : List Atom) : Prop :=
  ∀ labels e, labels.map Atom.symbol <+: path → labels.map Atom.symbol ≠ path →
    d labels = some e → e.type = .group

section
variable {S : Type} (rcp : Rcp S) (get : Queries.Getters S)

/-- All on the path but the last are symbols, and the library makes what it is asked for. -/
structure Served (s : S) (request : Request) : Prop where
  symbols : ∀ a ∈ (request.first :: request.rest).dropLast, isString a = true
  clear : Clear (contents rcp get s) (request.first :: request.rest)
  groups : ExposeWhole.GroupsMade rcp s none request.first request.rest
  parameter :
    let groups := createGroups rcp s none request.first request.rest
    groups.label.isEmpty = false →
      rcp.managerFindParameter groups.server groups.label groups.group = none →
      (rcp.serverExpose groups.server request.type groups.label groups.group).2 ≠ none

/-- Nothing is addressed through a parameter that is no group. -/
def Plain (s : S) : Message → Prop
  | .expose argv => ∀ request, readRequest argv = .ok request → Served rcp get s request
  | .removeId _ => True
  | .remove argv => Clear (contents rcp get s) argv
  | .setreadonly argv | .setorder argv | .setmin argv | .setmax argv =>
    Clear (contents rcp get s) argv.dropLast
  | .setminmax argv => Clear (contents rcp get s) argv.dropLast.dropLast
  | .list argv => (∀ sym, argv ≠ [.symbol sym]) ∧ Clear (contents rcp get s) argv.dropLast
  | .anything sym argv => Clear (contents rcp get s) (.symbol sym :: argv).dropLast

structure FindsId : Prop where
  inside : ∀ s id p, rcp.managerGetParameter s id = some p → p ∈ rcp.parameters s ∧ p.id = id
  every : ∀ s id, ∀ p ∈ rcp.parameters s, p.id = id → rcp.managerGetParameter s id ≠ none

end
section
variable {S : Type}

structure Library (rcp : Rcp S) (get : Queries.Getters S) (perform : S → Call → S) : Prop where
  finds : rcp.Finds
  findsId : FindsId rcp
  makes : Makes rcp get
  takes : Takes rcp get
  performs : Performs rcp get perform

/-- The calls for a parameter do to its entry what `f` does. -/
structure Sets (calls : Parameter → List Call) (f : Entry → Entry) : Prop where
  concern : ∀ p, ∀ c ∈ calls p, Concerns p.ptr c ∧ Suits p c
  effect : ∀ p fields, f ⟨p.type, p.id, fields⟩ =
    ⟨p.type, p.id, (calls p).foldl (changed p.ptr) fields⟩

theorem concern_cons {p : Parameter} {c : Call} {calls : List Call} (concerns : Concerns p.ptr c)
    (suits : Suits p c) (rest : ∀ d ∈ calls, Concerns p.ptr d ∧ Suits p d) :
    ∀ d ∈ c :: calls, Concerns p.ptr d ∧ Suits p d := by
  intro d among
  rcases List.mem_cons.mp among with eq | later
  · subst eq
    exact ⟨concerns, suits⟩
  · exact rest d later

theorem concern_nil {p : Parameter} : ∀ d ∈ ([] : List Call), Concerns p.ptr d ∧ Suits p d :=
  fun _ => nofun

theorem sets_readonly (a : Atom) :
    Sets (fun p => [.setReadonly p.ptr (0 < (getAInt a 0).toInt), .serverUpdate])
      (Entry.setReadonly a) where
  concern p := concern_cons rfl trivial (concern_cons trivial trivial concern_nil)
  effect p fields := by simp [changed, Entry.setReadonly]

theorem sets_order (a : Atom) :
    Sets (fun p => [.setOrder p.ptr (getAInt a 0), .serverUpdate]) (Entry.setOrder a) where
  concern p := concern_cons rfl trivial (concern_cons trivial trivial concern_nil)
  effect p fields := by simp [changed, Entry.setOrder]

theorem limit_number {p : Parameter} (a : Atom) (number : Limits.IsNumber p) :
    limit p.type a = some (Limits.numberOf p a) ∧
      limitType (Limits.numberOf p a) = some p.type := by
  rcases number with float | int
  · simp [limit, Limits.numberOf, float, limitType]
  · simp [limit, Limits.numberOf, int, limitType]

theorem limit_other {p : Parameter} (a : Atom) (other : ¬ Limits.IsNumber p) :
    limit p.type a = none := by
  rw [Limits.IsNumber, not_or] at other
  cases type : p.type <;> simp_all [limit]

theorem sets_number {calls : Parameter → List Call} {f : Entry → Entry}
    (concern : ∀ p, Limits.IsNumber p → ∀ c ∈ calls p, Concerns p.ptr c ∧ Suits p c)
    (effect : ∀ p fields, Limits.IsNumber p → f ⟨p.type, p.id, fields⟩ =
      ⟨p.type, p.id, (calls p).foldl (changed p.ptr) fields⟩)
    (other : ∀ p fields, ¬ Limits.IsNumber p → f ⟨p.type, p.id, fields⟩ = ⟨p.type, p.id, fields⟩) :
    Sets (fun p => if Limits.IsNumber p then calls p else []) f where
  concern p := by
    by_cases number : Limits.IsNumber p
    · rw [if_pos number]
      exact concern p number
    · rw [if_neg number]
      exact concern_nil
  effect p fields := by
    by_cases number : Limits.IsNumber p
    · rw [if_pos number]
      exact effect p fields number
    · rw [if_neg number]
      exact other p fields number

theorem sets_min (a : Atom) :
    Sets (fun p => if Limits.IsNumber p then
      [.setMin p.ptr (Limits.numberOf p a), .serverUpdate] else []) (Entry.setMin a) := by
  apply sets_number
  · intro p number
    exact concern_cons rfl (fun _ => (limit_number a number).2)
      (concern_cons trivial trivial concern_nil)
  · intro p fields number
    simp [Entry.setMin, (limit_number a number).1, changed]
  · intro p fields other
    simp [Entry.setMin, limit_other a other]

theorem sets_max (a : Atom) :
    Sets (fun p => if Limits.IsNumber p then
      [.setMax p.ptr (Limits.numberOf p a), .serverUpdate] else []) (Entry.setMax a) := by
  apply sets_number
  · intro p number
    exact concern_cons rfl (fun _ => (limit_number a number).2)
      (concern_cons trivial trivial concern_nil)
  · intro p fields number
    simp [Entry.setMax, (limit_number a number).1, changed]
  · intro p fields other
    simp [Entry.setMax, limit_other a other]

theorem sets_minmax (low high : Atom) :
    Sets (fun p => if Limits.IsNumber p then
      [.setMin p.ptr (Limits.numberOf p low), .setMax p.ptr (Limits.numberOf p high), .serverUpdate]
      else []) (fun e => Entry.setMax high (Entry.setMin low e)) := by
  apply sets_number
  · intro p number
    exact concern_cons rfl (fun _ => (limit_number low number).2)
      (concern_cons rfl (fun _ => (limit_number high number).2)
        (concern_cons trivial trivial concern_nil))
  · intro p fields number
    simp [Entry.setMax, Entry.setMin, (limit_number _ number).1, changed]
  · intro p fields other
    simp [Entry.setMax, Entry.setMin, limit_other _ other]

def assigned (a : Atom) (p : Parameter) : List Call :=
  match Input.setAtomValue (some p) a with
  | some call => [call, .managerUpdate]
  | none => []

theorem valueOf_suits {type : Datatype} {a : Atom} {v : Value}
    (worth : Input.valueOf type a = some v) : valueType v = type := by
  cases type <;> simp only [Input.valueOf] at worth
  case boolean | int32 | float32 | string =>
    split at worth
    · cases worth
      rfl
    · contradiction
  all_goals contradiction

theorem setAtomValue_eq (p : Parameter) (a : Atom) :
    Input.setAtomValue (some p) a = (Input.valueOf p.type a).map (.setValue p.ptr) := by
  unfold Input.setAtomValue
  by_cases value : p.isValue = true
  · exact if_pos value
  · cases worth : Input.valueOf p.type a with
    | none => exact if_neg value
    | some v =>
      have type := valueOf_suits worth
      refine absurd ?_ value
      cases v <;> simp [Parameter.isValue, ← type, valueType]

theorem sets_drive (a : Atom) : Sets (assigned a) (Entry.drive a) where
  concern p := by
    rw [assigned, setAtomValue_eq]
    cases worth : Input.valueOf p.type a with
    | none => exact concern_nil
    | some v =>
      exact concern_cons rfl (fun _ => valueOf_suits worth)
        (concern_cons trivial trivial concern_nil)
  effect p fields := by
    rw [assigned, setAtomValue_eq, Entry.drive]
    cases Input.valueOf p.type a with
    | none => rfl
    | some v => simp [changed]

section
variable {rcp : Rcp S} {get : Queries.Getters S} {perform : S → Call → S} {s : S}
  {argv : List Atom} {p : Parameter} {g : Option Nat}

theorem getParameter_clear (finds : rcp.FindsChild)
    (clear : ∀ labels q, labels.map Atom.symbol <+: argv → labels.map Atom.symbol ≠ argv →
      LabelPath (rcp.parameters s) g labels q → q.isGroup = true)
    (found : getParameter rcp s argv g = some p) :
    ∃ labels, argv = labels.map .symbol ∧ LabelPath (rcp.parameters s) g labels p := by
  induction argv generalizing g with
  | nil => contradiction
  | cons a argv ih =>
    obtain ⟨l, q, symbol, child, rest⟩ := getParameter_step found
    have isChild := finds s l g q child
    subst symbol
    cases argv with
    | nil =>
      cases Option.some.inj rest
      exact ⟨[l], rfl, .child isChild⟩
    | cons b argv =>
      have group : q.isGroup = true :=
        clear [l] q ⟨b :: argv, rfl⟩ (by simp) (.child isChild)
      have lower (labels) (r) (way : labels.map Atom.symbol <+: b :: argv)
          (part : labels.map Atom.symbol ≠ b :: argv)
          (path : LabelPath (rcp.parameters s) (some q.ptr) labels r) : r.isGroup = true := by
        apply clear (l :: labels) r
        · rw [List.map_cons, List.cons_prefix_cons]
          exact ⟨rfl, way⟩
        · intro whole
          exact part (List.cons.inj whole).2
        · exact labelPath_cons isChild group path
      rw [getParameter_cons, if_pos group] at rest
      obtain ⟨labels, eq, path⟩ := ih lower rest
      exact ⟨l :: labels, by rw [eq, List.map_cons], labelPath_cons isChild group path⟩

theorem group_of_clear (unique : UniqueSiblings (rcp.parameters s))
    (clear : Clear (contents rcp get s) argv) (labels : List CString) (q : Parameter)
    (way : labels.map Atom.symbol <+: argv) (part : labels.map Atom.symbol ≠ argv)
    (path : LabelPath (rcp.parameters s) none labels q) : q.isGroup = true := by
  have type : q.type = .group := clear labels _ way part (contents_at unique path)
  exact decide_eq_true type

theorem named_byPath (finds : rcp.Finds) (sound : Sound (rcp.parameters s))
    (clear : Clear (contents rcp get s) argv) :
    Named rcp get s (byPath argv) (getParameter rcp s argv none) := by
  have only := group_of_clear sound.unique clear
  constructor
  · intro p found
    obtain ⟨labels, _, path⟩ := getParameter_clear finds.child only found
    exact labelPath_inside path
  · intro path p at_path
    constructor
    · intro same
      have eq : argv = path.map .symbol := same
      rw [eq]
      exact InputDriven.getParameter_of_path finds sound.unique at_path
    · intro found
      obtain ⟨labels, eq, other⟩ := getParameter_clear finds.child only found
      rw [path_unique sound.toTree at_path other]
      exact eq

theorem same_of_id (sound : Sound (rcp.parameters s)) {q : Parameter}
    (here : p ∈ rcp.parameters s) (there : q ∈ rcp.parameters s) (same : p.id = q.id) : p = q :=
  List.inj_on_of_nodup_map sound.ids here there same

theorem get_iff (findsId : FindsId rcp) (sound : Sound (rcp.parameters s)) (id : BitVec 16)
    (inside : p ∈ rcp.parameters s) : p.id = id ↔ rcp.managerGetParameter s id = some p := by
  constructor
  · intro same
    obtain ⟨q, found⟩ := Option.ne_none_iff_exists'.mp (findsId.every s id p inside same)
    obtain ⟨there, other⟩ := findsId.inside s id q found
    rw [found, same_of_id sound there inside (other.trans same.symm)]
  · intro found
    exact (findsId.inside s id p found).2

theorem named_byId (findsId : FindsId rcp) (sound : Sound (rcp.parameters s)) (id : BitVec 16) :
    Named rcp get s (byId id) (rcp.managerGetParameter s id) :=
  ⟨fun p found => (findsId.inside s id p found).1,
    fun _ _ path => get_iff findsId sound id (labelPath_inside path)⟩

theorem contents_sets (performs : Performs rcp get perform) (sound : Sound (rcp.parameters s))
    {hit : List CString → Entry → Prop} [∀ q e, Decidable (hit q e)] {found : Option Parameter}
    (named : Named rcp get s hit found) {calls : Parameter → List Call} {f : Entry → Entry}
    (sets : Sets calls f) :
    contents rcp get ((found.elim [] calls).foldl perform s) = amend hit f (contents rcp get s) :=
  contents_amend performs sound named (fun p _ => sets.concern p) fun p _ =>
    sets.effect p (fieldsOf get s p)

theorem contents_prunes (lib : Library rcp get perform) (sound : Sound (rcp.parameters s))
    {hit : List CString → Entry → Prop} [∀ q e, Decidable (hit q e)]
    (named : Named rcp get s hit (some p)) :
    contents rcp get (rcp.serverRemoveParameterId s p.id).1 = prune hit (contents rcp get s) := by
  apply contents_takes lib.takes sound named
  intro q inside
  constructor
  · intro same
    rw [same_of_id sound inside (named.1 p rfl) same]
  · intro same
    cases same
    rfl

theorem prune_nothing (unique : UniqueSiblings (rcp.parameters s))
    {hit : List CString → Entry → Prop} [∀ q e, Decidable (hit q e)]
    (named : Named rcp get s hit none) :
    prune hit (contents rcp get s) = contents rcp get s := by
  funext path
  apply prune_of_miss
  intro on
  obtain ⟨above, e, _, here, hits⟩ := hitOn_iff.mp on
  obtain ⟨q, at_path, eq⟩ := (contents_iff unique).mp here
  subst eq
  exact absurd ((named.2 above q at_path).mp hits) (by simp)

end
end
end ServerDirectory
