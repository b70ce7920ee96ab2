import RcpFlext.Queries
import RcpFlext.SiblingLabels
import RcpFlext.InputDriven
import RcpFlext.Library.Directory

/- What a server holds as a directory: under each label path the type, the id and what is set
   of the parameter there. How it changes when a parameter is made, set or removed. -/
namespace Contents
open Atoms Datatypes ParameterTree PathLookup Directories Queries

structure Fields where
  value : Option Value
  minimum : Option Value
  maximum : Option Value
  order : CInt
  readonly : Bool
  deriving DecidableEq

structure Entry where
  type : Datatype
  id : BitVec 16
  fields : Fields
  deriving DecidableEq

def blank : Fields := ⟨none, none, none, 0, false⟩

def valueType : Value → Datatype
  | .boolean _ => .boolean
  | .int32 _ => .int32
  | .float32 _ => .float32
  | .string _ => .string

def limitType : Value → Option Datatype
  | .int32 _ => some .int32
  | .float32 _ => some .float32
  | _ => none

def walk (ps : List Parameter) : Option Nat → List CString → Option Parameter
  | _, [] => none
  | g, l :: ls =>
    match ps.find? fun p => p.label = some l ∧ p.parent = g with
    | none => none
    | some p =>
      if ls = [] then some p else if p.isGroup then walk ps (some p.ptr) ls else none

section
variable {S : Type} (rcp : Rcp S) (get : Getters S) (s : S) (p : Parameter)

def valueOf : Option Value :=
  match p.type with
  | .boolean => some (.boolean (get.valueBool s p.ptr))
  | .int32 => some (.int32 (get.valueInt32 s p.ptr))
  | .float32 => some (.float32 (get.valueFloat s p.ptr))
  | .string => (get.valueString s p.ptr).map .string
  | _ => none

def limitOf (has : S → Nat → Bool) (int32 : S → Nat → CInt)
    (float32 : S → Nat → Binary32.Word) : Option Value :=
  if has s p.ptr then
    match p.type with
    | .int32 => some (.int32 (int32 s p.ptr))
    | .float32 => some (.float32 (float32 s p.ptr))
    | _ => none
  else none

def fieldsOf : Fields where
  value := valueOf get s p
  minimum := limitOf s p get.hasMinimum get.minInt32 get.minFloat
  maximum := limitOf s p get.hasMaximum get.maxInt32 get.maxFloat
  order := get.order s p.ptr
  readonly := get.readonly s p.ptr

def entryOf : Entry := ⟨p.type, p.id, fieldsOf get s p⟩

def contents : Directory CString Entry := fun path =>
  (walk (rcp.parameters s) none path).map (entryOf get s)

end

/-- What a call changes of the parameter at `ptr`. -/
def changed (ptr : Nat) (f : Fields) : Call → Fields
  | .setValue k v => if k = ptr then { f with value := some v } else f
  | .setMin k v => if k = ptr then { f with minimum := some v } else f
  | .setMax k v => if k = ptr then { f with maximum := some v } else f
  | .setOrder k order => if k = ptr then { f with order := order } else f
  | .setReadonly k readonly => if k = ptr then { f with readonly := readonly } else f
  | _ => f

/-- A value is one of the parameter's own type, a limit one of its own type of number. -/
def Suits (p : Parameter) : Call → Prop
  | .setValue k v => k = p.ptr → valueType v = p.type
  | .setMin k v | .setMax k v => k = p.ptr → limitType v = some p.type
  | _ => True

def Concerns (ptr : Nat) : Call → Prop
  | .setValue k _ | .setMin k _ | .setMax k _ | .setOrder k _ | .setReadonly k _ => k = ptr
  | _ => True

def Quiet : Call → Prop
  | .setValue _ _ | .setMin _ _ | .setMax _ _ | .setOrder _ _ | .setReadonly _ _ => False
  | _ => True

inductive Under (ps : List Parameter) (p : Parameter) : Parameter → Prop
  | child {q : Parameter} : q ∈ ps → q.parent = some p.ptr → Under ps p q
  | deeper {r q : Parameter} : Under ps p r → q ∈ ps → q.parent = some r.ptr → Under ps p q

section
variable {S : Type} (rcp : Rcp S) (get : Getters S) (perform : S → Call → S)

/-- What the setters set, the getters get, and nothing else changes. -/
structure Performs : Prop where
  parameters : ∀ s c, rcp.parameters (perform s c) = rcp.parameters s
  fields : ∀ s c, ∀ p ∈ rcp.parameters s, Suits p c →
    fieldsOf get (perform s c) p = changed p.ptr (fieldsOf get s p) c

/-- A new parameter has an id of its own and nothing set but a value; the others stay. -/
structure Adds (s : S) (new : Parameter) (s' : S) : Prop where
  grown : Grown (rcp.parameters s) new (rcp.parameters s')
  own_id : ∀ p ∈ rcp.parameters s, p.id ≠ new.id
  kept : ∀ p ∈ rcp.parameters s, fieldsOf get s' p = fieldsOf get s p
  unset : { fieldsOf get s' new with value := none } = blank

structure Makes : Prop where
  group : ∀ s l g s' ptr, rcp.serverCreateGroup s l g = (s', some ptr) →
    ∃ id, Adds rcp get s ⟨ptr, id, .group, some l, g⟩ s'
  expose : ∀ s type l g s' ptr, rcp.serverExpose s type l g = (s', some ptr) →
    ∃ id, Adds rcp get s ⟨ptr, id, type, some l, g⟩ s'

/-- Removing takes the parameter with the id, and of the others at most those below it. -/
structure Takes : Prop where
  gone : ∀ s id, ∀ p ∈ rcp.parameters s, p.id = id →
    p ∉ rcp.parameters (rcp.serverRemoveParameterId s id).1
  kept : ∀ s id, ∀ q ∈ rcp.parameters s,
    (∀ p ∈ rcp.parameters s, p.id = id → q ≠ p ∧ ¬ Under (rcp.parameters s) p q) →
    q ∈ rcp.parameters (rcp.serverRemoveParameterId s id).1
  fewer : rcp.Removes
  fields : ∀ s id, ∀ q ∈ rcp.parameters (rcp.serverRemoveParameterId s id).1,
    fieldsOf get (rcp.serverRemoveParameterId s id).1 q = fieldsOf get s q

end

structure Sound (ps : List Parameter) : Prop extends Tree ps where
  unique : UniqueSiblings ps
  ids : (ps.map (·.id)).Nodup

section
variable {ps qs : List Parameter} {g : Option Nat} {l : CString} {ls ms : List CString}
  {p q new : Parameter}

theorem findChild_iff (unique : UniqueSiblings ps) :
    (ps.find? fun p => p.label = some l ∧ p.parent = g) = some p ↔ IsChild ps l g p := by
  constructor
  · intro found
    have child := List.find?_some found
    exact ⟨List.mem_of_find?_eq_some found, by simpa using child⟩
  · intro child
    cases found : ps.find? fun p => p.label = some l ∧ p.parent = g with
    | none => exact absurd child.2 (by simpa using List.find?_eq_none.mp found p child.1)
    | some q =>
      have other := List.find?_some found
      have isChild : IsChild ps l g q := ⟨List.mem_of_find?_eq_some found, by simpa using other⟩
      rw [same_of_label unique isChild child]

theorem walk_of_path (unique : UniqueSiblings ps) (path : LabelPath ps g ls p) :
    walk ps g ls = some p := by
  induction ls generalizing g with
  | nil => exact absurd rfl (labelPath_ne_nil path)
  | cons l ls ih =>
    rcases InputDriven.labelPath_uncons path with ⟨only, child⟩ | ⟨q, top, group, more, lower⟩
    · subst only
      simp only [walk, (findChild_iff unique).mpr child, ↓reduceIte]
    · simp only [walk, (findChild_iff unique).mpr top, more, group, ↓reduceIte]
      exact ih lower

theorem path_of_walk (unique : UniqueSiblings ps) (walked : walk ps g ls = some p) :
    LabelPath ps g ls p := by
  induction ls generalizing g with
  | nil => contradiction
  | cons l ls ih =>
    rw [walk] at walked
    split at walked
    · contradiction
    · rename_i q found
      have top := (findChild_iff unique).mp found
      split at walked
      · rename_i only
        cases walked
        subst only
        exact .child top
      · split at walked
        · exact labelPath_cons top ‹_› (ih walked)
        · contradiction

theorem walk_inside (walked : walk ps g ls = some p) : p ∈ ps := by
  induction ls generalizing g with
  | nil => contradiction
  | cons l ls ih =>
    rw [walk] at walked
    split at walked
    · contradiction
    · rename_i q found
      split at walked
      · cases walked
        exact List.mem_of_find?_eq_some found
      · split at walked
        · exact ih walked
        · contradiction

theorem walk_iff (unique : UniqueSiblings ps) : walk ps g ls = some p ↔ LabelPath ps g ls p :=
  ⟨path_of_walk unique, walk_of_path unique⟩

theorem path_unique (tree : Tree ps) (path : LabelPath ps none ls p)
    (other : LabelPath ps none ms p) : ls = ms := by
  induction path generalizing ms with
  | child child =>
    cases other with
    | child child' =>
      have same := child.2.1.symm.trans child'.2.1
      cases same
      rfl
    | under _ _ child' =>
      have parent := child.2.2.symm.trans child'.2.2
      contradiction
  | under above _ child ih =>
    cases other with
    | child child' =>
      have parent := child.2.2.symm.trans child'.2.2
      contradiction
    | under above' _ child' =>
      have parent := Option.some.inj (child.2.2.symm.trans child'.2.2)
      have group := same_of_ptr tree (labelPath_inside above) (labelPath_inside above') parent
      subst group
      have same := child.2.1.symm.trans child'.2.1
      cases same
      rw [ih above']

theorem labelPath_mono (more : ps ⊆ qs) (path : LabelPath ps g ls p) : LabelPath qs g ls p := by
  induction path with
  | child child => exact .child ⟨more child.1, child.2⟩
  | under _ group child ih => exact .under ih group ⟨more child.1, child.2⟩

theorem labelPath_same (unique : UniqueSiblings ps) (path : LabelPath ps g ls p)
    (other : LabelPath ps g ls q) : p = q :=
  Option.some.inj ((walk_of_path unique path).symm.trans (walk_of_path unique other))

theorem labelPath_above (path : LabelPath ps g ls p) (way : ms <+: ls) (some_label : ms ≠ []) :
    ∃ q, LabelPath ps g ms q ∧ (ms = ls ∨ q.isGroup = true) := by
  induction path with
  | @child l p child =>
    have whole : ms = [l] := by
      rcases List.prefix_cons_iff.mp way with none | ⟨rest, eq, shorter⟩
      · exact absurd none some_label
      · rw [eq, List.prefix_nil.mp shorter]
    exact ⟨p, whole ▸ .child child, .inl whole⟩
  | @under ls l r p path group child ih =>
    rcases List.prefix_concat_iff.mp way with whole | part
    · exact ⟨p, whole ▸ .under path group child, .inl whole⟩
    · obtain ⟨q, above, same | inner⟩ := ih part
      · subst same
        exact ⟨r, path, .inr group⟩
      · exact ⟨q, above, .inr inner⟩

theorem on_path_of_under (tree : Tree ps) (inside : q ∈ ps) (under : Under ps q p)
    (path : LabelPath ps none ls p) : ∃ above, above <+: ls ∧ LabelPath ps none above q := by
  induction under generalizing ls with
  | child _ parent =>
    cases path with
    | child child =>
      rw [child.2.2] at parent
      contradiction
    | @under above l r _ above_path _ child =>
      have same := same_of_ptr tree (labelPath_inside above_path) inside
        (Option.some.inj (child.2.2.symm.trans parent))
      subst same
      exact ⟨above, List.prefix_append above [l], above_path⟩
  | @deeper mid p deep _ parent ih =>
    cases path with
    | child child =>
      rw [child.2.2] at parent
      contradiction
    | @under above l r _ above_path _ child =>
      have mid_inside : mid ∈ ps := by
        cases deep with
        | child inside _ => exact inside
        | deeper _ inside _ => exact inside
      have same := same_of_ptr tree (labelPath_inside above_path) mid_inside
        (Option.some.inj (child.2.2.symm.trans parent))
      subst same
      obtain ⟨higher, way, there⟩ := ih above_path
      exact ⟨higher, way.trans (List.prefix_append above [l]), there⟩

def Place (ps : List Parameter) (above : List CString) (g : Option Nat) : Prop :=
  (above = [] ∧ g = none) ∨ ∃ r, LabelPath ps none above r ∧ r.isGroup = true ∧ g = some r.ptr

theorem place_child (place : Place ps ls g) (child : IsChild ps l g p) :
    LabelPath ps none (ls ++ [l]) p := by
  rcases place with ⟨root, top⟩ | ⟨r, path, group, here⟩
  · subst root top
    exact .child child
  · subst here
    exact .under path group child

theorem place_unique (tree : Tree ps) (place : Place ps ls g) (other : Place ps ms g) :
    ls = ms := by
  rcases place with ⟨root, top⟩ | ⟨r, path, _, here⟩
  · rcases other with ⟨root', _⟩ | ⟨_, _, _, here'⟩
    · rw [root, root']
    · rw [top] at here'
      contradiction
  · rcases other with ⟨_, top'⟩ | ⟨r', path', _, here'⟩
    · rw [here] at top'
      contradiction
    · have same := same_of_ptr tree (labelPath_inside path) (labelPath_inside path')
        (Option.some.inj (here.symm.trans here'))
      subst same
      exact path_unique tree path path'

theorem child_of_place (unique : UniqueSiblings ps) (place : Place ps ms g)
    (path : LabelPath ps none (ms ++ [l]) p) : IsChild ps l g p := by
  generalize whole : ms ++ [l] = labels at path
  cases path with
  | @child k p child =>
    have whole : ms ++ [l] = [] ++ [k] := whole
    obtain ⟨root, same⟩ := List.append_inj' whole rfl
    cases same
    rcases place with ⟨_, top⟩ | ⟨r, above, _, _⟩
    · rwa [top]
    · exact absurd root (labelPath_ne_nil above)
  | @under ls k r p above group child =>
    obtain ⟨same, last⟩ := List.append_inj' whole rfl
    cases last
    subst same
    rcases place with ⟨root, _⟩ | ⟨r', above', _, here⟩
    · exact absurd root (labelPath_ne_nil above)
    · rw [here, labelPath_same unique above' above]
      exact child

theorem labelPath_grown (grown : Grown ps new qs) (label : new.label = some l) :
    LabelPath qs none ls p ↔ LabelPath ps none ls p ∨
      p = new ∧ ∃ above, ls = above ++ [l] ∧ Place ps above new.parent := by
  have more : ps ⊆ qs := (grown_sublist grown).subset
  have inside : new ∈ qs := (grown_mem grown).mpr (.inl rfl)
  constructor
  · intro path
    induction path with
    | @child m p child =>
      rcases (grown_mem grown).mp child.1 with same | old
      · subst same
        have same := child.2.1.symm.trans label
        cases same
        exact .inr ⟨rfl, [], rfl, .inl ⟨rfl, child.2.2⟩⟩
      · exact .inl (.child ⟨old, child.2⟩)
    | @under above m r p _ group child ih =>
      rcases ih with older | ⟨same, _⟩
      · rcases (grown_mem grown).mp child.1 with same | old
        · subst same
          have same := child.2.1.symm.trans label
          cases same
          exact .inr ⟨rfl, above, rfl, .inr ⟨r, older, group, child.2.2⟩⟩
        · exact .inl (.under older group ⟨old, child.2⟩)
      · -- nothing lies below what is new
        subst same
        rcases (grown_mem grown).mp child.1 with same | old
        · subst same
          exact absurd child.2.2 grown.proper
        · exact absurd child.2.2 (grown.fresh p old).2
  · rintro (path | ⟨same, above, eq, place⟩)
    · exact labelPath_mono more path
    · subst same eq
      apply place_child (g := p.parent)
      · rcases place with root | ⟨r, path, group, here⟩
        · exact .inl root
        · exact .inr ⟨r, labelPath_mono more path, group, here⟩
      · exact ⟨inside, label, rfl⟩

end

section
variable {S : Type} {rcp : Rcp S} {get : Getters S} {perform : S → Call → S} {s s' : S}
  {path above : List CString} {e : Entry} {p q new : Parameter} {l : CString}

theorem contents_iff (unique : UniqueSiblings (rcp.parameters s)) :
    contents rcp get s path = some e ↔
      ∃ p, LabelPath (rcp.parameters s) none path p ∧ entryOf get s p = e := by
  rw [contents, Option.map_eq_some_iff]
  simp only [walk_iff unique]

theorem contents_at (unique : UniqueSiblings (rcp.parameters s))
    (at_path : LabelPath (rcp.parameters s) none path p) :
    contents rcp get s path = some (entryOf get s p) :=
  (contents_iff unique).mpr ⟨p, at_path, rfl⟩

theorem contents_none (unique : UniqueSiblings (rcp.parameters s))
    (free : contents rcp get s path = none) : ¬ LabelPath (rcp.parameters s) none path p := by
  intro taken
  rw [contents_at unique taken] at free
  contradiction

theorem sound_adds (sound : Sound (rcp.parameters s)) (adds : Adds rcp get s new s')
    (label : new.label = some l) (place : Place (rcp.parameters s) above new.parent)
    (free : contents rcp get s (above ++ [l]) = none) : Sound (rcp.parameters s') where
  toTree := grown_tree adds.grown sound.toTree
  unique := by
    apply (SiblingLabels.unique_grown_iff adds.grown).mpr
    refine ⟨sound.unique, ?_⟩
    intro p inside parent same
    exact contents_none sound.unique free (place_child place ⟨inside, same.trans label, parent⟩)
  ids := by
    obtain ⟨before, after, was, now⟩ := adds.grown.inserted
    have apart : new.id ∉ (before ++ after).map (·.id) := by
      intro mem
      obtain ⟨p, inside, same⟩ := List.mem_map.mp mem
      exact adds.own_id p (was ▸ inside) same
    have distinct := sound.ids
    rw [was] at distinct
    rw [now, List.map_append, List.map_cons, List.nodup_middle, List.nodup_cons,
      ← List.map_append]
    exact ⟨apart, distinct⟩

theorem contents_adds (sound : Sound (rcp.parameters s)) (adds : Adds rcp get s new s')
    (label : new.label = some l) (place : Place (rcp.parameters s) above new.parent)
    (free : contents rcp get s (above ++ [l]) = none) :
    contents rcp get s' = put (contents rcp get s) (above ++ [l]) (entryOf get s' new) := by
  have sound' := sound_adds sound adds label place free
  funext path
  ext e
  rw [contents_iff sound'.unique]
  simp only [labelPath_grown adds.grown label]
  by_cases here : path = above ++ [l]
  · subst here
    rw [put_here, Option.some.injEq]
    constructor
    · rintro ⟨p, old | ⟨same, _⟩, eq⟩
      · exact absurd old (contents_none sound.unique free)
      · subst same
        exact eq
    · intro eq
      exact ⟨new, .inr ⟨rfl, above, rfl, place⟩, eq⟩
  · rw [put_elsewhere here, contents_iff sound.unique]
    have kept {p} (old : LabelPath (rcp.parameters s) none path p) :
        entryOf get s' p = entryOf get s p := by
      rw [entryOf, entryOf, adds.kept p (labelPath_inside old)]
    constructor
    · rintro ⟨p, old | ⟨_, other, eq, place'⟩, fields⟩
      · exact ⟨p, old, (kept old).symm.trans fields⟩
      · rw [place_unique sound.toTree place' place] at eq
        exact absurd eq here
    · rintro ⟨p, old, fields⟩
      exact ⟨p, .inl old, (kept old).trans fields⟩

theorem changed_other {ptr k : Nat} (other : k ≠ ptr) (f : Fields) {c : Call}
    (concerns : Concerns ptr c) : changed k f c = f := by
  cases c with
  | setValue j | setMin j | setMax j | setOrder j | setReadonly j =>
    have same : j = ptr := concerns
    subst same
    exact if_neg (Ne.symm other)
  | setValueUpdatedCb | setBangCb | setDirty | managerUpdate | serverUpdate | post | error => rfl

theorem changed_all_other {ptr k : Nat} (other : k ≠ ptr) (f : Fields) {calls : List Call}
    (concern : ∀ c ∈ calls, Concerns ptr c) : calls.foldl (changed k) f = f := by
  induction calls with
  | nil => rfl
  | cons c calls ih =>
    rw [List.foldl_cons, changed_other other f (concern c (.head _))]
    exact ih fun c later => concern c (.tail _ later)

theorem suits_all {ps : List Parameter} (tree : Tree ps) (here : p ∈ ps) (there : q ∈ ps) {c : Call}
    (concerns : Concerns p.ptr c) (suits : Suits p c) : Suits q c := by
  cases c with
  | setValue k v | setMin k v | setMax k v =>
    intro same
    have eq : k = p.ptr := concerns
    have one := same_of_ptr tree there here (same.symm.trans eq)
    subst one
    exact suits eq
  | setOrder | setReadonly | setValueUpdatedCb | setBangCb | setDirty | managerUpdate
  | serverUpdate | post | error => trivial

theorem parameters_foldl (performs : Performs rcp get perform) (calls : List Call) :
    rcp.parameters (calls.foldl perform s) = rcp.parameters s := by
  induction calls generalizing s with
  | nil => rfl
  | cons c calls ih => rw [List.foldl_cons, ih, performs.parameters]

theorem fields_foldl (performs : Performs rcp get perform) {calls : List Call}
    (inside : p ∈ rcp.parameters s) (suit : ∀ c ∈ calls, Suits p c) :
    fieldsOf get (calls.foldl perform s) p = calls.foldl (changed p.ptr) (fieldsOf get s p) := by
  induction calls generalizing s with
  | nil => rfl
  | cons c calls ih =>
    have still : p ∈ rcp.parameters (perform s c) := by rwa [performs.parameters]
    rw [List.foldl_cons, List.foldl_cons, ih still fun c later => suit c (.tail _ later),
      performs.fields s c p inside (suit c (.head _))]

theorem quiet_concerns {c : Call} (quiet : Quiet c) (p : Parameter) :
    Concerns p.ptr c ∧ Suits p c := by
  cases c with
  | setValue | setMin | setMax | setOrder | setReadonly => exact absurd quiet id
  | setValueUpdatedCb | setBangCb | setDirty | managerUpdate | serverUpdate | post
  | error => exact ⟨trivial, trivial⟩

theorem changed_quiet {calls : List Call} (quiet : ∀ c ∈ calls, Quiet c) (k : Nat) (f : Fields) :
    calls.foldl (changed k) f = f := by
  induction calls with
  | nil => rfl
  | cons c calls ih =>
    have none_set : changed k f c = f := by
      have here := quiet c (.head _)
      cases c with
      | setValue | setMin | setMax | setOrder | setReadonly => exact absurd here id
      | setValueUpdatedCb | setBangCb | setDirty | managerUpdate | serverUpdate | post
      | error => rfl
    rw [List.foldl_cons, none_set]
    exact ih fun c later => quiet c (.tail _ later)

theorem contents_quiet (performs : Performs rcp get perform) {calls : List Call}
    (quiet : ∀ c ∈ calls, Quiet c) :
    contents rcp get (calls.foldl perform s) = contents rcp get s := by
  funext path
  rw [contents, parameters_foldl performs, contents]
  cases walked : walk (rcp.parameters s) none path with
  | none => rfl
  | some p =>
    rw [Option.map_some, Option.map_some, entryOf, fields_foldl performs (walk_inside walked)
      fun c among => (quiet_concerns (quiet c among) p).2, changed_quiet quiet]
    rfl

/-- What the description of a command's target hits is the parameter the server finds. -/
def Named (rcp : Rcp S) (get : Getters S) (s : S) (hit : List CString → Entry → Prop)
    (found : Option Parameter) : Prop :=
  (∀ p ∈ found, p ∈ rcp.parameters s) ∧ ∀ path p, LabelPath (rcp.parameters s) none path p →
    (hit path (entryOf get s p) ↔ found = some p)

theorem contents_amend (performs : Performs rcp get perform) (sound : Sound (rcp.parameters s))
    {hit : List CString → Entry → Prop} [∀ q e, Decidable (hit q e)] {found : Option Parameter}
    (named : Named rcp get s hit found) {calls : Parameter → List Call} {f : Entry → Entry}
    (concern : ∀ p ∈ found, ∀ c ∈ calls p, Concerns p.ptr c ∧ Suits p c)
    (effect : ∀ p ∈ found, f (entryOf get s p) =
      { entryOf get s p with fields := (calls p).foldl (changed p.ptr) (fieldsOf get s p) }) :
    contents rcp get ((found.elim [] calls).foldl perform s) = amend hit f (contents rcp get s) := by
  funext path
  rw [contents, parameters_foldl performs, amend, contents, Option.map_map]
  cases walked : walk (rcp.parameters s) none path with
  | none => rfl
  | some q =>
    have at_path := path_of_walk sound.unique walked
    have there := labelPath_inside at_path
    rw [Option.map_some, Option.map_some, Function.comp_apply, Option.some.injEq, entryOf]
    cases hit_by : found with
    | none =>
      have miss : ¬ hit path (entryOf get s q) := by
        rw [named.2 path q at_path, hit_by]
        simp
      rw [if_neg miss]
      rfl
    | some p =>
      have here := named.1 p hit_by
      have suit (c) (among : c ∈ calls p) : Suits q c :=
        suits_all sound.toTree here there (concern p hit_by c among).1 (concern p hit_by c among).2
      rw [Option.elim_some, fields_foldl performs there suit]
      by_cases same : p = q
      · subst same
        rw [if_pos ((named.2 path p at_path).mpr hit_by), effect p hit_by]
        rfl
      · have miss : ¬ hit path (entryOf get s q) := by
          rw [named.2 path q at_path, hit_by]
          exact fun eq => same (Option.some.inj eq)
        have apart : q.ptr ≠ p.ptr := fun eq => same (same_of_ptr sound.toTree here there eq.symm)
        rw [if_neg miss, changed_all_other apart _ fun c among => (concern p hit_by c among).1]
        rfl

theorem sound_takes (takes : Takes rcp get) (sound : Sound (rcp.parameters s)) (id : BitVec 16) :
    Sound (rcp.parameters (rcp.serverRemoveParameterId s id).1) where
  toTree := sublist_tree (takes.fewer s id) sound.toTree
  unique := sound.unique.sublist (takes.fewer s id)
  ids := sound.ids.sublist ((takes.fewer s id).map _)

theorem hitOn_named (unique : UniqueSiblings (rcp.parameters s)) {hit : List CString → Entry → Prop}
    {found : Option Parameter} (named : Named rcp get s hit found) (path : List CString) :
    HitOn hit (contents rcp get s) path ↔
      ∃ above p, above <+: path ∧ LabelPath (rcp.parameters s) none above p ∧ found = some p := by
  rw [hitOn_iff]
  constructor
  · rintro ⟨above, e, way, here, hits⟩
    obtain ⟨p, at_path, eq⟩ := (contents_iff unique).mp here
    subst eq
    exact ⟨above, p, way, at_path, (named.2 above p at_path).mp hits⟩
  · rintro ⟨above, p, way, at_path, hits⟩
    exact ⟨above, _, way, contents_at unique at_path, (named.2 above p at_path).mpr hits⟩

section
variable (takes : Takes rcp get) (sound : Sound (rcp.parameters s)) {id : BitVec 16}
  {found : Option Parameter} (by_id : ∀ p ∈ rcp.parameters s, p.id = id ↔ found = some p)
include takes sound by_id

theorem takes_below {above path : List CString} {p : Parameter} (way : above <+: path)
    (at_path : LabelPath (rcp.parameters s) none above p) (hits : found = some p) :
    contents rcp get (rcp.serverRemoveParameterId s id).1 path = none := by
  cases left : contents rcp get (rcp.serverRemoveParameterId s id).1 path with
  | none => rfl
  | some e =>
    obtain ⟨q, still, _⟩ := (contents_iff (sound_takes takes sound id).unique).mp left
    obtain ⟨r, higher, _⟩ := labelPath_above still way (labelPath_ne_nil at_path)
    have same := labelPath_same sound.unique
      (labelPath_mono (takes.fewer s id).subset higher) at_path
    subst same
    have there := labelPath_inside at_path
    exact absurd (labelPath_inside higher) (takes.gone s id r there ((by_id r there).mpr hits))

theorem takes_beside {path : List CString}
    (off : ∀ above p, above <+: path → LabelPath (rcp.parameters s) none above p → found ≠ some p)
    {ls : List CString} {p : Parameter} (at_path : LabelPath (rcp.parameters s) none ls p)
    (way : ls <+: path) :
    LabelPath (rcp.parameters (rcp.serverRemoveParameterId s id).1) none ls p := by
  have stays (ls) (p) (at_path : LabelPath (rcp.parameters s) none ls p) (way : ls <+: path) :
      p ∈ rcp.parameters (rcp.serverRemoveParameterId s id).1 := by
    apply takes.kept s id p (labelPath_inside at_path)
    intro r there named_id
    have hits := (by_id r there).mp named_id
    constructor
    · intro same
      subst same
      exact off ls p way at_path hits
    · intro under
      obtain ⟨above, higher, at_above⟩ := on_path_of_under sound.toTree there under at_path
      exact off above r (higher.trans way) at_above hits
  induction at_path with
  | child child => exact .child ⟨stays _ _ (.child child) way, child.2⟩
  | @under above l r q above_path group child ih =>
    have shorter : above <+: path := (List.prefix_append above [l]).trans way
    exact .under (ih shorter) group ⟨stays _ _ (.under above_path group child) way, child.2⟩

end

/-- Removing the one parameter of an id prunes its entry with all below. -/
theorem contents_takes (takes : Takes rcp get) (sound : Sound (rcp.parameters s)) {id : BitVec 16}
    {hit : List CString → Entry → Prop} [∀ q e, Decidable (hit q e)] {found : Option Parameter}
    (named : Named rcp get s hit found)
    (by_id : ∀ p ∈ rcp.parameters s, p.id = id ↔ found = some p) :
    contents rcp get (rcp.serverRemoveParameterId s id).1 = prune hit (contents rcp get s) := by
  have sound' := sound_takes takes sound id
  funext path
  by_cases on : HitOn hit (contents rcp get s) path
  · rw [prune_of_hit on]
    obtain ⟨above, p, way, at_path, hits⟩ := (hitOn_named sound.unique named path).mp on
    exact takes_below takes sound by_id way at_path hits
  · rw [prune_of_miss on]
    have off (above p) (way : above <+: path) (at_above : LabelPath (rcp.parameters s) none above p) :
        found ≠ some p :=
      fun hits => on ((hitOn_named sound.unique named path).mpr ⟨above, p, way, at_above, hits⟩)
    have same (p) (inside : p ∈ rcp.parameters (rcp.serverRemoveParameterId s id).1) :
        entryOf get (rcp.serverRemoveParameterId s id).1 p = entryOf get s p := by
      rw [entryOf, entryOf, takes.fields s id p inside]
    ext e
    rw [contents_iff sound'.unique, contents_iff sound.unique]
    constructor
    · rintro ⟨p, at_path, eq⟩
      exact ⟨p, labelPath_mono (takes.fewer s id).subset at_path,
        (same p (labelPath_inside at_path)).symm.trans eq⟩
    · rintro ⟨p, at_path, eq⟩
      have still := takes_beside takes sound by_id off at_path (List.prefix_refl path)
      exact ⟨p, still, (same p (labelPath_inside still)).trans eq⟩

end

end Contents
