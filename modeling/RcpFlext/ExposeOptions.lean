import RcpFlext.Expose

/- The options of `expose` as groups behind the path. The scan takes what follows an option
   for its value before it looks at it, also the name of the next option. -/
namespace ExposeOptions
open Atoms Datatypes Expose

inductive Valued where
  | min
  | max
  | order
  deriving DecidableEq, Repr

inductive Name where
  | valued (name : Valued)
  | readonly
  deriving DecidableEq, Repr

def Name.atom : Name → Atom
  | .valued .min => .symbol (.ofBytes (text ['@', 'm', 'i', 'n']))
  | .valued .max => .symbol (.ofBytes (text ['@', 'm', 'a', 'x']))
  | .valued .order => .symbol (.ofBytes (text ['@', 'o', 'r', 'd', 'e', 'r']))
  | .readonly => .symbol (.ofBytes (text ['@', 'r', 'e', 'a', 'd', 'o', 'n', 'l', 'y']))

/-- An option with an atom that names no option, or with nothing before the next one. -/
inductive Group where
  | given (name : Valued) (v : Atom) (value : ∀ n : Name, v ≠ n.atom)
  | missing (name : Valued)
  | readonly
  deriving DecidableEq

def Group.name : Group → Name
  | .given name _ _ => .valued name
  | .missing name => .valued name
  | .readonly => .readonly

def Group.atoms : Group → List Atom
  | .given name v _ => [(Name.valued name).atom, v]
  | .missing name => [(Name.valued name).atom]
  | .readonly => [Name.readonly.atom]

inductive Setting where
  | float (w : Binary32.Word)
  | int (v : CInt)
  | flag (b : Bool)
  deriving DecidableEq

def Group.value : Group → Option Setting
  | .given .order v _ => if canbeInt v then some (.int (getAInt v 0)) else none
  | .given _ v _ => if canbeFloat v then some (.float (getAFloat v)) else none
  | .missing _ => none
  | .readonly => some (.flag true)

def setting (o : Options) : Name → Option Setting
  | .valued .min => o.min.map .float
  | .valued .max => o.max.map .float
  | .valued .order => o.order.map .int
  | .readonly => o.readonly.map .flag

/-- Set are exactly the options of well-formed groups, each to its group's value. -/
def AsGiven (groups : List Group) (o : Options) : Prop :=
  ∀ name x, setting o name = some x ↔ ∃ g ∈ groups, g.name = name ∧ g.value = some x

def IsOption (a : Atom) : Prop := isString a = true ∧ (getString a).first = 64

instance (a : Atom) : Decidable (IsOption a) :=
  inferInstanceAs (Decidable (isString a = true ∧ (getString a).first = 64))

/-- What the command reads is the path and the options as given; and it reads some path. -/
structure Independent (type : CString) (path : List Atom) (groups : List Group) : Prop where
  accepted : path ≠ [] → ∃ request,
    readRequest (.symbol type :: (path ++ groups.flatMap Group.atoms)) = .ok request
  asGiven : ∀ request,
    readRequest (.symbol type :: (path ++ groups.flatMap Group.atoms)) = .ok request →
      AsGiven groups request.options ∧ request.first :: request.rest = path

/-- No well-formed group stands where a missing value is looked for. What is taken for a
    value there takes nothing itself. -/
def Spared : List Group → Prop
  | .missing _ :: g :: groups => g.value = none ∧ Spared groups
  | _ :: groups => Spared groups
  | [] => True

def kept : List Group → List Group
  | .missing _ :: _ :: groups => kept groups
  | g :: groups => g :: kept groups
  | [] => []

def apply (o : Options) (g : Group) : Options :=
  match g with
  | .given .min v _ => if canbeFloat v then { o with min := some (getAFloat v) } else o
  | .given .max v _ => if canbeFloat v then { o with max := some (getAFloat v) } else o
  | .given .order v _ => if canbeInt v then { o with order := some (getAInt v 0) } else o
  | .missing _ => o
  | .readonly => { o with readonly := some true }

theorem setting_apply (o : Options) (g : Group) (name : Name) :
    setting (apply o g) name = if g.name = name then g.value.or (setting o name)
      else setting o name := by
  cases g with
  | missing n => simp [apply, Group.value]
  | readonly =>
    cases name with
    | readonly => rfl
    | valued n => cases n <;> rfl
  | given n v value =>
    cases name with
    | readonly => cases n <;> simp only [apply] <;> split <;> rfl
    | valued m =>
      cases n <;> cases m <;> simp only [apply, Group.name, Group.value] <;> split <;> simp [setting]

theorem setting_foldl (groups : List Group) (distinct : (groups.map Group.name).Nodup)
    (o : Options) (name : Name) (x : Setting) :
    setting (groups.foldl apply o) name = some x ↔
      (∃ g ∈ groups, g.name = name ∧ g.value = some x) ∨
        (∀ g ∈ groups, g.name = name → g.value = none) ∧ setting o name = some x := by
  induction groups generalizing o with
  | nil => simp
  | cons g groups ih =>
    rw [List.map_cons, List.nodup_cons] at distinct
    rw [List.foldl_cons, ih distinct.2, setting_apply]
    by_cases same : g.name = name
    · have alone : ∀ h ∈ groups, h.name ≠ name := by
        intro h inside again
        exact distinct.1 (List.mem_map.mpr ⟨h, inside, again.trans same.symm⟩)
      have nowhere : ¬ ∃ h ∈ groups, h.name = name ∧ h.value = some x := by
        rintro ⟨h, inside, again, _⟩
        exact alone h inside again
      have quiet : ∀ h ∈ groups, h.name = name → h.value = none :=
        fun h inside again => absurd again (alone h inside)
      have others : (∃ h ∈ g :: groups, h.name = name ∧ h.value = some x) ↔ g.value = some x := by
        simp [same, nowhere]
      have all : (∀ h ∈ g :: groups, h.name = name → h.value = none) ↔ g.value = none := by
        rw [List.forall_mem_cons]
        exact ⟨fun both => both.1 same, fun none => ⟨fun _ => none, quiet⟩⟩
      rw [others, all, if_pos same, or_iff_right nowhere, and_iff_right quiet]
      cases g.value <;> simp
    · simp [same]

theorem kept_subset (groups : List Group) : (kept groups).Sublist groups := by
  fun_induction kept groups with
  | case1 n g groups ih => exact (ih.cons g).cons (.missing n)
  | case2 g groups _ ih => exact ih.cons_cons g
  | case3 => exact .slnil

theorem spared_iff (groups : List Group) (distinct : (groups.map Group.name).Nodup) :
    Spared groups ↔ ∀ g ∈ groups, g.value ≠ none → g ∈ kept groups := by
  fun_induction kept groups with
  | case1 n g groups ih =>
    simp only [List.map_cons, List.nodup_cons] at distinct
    rw [Spared, ih distinct.2.2]
    have gone : g ∉ kept groups := by
      intro again
      exact distinct.2.1 (List.mem_map.mpr ⟨g, (kept_subset groups).subset again, rfl⟩)
    simp only [List.forall_mem_cons]
    constructor
    · rintro ⟨none, rest⟩
      exact ⟨fun value => absurd rfl value, fun value => absurd none value, rest⟩
    · rintro ⟨_, here, rest⟩
      refine ⟨?_, rest⟩
      by_contra value
      exact gone (here value)
  | case2 g groups plain ih =>
    rw [List.map_cons, List.nodup_cons] at distinct
    have rest := ih distinct.2
    have first : Spared (g :: groups) ↔ Spared groups := by
      cases g with
      | given | readonly => rfl
      | missing n =>
        cases groups with
        | nil => rfl
        | cons h groups => exact absurd rfl (plain n h groups rfl)
    rw [first, rest, List.forall_mem_cons]
    simp only [List.mem_cons, true_or, implies_true, true_and]
    constructor
    · intro all h inside value
      exact .inr (all h inside value)
    · intro all h inside value
      rcases all h inside value with same | later
      · exact absurd (List.mem_map.mpr ⟨h, inside, by rw [same]⟩) distinct.1
      · exact later
  | case3 => simp [Spared]

theorem asGiven_kept_iff (groups : List Group) (distinct : (groups.map Group.name).Nodup) :
    AsGiven groups ((kept groups).foldl apply ⟨none, none, none, none⟩) ↔ Spared groups := by
  have fewer := kept_subset groups
  have apart : ((kept groups).map Group.name).Nodup := distinct.sublist (fewer.map _)
  have empty (name : Name) (x : Setting) : setting ⟨none, none, none, none⟩ name ≠ some x := by
    cases name with
    | readonly => simp [setting]
    | valued n => cases n <;> simp [setting]
  rw [spared_iff groups distinct]
  constructor
  · intro given g inside value
    obtain ⟨x, eq⟩ := Option.ne_none_iff_exists'.mp value
    have set := (given g.name x).mpr ⟨g, inside, rfl, eq⟩
    rw [setting_foldl _ apart, or_iff_left (fun both => empty _ _ both.2)] at set
    obtain ⟨h, there, same, _⟩ := set
    exact List.inj_on_of_nodup_map distinct (fewer.subset there) inside same ▸ there
  · intro spared name x
    rw [setting_foldl _ apart, or_iff_left (fun both => empty _ _ both.2)]
    constructor
    · rintro ⟨g, there, same, eq⟩
      exact ⟨g, fewer.subset there, same, eq⟩
    · rintro ⟨g, inside, same, eq⟩
      exact ⟨g, spared g inside (by simp [eq]), same, eq⟩

def put (found : Scan) (name : Valued) (v : Atom) : Scan :=
  match name with
  | .min => found.setMin v
  | .max => found.setMax v
  | .order => found.setOrder v

section
variable {found : Scan} {i k : Nat} {a v : Atom} {rest : List Atom}

theorem put_index (name : Valued) : (put found name v).args_index = found.args_index := by
  cases name <;> simp only [put, Scan.setMin, Scan.setMax, Scan.setOrder] <;> split <;> rfl

theorem put_options (name : Valued) (value : ∀ n : Name, v ≠ n.atom) :
    (put found name v).options = apply found.options (.given name v value) := by
  cases name <;> simp only [put, Scan.setMin, Scan.setMax, Scan.setOrder, apply] <;> split <;> rfl

theorem put_name (name : Valued) (n : Name) :
    (put found name n.atom).options = found.options := by
  cases n with
  | readonly => cases name <;> rfl
  | valued m => cases name <;> cases m <;> rfl

theorem scan_plain (plain : ¬ IsOption a) :
    scanOptions found i (a :: rest) = scanOptions found (i + 1) rest := by
  rw [scanOptions]
  exact if_neg plain

theorem scan_path {path : List Atom} (plain : ∀ a ∈ path, ¬ IsOption a) :
    scanOptions found i (path ++ rest) = scanOptions found (i + path.length) rest := by
  induction path generalizing i with
  | nil => rfl
  | cons a path ih =>
    rw [List.cons_append, scan_plain (plain a (.head _)), ih fun b inside => plain b (.tail _ inside),
      List.length_cons]
    congr 1
    omega

theorem scan_valued (name : Valued) : scanOptions found i ((Name.valued name).atom :: v :: rest) =
    scanOptions (put (found.see i) name v) (i + 2) rest := by
  cases name <;> rfl

theorem scan_last (name : Valued) :
    scanOptions found i [(Name.valued name).atom] = found.see i := by
  cases name <;> rfl

theorem scan_readonly : scanOptions found i (Name.readonly.atom :: rest) =
    scanOptions { found.see i with options := apply found.options .readonly } (i + 1) rest := by
  rw [scanOptions]
  rfl

theorem no_name {n : Name} (value : ∀ n : Name, v ≠ n.atom) (string : isString v = true)
    (same : (getString v).bytes = (getString n.atom).bytes) : False := by
  have symbol := isString_getString string
  have named : isString n.atom = true := by
    cases n with
    | readonly => rfl
    | valued m => cases m <;> rfl
  have name := isString_getString named
  exact value n (symbol.trans ((congrArg Atom.symbol (CString.ext same)).trans name.symm))

theorem scan_other (value : ∀ n : Name, v ≠ n.atom) : scanOptions found i (v :: rest) =
    scanOptions (if IsOption v then found.see i else found) (i + 1) rest := by
  by_cases option : IsOption v
  · rw [if_pos option]
    have unnamed (n : Name) : (getString v).bytes ≠ (getString n.atom).bytes :=
      fun same => no_name value option.1 same
    rw [scanOptions]
    refine (if_pos option).trans ?_
    refine (if_neg (unnamed (.valued .min))).trans ?_
    refine (if_neg (unnamed (.valued .max))).trans ?_
    refine (if_neg (unnamed (.valued .order))).trans ?_
    exact if_neg (unnamed .readonly)
  · rw [scan_plain option, if_neg option]

theorem see_seen (seen : found.args_index = some k) : (found.see i).args_index = some k := by
  simp [Scan.see, seen]

theorem scan_seen (seen : found.args_index = some k) :
    (scanOptions found i rest).args_index = some k := by
  fun_induction scanOptions found i rest with
  | case1 => exact seen
  | case2 | case4 | case6 => exact see_seen seen
  | case3 found i a option t found' name v rest ih =>
    exact ih ((put_index .min).trans (see_seen seen))
  | case5 found i a option t found' _ name v rest ih =>
    exact ih ((put_index .max).trans (see_seen seen))
  | case7 found i a option t found' _ _ name v rest ih =>
    exact ih ((put_index .order).trans (see_seen seen))
  | case8 | case9 =>
    rename_i ih
    exact ih (see_seen seen)
  | case10 =>
    rename_i ih
    exact ih seen

theorem scan_first {name : Name} :
    (scanOptions found i (name.atom :: rest)).args_index = some (found.args_index.getD i) := by
  have seen : (found.see i).args_index = some (found.args_index.getD i) := rfl
  cases name with
  | readonly =>
    rw [scan_readonly]
    exact scan_seen seen
  | valued name =>
    cases rest with
    | nil => rw [scan_last, seen]
    | cons v rest =>
      rw [scan_valued]
      exact scan_seen ((put_index name).trans seen)

end

def Group.tail : Group → List Atom
  | .given _ v _ => [v]
  | _ => []

theorem atoms_eq (g : Group) : g.atoms = g.name.atom :: g.tail := by
  cases g <;> rfl

theorem scan_tail (g : Group) (found : Scan) (i : Nat) (rest : List Atom) :
    ∃ passed j, scanOptions found i (g.tail ++ rest) = scanOptions passed j rest ∧
      passed.options = found.options := by
  cases g with
  | missing | readonly => exact ⟨found, i, rfl, rfl⟩
  | given n v value =>
    refine ⟨_, i + 1, scan_other value, ?_⟩
    split <;> rfl

theorem scan_groups (groups : List Group) (found : Scan) (i : Nat) :
    (scanOptions found i (groups.flatMap Group.atoms)).options =
      (kept groups).foldl apply found.options := by
  fun_induction kept groups generalizing found i with
  | case1 n g groups ih =>
    obtain ⟨passed, j, same, kept⟩ :=
      scan_tail g (put (found.see i) n g.name.atom) (i + 2) (groups.flatMap Group.atoms)
    rw [List.flatMap_cons, List.flatMap_cons, atoms_eq g]
    simp only [Group.atoms, List.cons_append, List.nil_append]
    rw [scan_valued, same, ih, kept, put_name]
    rfl
  | case2 g groups plain ih =>
    rw [List.flatMap_cons, List.foldl_cons]
    cases g with
    | given n v value =>
      simp only [Group.atoms, List.cons_append, List.nil_append]
      rw [scan_valued, ih, put_options n value]
      rfl
    | readonly =>
      simp only [Group.atoms, List.cons_append, List.nil_append]
      rw [scan_readonly, ih]
    | missing n =>
      cases groups with
      | nil =>
        simp only [Group.atoms, List.flatMap_nil, List.append_nil]
        rw [scan_last]
        rfl
      | cons h groups => exact absurd rfl (plain n h groups rfl)
  | case3 => rfl

theorem read_accepted {type : CString} (valid : typeOfName type ≠ .invalid) (first : Atom)
    (rest : List Atom) :
    readRequest (.symbol type :: first :: rest) =
      let found := scanOptions ⟨⟨none, none, none, none⟩, none, []⟩ 2 rest
      .ok ⟨typeOfName type, first,
        rest.take (found.args_index.getD (rest.length + 2) - 2), found.options, found.calls⟩ := by
  simp [readRequest, isString, getString, valid]

theorem read_groups {type : CString} (valid : typeOfName type ≠ .invalid) (first : Atom)
    {rest : List Atom} (plain : ∀ a ∈ rest, ¬ IsOption a) (groups : List Group) :
    ∃ calls, readRequest (.symbol type :: (first :: rest ++ groups.flatMap Group.atoms)) =
      .ok ⟨typeOfName type, first, rest, (kept groups).foldl apply ⟨none, none, none, none⟩,
        calls⟩ := by
  refine ⟨(scanOptions ⟨⟨none, none, none, none⟩, none, []⟩ (2 + rest.length)
    (groups.flatMap Group.atoms)).calls, ?_⟩
  rw [List.cons_append, read_accepted valid, scan_path plain]
  simp only [scan_groups]
  congr 2
  cases groups with
  | nil => simp [scanOptions]
  | cons g groups =>
    rw [List.flatMap_cons, atoms_eq, List.cons_append, scan_first]
    simp

/-- The options are read independently of each other exactly when there is a path in front of
    them and none of the well-formed ones is taken for a missing value. -/
theorem independent_iff (type : CString) (valid : typeOfName type ≠ .invalid) (path : List Atom)
    (plain : ∀ a ∈ path, ¬ IsOption a) (groups : List Group)
    (distinct : (groups.map Group.name).Nodup) :
    Independent type path groups ↔ (path ≠ [] ∨ groups = []) ∧ Spared groups := by
  cases path with
  | nil =>
    cases groups with
    | nil =>
      refine iff_of_true ⟨fun none => absurd rfl none, ?_⟩ ⟨.inr rfl, trivial⟩
      intro request accepted
      cases accepted
    | cons g groups =>
      refine iff_of_false ?_ (fun both => both.1.elim (absurd rfl) (List.cons_ne_nil g groups))
      intro independent
      have read := read_accepted valid g.name.atom (g.tail ++ groups.flatMap Group.atoms)
      have whole : [] ++ (g :: groups).flatMap Group.atoms =
          g.name.atom :: (g.tail ++ groups.flatMap Group.atoms) := by
        rw [List.nil_append, List.flatMap_cons, atoms_eq, List.cons_append]
      rw [← whole] at read
      exact List.cons_ne_nil _ _ (independent.asGiven _ read).2
  | cons first rest =>
    obtain ⟨calls, read⟩ :=
      read_groups valid first (fun a inside => plain a (.tail _ inside)) groups
    rw [← asGiven_kept_iff groups distinct]
    constructor
    · intro independent
      exact ⟨.inl (List.cons_ne_nil _ _), (independent.asGiven _ read).1⟩
    · rintro ⟨_, given⟩
      refine ⟨fun _ => ⟨_, read⟩, ?_⟩
      intro request accepted
      rw [read] at accepted
      cases accepted
      exact ⟨given, rfl⟩

theorem int_is_value (v : CInt) (n : Name) : .int v ≠ n.atom := by
  cases n with
  | readonly => simp [Name.atom]
  | valued n => cases n <;> simp [Name.atom]

def nameX : Atom := .symbol (.ofBytes (text ['x']))

def typeI : CString := .ofBytes (text ['i'])

theorem min_max_independent :
    Independent typeI [nameX] [.given .min (.int 1) (int_is_value 1), .readonly, .missing .order] ↔
      ([nameX] ≠ [] ∨ [Group.given .min (.int 1) (int_is_value 1), .readonly, .missing .order] = []) ∧
        Spared [.given .min (.int 1) (int_is_value 1), .readonly, .missing .order] :=
  independent_iff typeI (by decide) [nameX] (by decide)
    [.given .min (.int 1) (int_is_value 1), .readonly, .missing .order] (by decide)

/-- `expose i x @min @max 5`: the name of the second option is taken for the value of the
    first, and the maximum is lost. -/
theorem max_taken_for_value :
    (∃ request, readRequest
        (.symbol typeI :: ([nameX] ++ [(Name.valued .min).atom, (Name.valued .max).atom, .int 5])) =
          .ok request ∧ request.options.max = none) ∧
    ¬ Independent typeI [nameX] [.missing .min, .given .max (.int 5) (int_is_value 5)] := by
  have read : readRequest
      (.symbol typeI :: ([nameX] ++ [(Name.valued .min).atom, (Name.valued .max).atom, .int 5])) =
      .ok ⟨.int32, nameX, [], ⟨none, none, none, none⟩, [.error "can not set argument min!" []]⟩ :=
    rfl
  refine ⟨⟨_, read, rfl⟩, ?_⟩
  intro independent
  have set := ((independent.asGiven _ read).1 (.valued .max) (.float (Binary32.ofInt 5))).mpr
    ⟨_, .tail _ (.head _), rfl, rfl⟩
  cases set

end ExposeOptions
