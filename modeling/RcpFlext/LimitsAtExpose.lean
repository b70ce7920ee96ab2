import RcpFlext.ExposeOptions
import RcpFlext.ExposeAddress
import RcpFlext.Limits
import RcpFlext.Library.Significand

/- A limit given when an int parameter is exposed against the same limit set later. The
   option keeps a float, the message keeps the int. -/
namespace LimitsAtExpose
open Atoms Datatypes ParameterTree PathLookup Expose ExposeOptions Limits

inductive Side where
  | minimum
  | maximum
  deriving DecidableEq, Repr

namespace Side

def option : Side → Atom
  | .minimum => (Name.valued .min).atom
  | .maximum => (Name.valued .max).atom

def set : Side → Nat → Value → Call
  | .minimum => .setMin
  | .maximum => .setMax

def of (side : Side) (bounds : Bounds) : Option Value :=
  match side with
  | .minimum => bounds.minimum
  | .maximum => bounds.maximum

def message {S : Type} (side : Side) (rcp : Rcp S) (s : S) : Int → Indexing.Argv →
    Except Int (List Call) :=
  match side with
  | .minimum => Indexing.parameterSetMin rcp s
  | .maximum => Indexing.parameterSetMax rcp s

end Side

def limit (side : Side) (calls : List Call) (ptr : Nat) : Option Value :=
  side.of (calls.foldl put unlimited ptr)

section
variable {S : Type} (rcp : Rcp S) (s : S) (type : CString) (first : Atom) (rest : List Atom)

def exposed : Exposed S := exposeParameter rcp s (.symbol type :: first :: rest)

def exposedWith (side : Side) (n : CInt) : Exposed S :=
  exposeParameter rcp s (.symbol type :: (first :: rest ++ [side.option, .int n]))

/-- Both ways give the new parameter the limit. -/
structure SameLimit (side : Side) (n : CInt) (ptr : Nat) : Prop where
  made : (exposedWith rcp s type first rest side n).created = some ptr
  atExpose : limit side (exposedWith rcp s type first rest side n).calls ptr = some (.int32 n)
  later : ∃ calls, side.message rcp (exposed rcp s type first rest).server (rest.length + 2)
      ⟨first :: rest ++ [.int n], 0⟩ = .ok calls ∧
    limit side ((exposed rcp s type first rest).calls ++ calls) ptr = some (.int32 n)

end

section
variable {S : Type} {rcp : Rcp S} {s : S} {ptr : Nat}

theorem createGroups_quiet {g : Option Nat} {a : Atom} {rest : List Atom}
    (label : (createGroups rcp s g a rest).label.isEmpty = false) :
    (createGroups rcp s g a rest).calls = [] := by
  induction rest generalizing s g a with
  | nil => rfl
  | cons b rest ih =>
    cases string : isString a with
    | false =>
      rw [createGroups_other string] at label
      cases label
    | true =>
      cases found : rcp.serverFindGroup s (getAsString a) g with
      | some group =>
        rw [createGroups_found string found] at label ⊢
        exact ih label
      | none =>
        cases made : rcp.serverCreateGroup s (getAsString a) g with
        | mk next group =>
          rw [createGroups_made string found made] at label ⊢
          exact ih label

theorem exposeRequest_created {type : Datatype} {first : Atom} {rest : List Atom} {o : Options}
    {c : List Call} (created : (exposeRequest rcp s ⟨type, first, rest, o, c⟩).created = some ptr) :
    ∃ next, ∀ options calls, exposeRequest rcp s ⟨type, first, rest, options, calls⟩ =
      ⟨next, some ptr, calls ++ setupParameter type ptr options ++ [.serverUpdate]⟩ := by
  simp only [exposeRequest] at created ⊢
  unfold exposeIn at created ⊢
  simp only at created ⊢
  split at created
  · cases created
  rename_i label
  have quiet := createGroups_quiet (by simpa using label)
  split at created
  · cases created
  rename_i free
  split at created
  · rename_i next ptr' made
    cases created
    refine ⟨next, ?_⟩
    intro options calls
    simp [label, quiet]
  · cases created

theorem created_listed (creates : rcp.Creates) {request : Request}
    (created : (exposeRequest rcp s request).created = some ptr) :
    ∃ new ∈ rcp.parameters (exposeRequest rcp s request).server,
      new.ptr = ptr ∧ new.type = request.type := by
  simp only [exposeRequest] at created ⊢
  have ends := exposeIn_ends rcp request (createGroups rcp s none request.first request.rest)
  generalize exposeIn rcp request (createGroups rcp s none request.first request.rest) = exposed
    at ends created ⊢
  cases ends with
  | unlabelled _ | taken _ _ | refused _ _ _ => cases created
  | created _ _ made =>
    cases created
    obtain ⟨id, grown⟩ := creates.expose _ _ _ _ _ _ made
    exact ⟨_, (grown_mem grown).mpr (.inl rfl), rfl, rfl⟩

end

def noOptions : Options := ⟨none, none, none, none⟩

def Side.options (side : Side) (w : Binary32.Word) : Options :=
  match side with
  | .minimum => { noOptions with min := some w }
  | .maximum => { noOptions with max := some w }

section
variable {type : CString} {first : Atom} {rest : List Atom}

theorem read_path (valid : typeOfName type ≠ .invalid) (plain : ∀ a ∈ rest, ¬ IsOption a) :
    readRequest (.symbol type :: first :: rest) =
      .ok ⟨typeOfName type, first, rest, noOptions, []⟩ := by
  have skipped : scanOptions ⟨noOptions, none, []⟩ 2 rest = ⟨noOptions, none, []⟩ := by
    have scanned := @scan_path ⟨noOptions, none, []⟩ 2 [] rest plain
    rwa [List.append_nil] at scanned
  rw [read_accepted valid]
  simp only [noOptions] at skipped ⊢
  simp [skipped]

theorem read_limit (valid : typeOfName type ≠ .invalid) (plain : ∀ a ∈ rest, ¬ IsOption a)
    (side : Side) (n : CInt) :
    readRequest (.symbol type :: (first :: rest ++ [side.option, .int n])) =
      .ok ⟨typeOfName type, first, rest, side.options (Binary32.ofInt n.toInt), []⟩ := by
  rw [List.cons_append, read_accepted valid, scan_path plain]
  cases side with
  | minimum =>
    rw [Side.option, scan_valued]
    simp [scanOptions, ExposeOptions.put, Scan.setMin, Scan.see, canbeFloat, isInt, getAFloat, Side.options,
      noOptions]
  | maximum =>
    rw [Side.option, scan_valued]
    simp [scanOptions, ExposeOptions.put, Scan.setMax, Scan.see, canbeFloat, isInt, getAFloat, Side.options,
      noOptions]

end

theorem limit_options (side : Side) (w : Binary32.Word) (ptr : Nat) :
    limit side ([] ++ setupParameter .int32 ptr (side.options w) ++ [.serverUpdate]) ptr =
      some (.int32 (Binary32.toInt32 w)) := by
  cases side <;>
    simp [limit, setupParameter, Side.options, noOptions, orderAndReadonly, Limits.put, Side.of,
      unlimited]

theorem limit_set (side : Side) (v : Value) (other ptr : Nat) :
    limit side ([] ++ setupParameter .int32 ptr noOptions ++ [.serverUpdate] ++
      [side.set other v, .serverUpdate]) ptr = if ptr = other then some v else none := by
  cases side <;>
    simp [limit, setupParameter, noOptions, orderAndReadonly, Limits.put, Side.of, Side.set,
      unlimited] <;> split <;> rfl

section
variable {S : Type} {rcp : Rcp S} {s : S} {type : CString} {first : Atom} {rest : List Atom}
  {ptr : Nat}

/-- The path finds the parameter that was just made. -/
def FindsNew (rcp : Rcp S) (s : S) (type : CString) (first : Atom) (rest : List Atom) (ptr : Nat) :
    Prop :=
  ∃ p, getParameter rcp (exposed rcp s type first rest).server (first :: rest) none = some p ∧
    p.ptr = ptr

theorem message_sends (side : Side) (t : S) (n : CInt) :
    side.message rcp t (rest.length + 2) ⟨first :: rest ++ [.int n], 0⟩ =
      .ok (sends (getParameter rcp t (first :: rest) none) fun p =>
        [side.set p.ptr (numberOf p (.int n)), .serverUpdate]) := by
  have length : ((first :: rest).length : Int) + 1 = rest.length + 2 := by
    simp only [List.length_cons]
    omega
  rw [← length]
  cases side with
  | minimum => exact setBound_sends .setMin rfl
  | maximum => exact setBound_sends .setMax rfl

/-- After the command without options, a message for the path gives the new parameter the
    limit exactly when it finds it. -/
theorem later_iff (creates : rcp.Creates) (finds : rcp.FindsChild)
    (tree : Tree (rcp.parameters s)) {o : Options} {c : List Call}
    (created : (exposeRequest rcp s ⟨.int32, first, rest, o, c⟩).created = some ptr) {next : S}
    (server : (exposeRequest rcp s ⟨.int32, first, rest, o, c⟩).server = next) (side : Side)
    (n : CInt) :
    (∃ calls, side.message rcp next (rest.length + 2) ⟨first :: rest ++ [.int n], 0⟩ = .ok calls ∧
      limit side ([] ++ setupParameter .int32 ptr noOptions ++ [.serverUpdate] ++ calls) ptr =
        some (.int32 n)) ↔
      ∃ p, getParameter rcp next (first :: rest) none = some p ∧ p.ptr = ptr := by
  have unset : limit side ([] ++ setupParameter .int32 ptr noOptions ++ [.serverUpdate] ++ []) ptr =
      none := by
    cases side <;> rfl
  simp only [message_sends, Except.ok.injEq, exists_eq_left']
  cases found : getParameter rcp next (first :: rest) none with
  | none =>
    rw [sends, unset]
    simp
  | some p =>
    by_cases same : p.ptr = ptr
    · obtain ⟨new, listed, is_new, int32⟩ := created_listed creates created
      have final := growth_tree (ExposeWhole.exposeFrom_growth creates
        ⟨.int32, first, rest, o, c⟩ s none first rest) tree
      obtain ⟨ls, walked, _⟩ := getParameter_path finds found
      rw [server] at listed
      have only : p = new := by
        apply same_of_ptr _ (labelPath_inside walked) listed (same.trans is_new.symm)
        rw [← server]
        exact final
      have type : p.type = .int32 := only ▸ int32
      have number : IsNumber p := .inr type
      have value : numberOf p (.int n) = .int32 n := by simp [numberOf, type, getAInt]
      rw [sends, if_pos number, limit_set, if_pos same.symm, value]
      simp [same]
    · have missed : limit side ([] ++ setupParameter .int32 ptr noOptions ++ [.serverUpdate] ++
          sends (some p) fun p => [side.set p.ptr (numberOf p (.int n)), .serverUpdate]) ptr =
            none := by
        rw [sends]
        split
        · rw [limit_set, if_neg (Ne.symm same)]
        · exact unset
      rw [missed]
      simp [same]

theorem same_limit_iff (creates : rcp.Creates) (finds : rcp.FindsChild)
    (tree : Tree (rcp.parameters s)) (int32 : typeOfName type = .int32)
    (plain : ∀ a ∈ rest, ¬ IsOption a)
    (created : (exposed rcp s type first rest).created = some ptr) (side : Side) (n : CInt) :
    SameLimit rcp s type first rest side n ptr ↔
      Binary32.Short n.toInt ∧ FindsNew rcp s type first rest ptr := by
  have valid : typeOfName type ≠ .invalid := by simp [int32]
  have without : exposed rcp s type first rest =
      exposeRequest rcp s ⟨.int32, first, rest, noOptions, []⟩ := by
    simp only [exposed, exposeParameter, read_path valid plain, int32]
  have given : exposedWith rcp s type first rest side n =
      exposeRequest rcp s ⟨.int32, first, rest, side.options (Binary32.ofInt n.toInt), []⟩ := by
    simp only [exposedWith, exposeParameter, read_limit valid plain, int32]
  rw [without] at created
  obtain ⟨next, made⟩ := exposeRequest_created created
  have server := congrArg Exposed.server (made noOptions [])
  rw [FindsNew, without, made, ← later_iff creates finds tree created server side n,
    ← Binary32.toInt32_ofInt_iff]
  have kept : limit side (exposedWith rcp s type first rest side n).calls ptr =
      some (.int32 (Binary32.toInt32 (Binary32.ofInt n.toInt))) := by
    rw [given, made]
    exact limit_options side _ ptr
  constructor
  · intro both
    have first_way := both.atExpose
    have second_way := both.later
    rw [kept] at first_way
    rw [without, made] at second_way
    exact ⟨Value.int32.inj (Option.some.inj first_way), second_way⟩
  · rintro ⟨exactly, later⟩
    constructor
    · rw [given, made]
    · rw [kept, exactly]
    · rw [without, made]
      exact later

theorem findsNew_of_clear (first_found : rcp.FindsFirst) (creates : rcp.Creates)
    (tree : Tree (rcp.parameters s)) (valid : typeOfName type ≠ .invalid)
    (plain : ∀ a ∈ rest, ¬ IsOption a)
    (created : (exposed rcp s type first rest).created = some ptr)
    (clear : ExposeAddress.Clear rcp s none first rest) : FindsNew rcp s type first rest ptr := by
  simp only [FindsNew, exposed, exposeParameter, read_path valid plain] at created ⊢
  exact ExposeAddress.found_of_clear first_found creates _ s tree none first rest ptr created clear

theorem clear_of_findsNew (first_found : rcp.FindsFirst) (creates : rcp.Creates)
    (tree : Tree (rcp.parameters s)) (valid : typeOfName type ≠ .invalid)
    (plain : ∀ a ∈ rest, ¬ IsOption a)
    (created : (exposed rcp s type first rest).created = some ptr)
    (all : ExposeWhole.GroupsMade rcp s none first rest)
    (again : FindsNew rcp s type first rest ptr) : ExposeAddress.Clear rcp s none first rest := by
  simp only [FindsNew, exposed, exposeParameter, read_path valid plain] at created again
  obtain ⟨p, found, same⟩ := again
  subst same
  exact ExposeAddress.clear_of_found first_found creates _ s tree none first rest p all created found

/-- The two ways agree on an int exactly when 24 bits hold it and the path leads back, which
    a clear path does, and along groups that are there or get made no other. -/
theorem limits_agree_iff (first_found : rcp.FindsFirst) (creates : rcp.Creates)
    (tree : Tree (rcp.parameters s)) (int32 : typeOfName type = .int32)
    (plain : ∀ a ∈ rest, ¬ IsOption a)
    (created : (exposed rcp s type first rest).created = some ptr) (side : Side) (n : CInt) :
    (SameLimit rcp s type first rest side n ptr ↔
      Binary32.Short n.toInt ∧ FindsNew rcp s type first rest ptr) ∧
    (ExposeAddress.Clear rcp s none first rest → FindsNew rcp s type first rest ptr) ∧
    (ExposeWhole.GroupsMade rcp s none first rest →
      (FindsNew rcp s type first rest ptr ↔ ExposeAddress.Clear rcp s none first rest)) := by
  have valid : typeOfName type ≠ .invalid := by simp [int32]
  have enough := findsNew_of_clear first_found creates tree valid plain created
  refine ⟨same_limit_iff creates (finds_of_first first_found).child tree int32 plain created side n,
    enough, ?_⟩
  intro all
  exact ⟨clear_of_findsNew first_found creates tree valid plain created all, enough⟩

end

open ListManager

def typeInt : CString := .ofBytes (text ['i'])

theorem small_limit_agrees :
    (SameLimit listManager [] typeInt (.symbol nameA) [] .minimum 5 1 ↔
      Binary32.Short (5 : CInt).toInt ∧ FindsNew listManager [] typeInt (.symbol nameA) [] 1) ∧
    (ExposeAddress.Clear listManager [] none (.symbol nameA) [] →
      FindsNew listManager [] typeInt (.symbol nameA) [] 1) ∧
    (ExposeWhole.GroupsMade listManager [] none (.symbol nameA) [] →
      (FindsNew listManager [] typeInt (.symbol nameA) [] 1 ↔
        ExposeAddress.Clear listManager [] none (.symbol nameA) [])) :=
  limits_agree_iff listManager_first listManager_creates empty_tree (by decide) (by simp) rfl
    .minimum 5

/-- `expose i a @min 16777217` makes the minimum 16777216, and at the top of the range the
    float is outside of it. -/
theorem large_limit_rounded :
    limit .minimum (exposedWith listManager [] typeInt (.symbol nameA) [] .minimum 16777217).calls
      1 = some (.int32 16777216) ∧
    limit .maximum (exposedWith listManager [] typeInt (.symbol nameA) [] .maximum 2147483647).calls
      1 = some (.int32 (-2147483648)) ∧
    ¬ SameLimit listManager [] typeInt (.symbol nameA) [] .minimum 16777217 1 ∧
    ¬ SameLimit listManager [] typeInt (.symbol nameA) [] .maximum 2147483647 1 := by
  have rounded : limit .minimum
      (exposedWith listManager [] typeInt (.symbol nameA) [] .minimum 16777217).calls 1 =
        some (.int32 16777216) := by decide
  have outside : limit .maximum
      (exposedWith listManager [] typeInt (.symbol nameA) [] .maximum 2147483647).calls 1 =
        some (.int32 (-2147483648)) := by decide
  refine ⟨rounded, outside, ?_, ?_⟩
  · intro same
    exact absurd (rounded.symm.trans same.atExpose) (by decide)
  · intro same
    exact absurd (outside.symm.trans same.atExpose) (by decide)

end LimitsAtExpose
