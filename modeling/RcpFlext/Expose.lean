import RcpFlext.PathLookup
import RcpFlext.Library.Runs

/- rcp.server's expose and remove commands: type, group names, label and options, the
   groups made on the way and the parameter made in the last of them. -/
namespace Expose
open Atoms Datatypes ParameterTree PathLookup

structure Options where
  min : Option Binary32.Word
  max : Option Binary32.Word
  readonly : Option Bool
  order : Option CInt
  deriving DecidableEq

/-- What the option loop has found, with the index of the first option. -/
structure Scan where
  options : Options
  args_index : Option Nat
  calls : List Call
  deriving DecidableEq

def Scan.see (found : Scan) (i : Nat) : Scan :=
  { found with args_index := some (found.args_index.getD i) }

def Scan.setMin (found : Scan) (v : Atom) : Scan :=
  if canbeFloat v then { found with options.min := some (getAFloat v) }
  else { found with calls := found.calls ++ [.error "can not set argument min!" []] }

def Scan.setMax (found : Scan) (v : Atom) : Scan :=
  if canbeFloat v then { found with options.max := some (getAFloat v) }
  else { found with calls := found.calls ++ [.error "can not set argument max!" []] }

def Scan.setOrder (found : Scan) (v : Atom) : Scan :=
  if canbeInt v then { found with options.order := some (getAInt v 0) }
  else { found with calls := found.calls ++ [.error "can not set argument order!" []] }

def scanOptions (found : Scan) (i : Nat) : List Atom → Scan
  | [] => found
  | a :: rest =>
    if isString a = true ∧ (getString a).first = 64 then
      let t := (getString a).bytes
      let found := found.see i
      if t = text ['@', 'm', 'i', 'n'] then
        match rest with
        | [] => found
        | v :: rest => scanOptions (found.setMin v) (i + 2) rest
      else if t = text ['@', 'm', 'a', 'x'] then
        match rest with
        | [] => found
        | v :: rest => scanOptions (found.setMax v) (i + 2) rest
      else if t = text ['@', 'o', 'r', 'd', 'e', 'r'] then
        match rest with
        | [] => found
        | v :: rest => scanOptions (found.setOrder v) (i + 2) rest
      else if t = text ['@', 'r', 'e', 'a', 'd', 'o', 'n', 'l', 'y'] then
        scanOptions { found with options.readonly := some true } (i + 1) rest
      else scanOptions found (i + 1) rest
    else scanOptions found (i + 1) rest

/-- An accepted command: the path is `first` and then `rest`, the label last. -/
structure Request where
  type : Datatype
  first : Atom
  rest : List Atom
  options : Options
  calls : List Call
  deriving DecidableEq

def readRequest (argv : List Atom) : Except Call Request :=
  match argv with
  | type :: first :: rest =>
    if isString type = false then
      .error (.post "please provide a valid type (f, i, t, b, s)" [])
    else if typeOfName (getString type) = .invalid then
      .error (.post "unknown datatype: %s" [getString type])
    else
      let found := scanOptions ⟨⟨none, none, none, none⟩, none, []⟩ 2 rest
      let args_index := found.args_index.getD argv.length
      .ok ⟨typeOfName (getString type), first, rest.take (args_index - 2), found.options,
        found.calls⟩
  | _ => .error (.post "not enough arguments to expose parameter" [])

structure Groups (S : Type) where
  server : S
  group : Option Nat
  label : CString
  calls : List Call

variable {S : Type} (rcp : Rcp S)

/-- `createGroups` on a path of at least one atom. -/
def createGroups (s : S) (lastGroup : Option Nat) : Atom → List Atom → Groups S
  | a, [] => ⟨s, lastGroup, getAsString a, []⟩
  | a, b :: rest =>
    if isString a = false then
      ⟨s, none, .empty, [.post "can not create group with non-string name" []]⟩
    else
      match rcp.serverFindGroup s (getAsString a) lastGroup with
      | some group => createGroups s (some group.ptr) b rest
      | none =>
        match rcp.serverCreateGroup s (getAsString a) lastGroup with
        | (next, group) => createGroups next group b rest

def orderAndReadonly (ptr : Nat) (options : Options) : List Call :=
  (options.order.map (.setOrder ptr)).toList ++ (options.readonly.map (.setReadonly ptr)).toList

def setupParameter (type : Datatype) (ptr : Nat) (options : Options) : List Call :=
  match type with
  | .float32 =>
    [.setValueUpdatedCb ptr] ++
      (options.min.map fun v => Call.setMin ptr (.float32 v)).toList ++
      (options.max.map fun v => Call.setMax ptr (.float32 v)).toList ++
      orderAndReadonly ptr options ++ [.setValue ptr (.float32 0)]
  | .int32 =>
    [.setValueUpdatedCb ptr] ++
      (options.min.map fun v => Call.setMin ptr (.int32 (Binary32.toInt32 v))).toList ++
      (options.max.map fun v => Call.setMax ptr (.int32 (Binary32.toInt32 v))).toList ++
      orderAndReadonly ptr options ++ [.setValue ptr (.int32 0)]
  | .boolean =>
    [.setValueUpdatedCb ptr] ++ orderAndReadonly ptr options ++ [.setValue ptr (.boolean false)]
  | .string =>
    [.setValueUpdatedCb ptr] ++ orderAndReadonly ptr options ++ [.setValue ptr (.string .empty)]
  | .bang => orderAndReadonly ptr options ++ [.setBangCb ptr]
  | _ => []

/-- The server after the command, and the address `rcp_server_expose_*` gave, if any. -/
structure Exposed (S : Type) where
  server : S
  created : Option Nat
  calls : List Call

def exposeIn (request : Request) (groups : Groups S) : Exposed S :=
  if groups.label.isEmpty then
    ⟨groups.server, none, [.error "please provide a label to expose a parameter" []]⟩
  else
    match rcp.managerFindParameter groups.server groups.label groups.group with
    | some _ => ⟨groups.server, none, [.error "parameter '%s' already exists" [groups.label]]⟩
    | none =>
      match rcp.serverExpose groups.server request.type groups.label groups.group with
      | (s, some ptr) =>
        ⟨s, some ptr, setupParameter request.type ptr request.options ++ [.serverUpdate]⟩
      | (s, none) => ⟨s, none, [.post "could not create parameter" [], .serverUpdate]⟩

def exposeRequest (s : S) (request : Request) : Exposed S :=
  let groups := createGroups rcp s none request.first request.rest
  let exposed := exposeIn rcp request groups
  { exposed with calls := request.calls ++ groups.calls ++ exposed.calls }

def exposeParameter (s : S) (argv : List Atom) : Exposed S :=
  match readRequest argv with
  | .error call => ⟨s, none, [call]⟩
  | .ok request => exposeRequest rcp s request

inductive Command where
  | expose (argv : List Atom)
  | removeId (id : CInt)
  | removeList (argv : List Atom)
  deriving DecidableEq

def step : Runs.Machine S Command (List Call) := fun s command =>
  match command with
  | .expose argv =>
    let exposed := exposeParameter rcp s argv
    some (exposed.server, exposed.calls)
  | .removeId id => some (removeParameter rcp s id)
  | .removeList argv => some (removeParameterList rcp s argv)

section
variable {rcp : Rcp S}

theorem createGroups_other {s : S} {g : Option Nat} {a b : Atom} {rest : List Atom}
    (other : isString a = false) :
    createGroups rcp s g a (b :: rest) =
      ⟨s, none, .empty, [.post "can not create group with non-string name" []]⟩ := by
  simp [createGroups, other]

theorem createGroups_found {s : S} {g : Option Nat} {a b : Atom} {rest : List Atom}
    {group : Parameter} (string : isString a = true)
    (found : rcp.serverFindGroup s (getAsString a) g = some group) :
    createGroups rcp s g a (b :: rest) = createGroups rcp s (some group.ptr) b rest := by
  simp [createGroups, string, found]

theorem createGroups_made {s next : S} {g group : Option Nat} {a b : Atom} {rest : List Atom}
    (string : isString a = true) (missing : rcp.serverFindGroup s (getAsString a) g = none)
    (made : rcp.serverCreateGroup s (getAsString a) g = (next, group)) :
    createGroups rcp s g a (b :: rest) = createGroups rcp next group b rest := by
  simp [createGroups, string, missing, made]

theorem createGroup_growth (creates : rcp.Creates) {s next : S} {l : CString}
    {g group : Option Nat} (made : rcp.serverCreateGroup s l g = (next, group)) :
    Growth (rcp.parameters s) (rcp.parameters next) := by
  cases group with
  | none =>
    rw [creates.no_group _ _ _ _ made]
    exact .same _
  | some ptr =>
    obtain ⟨id, grown⟩ := creates.group _ _ _ _ _ made
    exact .more grown (.same _)

theorem createGroups_growth (creates : rcp.Creates) (s : S) (g : Option Nat) (a : Atom)
    (rest : List Atom) :
    Growth (rcp.parameters s) (rcp.parameters (createGroups rcp s g a rest).server) := by
  induction rest generalizing s g a with
  | nil => exact .same _
  | cons b rest ih =>
    cases string : isString a with
    | false =>
      rw [createGroups_other string]
      exact .same _
    | true =>
      cases found : rcp.serverFindGroup s (getAsString a) g with
      | some group =>
        rw [createGroups_found string found]
        exact ih s (some group.ptr) b
      | none =>
        cases made : rcp.serverCreateGroup s (getAsString a) g with
        | mk next group =>
          rw [createGroups_made string found made]
          exact growth_trans (createGroup_growth creates made) (ih next group b)

theorem removeParameter_sublist (removes : rcp.Removes) (s : S) (id : CInt) :
    (rcp.parameters (removeParameter rcp s id).1).Sublist (rcp.parameters s) :=
  removes s (id.setWidth 16)

theorem removeParameterList_sublist (removes : rcp.Removes) (s : S) (argv : List Atom) :
    (rcp.parameters (removeParameterList rcp s argv).1).Sublist (rcp.parameters s) := by
  unfold removeParameterList
  split
  · exact removeParameter_sublist removes s _
  · exact List.Sublist.refl _

inductive Ends (rcp : Rcp S) (request : Request) (groups : Groups S) : Exposed S → Prop
  | unlabelled {calls : List Call} (empty : groups.label.isEmpty = true) :
      Ends rcp request groups ⟨groups.server, none, calls⟩
  | taken {p : Parameter} {calls : List Call} (some_label : groups.label.isEmpty = false)
      (found : rcp.managerFindParameter groups.server groups.label groups.group = some p) :
      Ends rcp request groups ⟨groups.server, none, calls⟩
  | refused {next : S} {calls : List Call} (some_label : groups.label.isEmpty = false)
      (free : rcp.managerFindParameter groups.server groups.label groups.group = none)
      (made : rcp.serverExpose groups.server request.type groups.label groups.group =
        (next, none)) : Ends rcp request groups ⟨next, none, calls⟩
  | created {next : S} {ptr : Nat} {calls : List Call} (some_label : groups.label.isEmpty = false)
      (free : rcp.managerFindParameter groups.server groups.label groups.group = none)
      (made : rcp.serverExpose groups.server request.type groups.label groups.group =
        (next, some ptr)) : Ends rcp request groups ⟨next, some ptr, calls⟩

theorem exposeIn_ends (rcp : Rcp S) (request : Request) (groups : Groups S) :
    Ends rcp request groups (exposeIn rcp request groups) := by
  unfold exposeIn
  split
  · exact .unlabelled ‹_›
  · rename_i label
    have some_label : groups.label.isEmpty = false := by simpa using label
    split
    · exact .taken some_label ‹_›
    · split
      · exact .created some_label ‹_› ‹_›
      · exact .refused some_label ‹_› ‹_›

theorem ends_growth (creates : rcp.Creates) {request : Request} {groups : Groups S}
    {exposed : Exposed S} (ends : Ends rcp request groups exposed) :
    Growth (rcp.parameters groups.server) (rcp.parameters exposed.server) := by
  cases ends with
  | unlabelled _ => exact .same _
  | taken _ _ => exact .same _
  | refused _ _ made =>
    rw [creates.no_expose _ _ _ _ _ made]
    exact .same _
  | created _ _ made =>
    obtain ⟨id, grown⟩ := creates.expose _ _ _ _ _ _ made
    exact .more grown (.same _)

end

def letterF : Atom := .symbol (.ofBytes (text ['f']))

end Expose
