import RcpFlext.Input
import RcpFlext.Expose

/- The message handlers on their argument array: each read names its index, and a read
   outside the message that was delivered ends with that index. Where the source reads an
   atom at one index several times over, it is read once here. -/
namespace Indexing
open Atoms Datatypes ParameterTree PathLookup

/-- A pointer into the delivered message. -/
structure Argv where
  message : List Atom
  offset : Nat

def Argv.get (argv : Argv) (i : Int) : Except Int Atom :=
  let k := argv.offset + i
  if 0 ≤ k then
    match argv.message[k.toNat]? with
    | some a => .ok a
    | none => .error k
  else .error k

def Argv.next (argv : Argv) : Argv := ⟨argv.message, argv.offset + 1⟩

section
variable {S : Type} (rcp : Rcp S) (s : S)

def getParameterFrom (argv : Argv) (param : Option Parameter) (last_group : Option Nat) :
    Nat → Int → Except Int (Option Parameter)
  | 0, _ => .ok param
  | turns + 1, i => do
    let a ← argv.get i
    if isString a = false then .ok none
    else
      match rcp.managerFindParameter s (getString a) last_group with
      | none => .ok none
      | some p =>
        getParameterFrom argv (some p) (if p.isGroup then some p.ptr else last_group) turns (i + 1)

def getParameter (argc : Int) (argv : Argv) (group : Option Nat) :
    Except Int (Option Parameter) := getParameterFrom rcp s argv none group argc.toNat 0

def assign (param : Option Parameter) (argc : Int) (argv : Argv) : Except Int (List Call) := do
  let a ← argv.get (argc - 1)
  match Input.setAtomValue param a with
  | some call => .ok [call, .managerUpdate]
  | none => .ok []

def input (parameter : Option Parameter) (argc : Int) (argv : Argv) : Except Int (List Call) :=
  match parameter with
  | none => .ok []
  | some p =>
    if p.isGroup then
      if 1 < argc then do
        let found ← getParameter rcp s (argc - 1) argv (some p.ptr)
        match found with
        | none => .ok [.post "parameter not found" []]
        | some q =>
          if q.isGroup then .ok [.post "can not set value for group parameter" []]
          else assign (some q) argc argv
      else .ok [.post "can not set value for group parameter" []]
    else if p.type = .bang then .ok [.setDirty p.ptr, .managerUpdate]
    else assign (some p) argc argv

def mList (argc : Int) (argv : Argv) : Except Int (List Call) := do
  let first ← argv.get 0
  let id : BitVec 16 := if canbeInt first then (getAInt first 0).setWidth 16 else 0
  let byId ← if id = 0 then .ok [] else assign (rcp.managerGetParameter s id) argc argv
  if byId ≠ [] then .ok byId
  else if isString first then
    input rcp s (rcp.managerFindParameter s (getString first) none) (argc - 1) argv.next
  else .ok []

def mAny (sym : CString) (argc : Int) (argv : Argv) : Except Int (List Call) :=
  input rcp s (rcp.managerFindParameter s sym none) argc argv

def removeParameterList (argc : Int) (argv : Argv) : Except Int (S × List Call) := do
  let found ← getParameter rcp s argc argv none
  match found with
  | some param => .ok (removeParameter rcp s (param.id.signExtend 32))
  | none => .ok (s, [])

def setLast (complaint : String) (set : Nat → Atom → Call) (argc : Int) (argv : Argv) :
    Except Int (List Call) := do
  let v ← argv.get (argc - 1)
  if canbeInt v = false then .ok [.error complaint []]
  else
    let found ← getParameter rcp s (argc - 1) argv none
    match found with
    | some p => .ok [set p.ptr v, .serverUpdate]
    | none => .ok []

def parameterSetReadonly : Int → Argv → Except Int (List Call) :=
  setLast rcp s "rcp set readonly - invalid data" fun ptr v =>
    .setReadonly ptr (0 < (getAInt v 0).toInt)

def parameterSetOrder : Int → Argv → Except Int (List Call) :=
  setLast rcp s "rcp set order - invalid data" fun ptr v => .setOrder ptr (getAInt v 0)

/-- `parameterSetMin` and `parameterSetMax`: the last atom is read only for a parameter that
    was found and is a number. -/
def setBound (set : Nat → Value → Call) (argc : Int) (argv : Argv) :
    Except Int (List Call) := do
  let found ← getParameter rcp s (argc - 1) argv none
  match found with
  | some p =>
    if p.type = .float32 then
      let v ← argv.get (argc - 1)
      if canbeFloat v then .ok [set p.ptr (.float32 (getAFloat v)), .serverUpdate] else .ok []
    else if p.type = .int32 then
      let v ← argv.get (argc - 1)
      if canbeInt v then .ok [set p.ptr (.int32 (getAInt v 0)), .serverUpdate] else .ok []
    else .ok []
  | none => .ok []

def parameterSetMin : Int → Argv → Except Int (List Call) := setBound rcp s .setMin
def parameterSetMax : Int → Argv → Except Int (List Call) := setBound rcp s .setMax

/-- The check stops at the first of its three parts that fails. -/
def parameterSetMinMax (argc : Int) (argv : Argv) : Except Int (List Call) := do
  if argc < 3 then .ok [.error "invalid data for setting min and max" []]
  else
    let low ← argv.get (argc - 2)
    if isFloat low = false then .ok [.error "invalid data for setting min and max" []]
    else
      let high ← argv.get (argc - 1)
      if isFloat high = false then .ok [.error "invalid data for setting min and max" []]
      else
        let found ← getParameter rcp s (argc - 2) argv none
        match found with
        | some p =>
          if p.type = .float32 then
            .ok [.setMin p.ptr (.float32 (getAFloat low)), .setMax p.ptr (.float32 (getAFloat high)),
              .serverUpdate]
          else if p.type = .int32 then
            .ok [.setMin p.ptr (.int32 (getAInt low 0)), .setMax p.ptr (.int32 (getAInt high 0)),
              .serverUpdate]
          else .ok []
        | none => .ok []

def scanOptions (argv : Argv) (found : Expose.Scan) : Nat → Nat → Except Int Expose.Scan
  | 0, _ => .ok found
  | left + 1, i => do
    let a ← argv.get i
    if isString a = true ∧ (getString a).first = 64 then
      let t := (getString a).bytes
      let found := found.see i
      if t = text ['@', 'm', 'i', 'n'] then
        match left with
        | 0 => .ok found
        | left + 1 => do
          let v ← argv.get (i + 1)
          scanOptions argv (found.setMin v) left (i + 2)
      else if t = text ['@', 'm', 'a', 'x'] then
        match left with
        | 0 => .ok found
        | left + 1 => do
          let v ← argv.get (i + 1)
          scanOptions argv (found.setMax v) left (i + 2)
      else if t = text ['@', 'o', 'r', 'd', 'e', 'r'] then
        match left with
        | 0 => .ok found
        | left + 1 => do
          let v ← argv.get (i + 1)
          scanOptions argv (found.setOrder v) left (i + 2)
      else if t = text ['@', 'r', 'e', 'a', 'd', 'o', 'n', 'l', 'y'] then
        scanOptions argv { found with options.readonly := some true } left (i + 1)
      else scanOptions argv found left (i + 1)
    else scanOptions argv found left (i + 1)

/-- The loop of `createGroups` at `argv[i]`, with as many turns left, and the read of the
    label at `argv[last]` behind it. -/
def createGroupsFrom (argv : Argv) (last : Int) (s : S) (lastGroup : Option Nat) :
    Nat → Int → Except Int (Expose.Groups S)
  | 0, _ => do
    let a ← argv.get last
    .ok ⟨s, lastGroup, getAsString a, []⟩
  | turns + 1, i => do
    let a ← argv.get i
    if isString a = false then
      .ok ⟨s, none, .empty, [.post "can not create group with non-string name" []]⟩
    else
      match rcp.serverFindGroup s (getAsString a) lastGroup with
      | some group => createGroupsFrom argv last s (some group.ptr) turns (i + 1)
      | none =>
        match rcp.serverCreateGroup s (getAsString a) lastGroup with
        | (next, group) => createGroupsFrom argv last next group turns (i + 1)

def createGroups (argc : Int) (argv : Argv) : Except Int (Expose.Groups S) :=
  createGroupsFrom rcp argv (argc - 1) s none (argc - 1).toNat 0

def exposeParameter (argc : Int) (argv : Argv) : Except Int (Expose.Exposed S) := do
  if argc < 2 then .ok ⟨s, none, [.post "not enough arguments to expose parameter" []]⟩
  else
    let type ← argv.get 0
    if isString type = false then
      .ok ⟨s, none, [.post "please provide a valid type (f, i, t, b, s)" []]⟩
    else if typeOfName (getString type) = .invalid then
      .ok ⟨s, none, [.post "unknown datatype: %s" [getString type]]⟩
    else
      let found ← scanOptions argv ⟨⟨none, none, none, none⟩, none, []⟩ (argc - 2).toNat 2
      let args_index : Int := (found.args_index.map Int.ofNat).getD argc
      let groups ← createGroups rcp s (args_index - 1) argv.next
      let exposed := Expose.exposeIn rcp
        ⟨typeOfName (getString type), type, [], found.options, found.calls⟩ groups
      .ok { exposed with calls := found.calls ++ groups.calls ++ exposed.calls }

end

def argvOf (args : Input.Args) : Argv := ⟨args.before.reverse ++ args.atoms, args.before.length⟩

theorem get_front {argv : Argv} {i : Int} (front : argv.offset + i < 0) :
    argv.get i = .error (argv.offset + i) := if_neg (by omega)

theorem get_behind {argv : Argv} {i : Int} (behind : 0 ≤ argv.offset + i) :
    argv.get i =
      (argv.message[(argv.offset + i).toNat]?).elim (.error (argv.offset + i)) .ok := by
  rw [Argv.get, if_pos behind]
  cases argv.message[(argv.offset + i).toNat]? <;> rfl

theorem get_at {argv : Argv} {before after : List Atom} {a : Atom} {i : Int}
    (message : argv.message = before ++ a :: after) (place : argv.offset + i = before.length) :
    argv.get i = .ok a := by
  rw [get_behind (by omega), place, message, Int.toNat_natCast,
    List.getElem?_append_right (Nat.le_refl _), Nat.sub_self]
  rfl

theorem further {argv : Argv} {before after : List Atom} {a : Atom} {i : Int}
    (message : argv.message = before ++ a :: after) (place : argv.offset + i = before.length) :
    argv.message = (before ++ [a]) ++ after ∧
      argv.offset + (i + 1) = ((before ++ [a]).length : Int) := by
  constructor
  · rw [message, List.append_assoc]
    rfl
  · rw [List.length_append, List.length_singleton]
    omega

theorem get_argvOf (args : Input.Args) (i : Int) :
    (argvOf args).get i = (args.at i).elim (.error (args.before.length + i)) .ok := by
  by_cases inside : 0 ≤ (args.before.length : Int) + i
  · have read : (argvOf args).get i =
        ((args.before.reverse ++ args.atoms)[(args.before.length + i).toNat]?).elim
          (.error (args.before.length + i)) .ok := get_behind inside
    rw [read, Input.Args.at]
    congr 1
    by_cases front : 0 ≤ i
    · have index : ((args.before.length : Int) + i).toNat = args.before.length + i.toNat := by
        omega
      rw [if_pos front, index, List.getElem?_append_right (by simp), List.length_reverse,
        Nat.add_sub_cancel_left]
    · have short : ((args.before.length : Int) + i).toNat < args.before.length := by omega
      have mirrored : args.before.length - 1 - ((args.before.length : Int) + i).toNat =
          (-i - 1).toNat := by omega
      rw [if_neg front, List.getElem?_append_left (by simpa using short),
        List.getElem?_reverse short, mirrored]
  · have outside : args.before.length ≤ (-i - 1).toNat := by omega
    have read : (argvOf args).get i = .error (args.before.length + i) :=
      get_front (Int.not_le.mp inside)
    rw [read, Input.Args.at, if_neg (by omega), List.getElem?_eq_none outside]
    rfl

theorem ok_bind {α β : Type} (a : α) (f : α → Except Int β) :
    (Except.ok a >>= f) = f a := rfl

theorem see_index {found : Expose.Scan} {i k : Nat} (index : (found.see i).args_index = some k) :
    found.args_index = some k ∨ k = i := by
  cases seen : found.args_index with
  | none =>
    right
    simpa [Expose.Scan.see, seen] using index.symm
  | some j =>
    left
    simpa [Expose.Scan.see, seen] using index

theorem setMin_index (found : Expose.Scan) (v : Atom) :
    (found.setMin v).args_index = found.args_index := by
  unfold Expose.Scan.setMin
  split <;> rfl

theorem setMax_index (found : Expose.Scan) (v : Atom) :
    (found.setMax v).args_index = found.args_index := by
  unfold Expose.Scan.setMax
  split <;> rfl

theorem setOrder_index (found : Expose.Scan) (v : Atom) :
    (found.setOrder v).args_index = found.args_index := by
  unfold Expose.Scan.setOrder
  split <;> rfl

theorem scanOptions_index (found : Expose.Scan) (i : Nat) (rest : List Atom) {k : Nat}
    (index : (Expose.scanOptions found i rest).args_index = some k) :
    found.args_index = some k ∨ i ≤ k ∧ k < i + rest.length := by
  fun_induction Expose.scanOptions found i rest with
  | case1 => exact .inl index
  | case2 | case4 | case6 =>
    rcases see_index index with h | h
    · exact .inl h
    · right
      simp only [List.length_cons]
      omega
  | case3 | case5 | case7 =>
    rename_i ih
    simp only [List.length_cons]
    rcases ih index with h | h
    · simp only [setMin_index, setMax_index, setOrder_index] at h
      rcases see_index h with h | h
      · exact .inl h
      · omega
    · omega
  | case8 | case9 =>
    rename_i ih
    simp only [List.length_cons]
    rcases ih index with h | h
    · rcases see_index h with h | h
      · exact .inl h
      · omega
    · omega
  | case10 =>
    rename_i ih
    simp only [List.length_cons]
    rcases ih index with h | h
    · exact .inl h
    · omega

section
variable {S : Type} {rcp : Rcp S} {s : S}

theorem getParameterFrom_eq {argv : Argv} (path : List Atom) {before after : List Atom} {i : Int}
    (message : argv.message = before ++ (path ++ after))
    (place : argv.offset + i = before.length) (param : Option Parameter) (g : Option Nat) :
    getParameterFrom rcp s argv param g path.length i =
      .ok (PathLookup.getParameterFrom rcp s param g path) := by
  induction path generalizing before i param g with
  | nil => rfl
  | cons a path ih =>
    have read : argv.get i = .ok a := get_at message place
    obtain ⟨rest, later⟩ := further message place
    rw [List.length_cons, getParameterFrom, read, ok_bind, PathLookup.getParameterFrom]
    by_cases string : isString a = false
    · rw [if_pos string, if_pos string]
    · rw [if_neg string, if_neg string]
      cases rcp.managerFindParameter s (getString a) g with
      | none => rfl
      | some p => exact ih rest later (some p) _

theorem getParameter_eq {argv : Argv} (path : List Atom) {before after : List Atom} {argc : Int}
    (message : argv.message = before ++ (path ++ after)) (place : argv.offset = before.length)
    (count : argc.toNat = path.length) (g : Option Nat) :
    getParameter rcp s argc argv g = .ok (PathLookup.getParameter rcp s path g) := by
  rw [getParameter, count]
  exact getParameterFrom_eq path message (by omega) none g

theorem getParameter_argvOf (args : Input.Args) (g : Option Nat) :
    getParameter rcp s (args.atoms.length - 1) (argvOf args) g =
      .ok (PathLookup.getParameter rcp s (args.atoms.take (args.atoms.length - 1)) g) := by
  have message : (argvOf args).message = args.before.reverse ++
      (args.atoms.take (args.atoms.length - 1) ++ args.atoms.drop (args.atoms.length - 1)) := by
    rw [List.take_append_drop]
    rfl
  have count : ((args.atoms.length : Int) - 1).toNat =
      (args.atoms.take (args.atoms.length - 1)).length := by
    rw [List.length_take]
    omega
  exact getParameter_eq _ message (by simp [argvOf]) count g

theorem assign_argvOf (param : Option Parameter) (args : Input.Args) :
    assign param args.atoms.length (argvOf args) =
      (Input.assign param args).elim (.error (args.before.length + (args.atoms.length - 1))) .ok := by
  rw [assign, get_argvOf, Input.assign, Input.Args.last]
  cases args.at (args.atoms.length - 1) with
  | none => rfl
  | some a =>
    simp only [Option.elim, Option.map_some, ok_bind]
    cases Input.setAtomValue param a <;> rfl

theorem input_argvOf (parameter : Option Parameter) (args : Input.Args) :
    input rcp s parameter args.atoms.length (argvOf args) =
      (Input.input rcp s parameter args).elim
        (.error (args.before.length + (args.atoms.length - 1))) .ok := by
  cases parameter with
  | none => rfl
  | some p =>
    simp only [input, Input.input]
    by_cases group : p.isGroup = true
    · rw [if_pos group, if_pos group]
      by_cases long : 1 < args.atoms.length
      · rw [if_pos long, if_pos (by omega), getParameter_argvOf, ok_bind]
        cases PathLookup.getParameter rcp s (args.atoms.take (args.atoms.length - 1)) (some p.ptr) with
        | none => rfl
        | some q =>
          by_cases nested : q.isGroup = true
          · simp [nested]
          · simp only [nested, Bool.false_eq_true, ↓reduceIte]
            exact assign_argvOf (some q) args
      · rw [if_neg long, if_neg (by omega)]
        rfl
    · rw [if_neg group, if_neg group]
      by_cases bang : p.type = .bang
      · rw [if_pos bang, if_pos bang]
        rfl
      · rw [if_neg bang, if_neg bang]
        exact assign_argvOf (some p) args

theorem argvOf_message (argv : List Atom) : argvOf ⟨[], argv⟩ = ⟨argv, 0⟩ := rfl

theorem mAny_eq (sym : CString) (argv : List Atom) :
    mAny rcp s sym argv.length ⟨argv, 0⟩ =
      (Input.mAny rcp s sym argv).elim (.error (argv.length - 1)) .ok := by
  have same := @input_argvOf S rcp s (rcp.managerFindParameter s sym none) ⟨[], argv⟩
  simpa [argvOf_message, mAny, Input.mAny] using same

theorem scanOptions_eq {argv : Argv} (found : Expose.Scan) (i : Nat) (rest : List Atom)
    {before : List Atom} (message : argv.message = before ++ rest)
    (place : argv.offset + (i : Int) = before.length) :
    scanOptions argv found rest.length i = .ok (Expose.scanOptions found i rest) := by
  induction count : rest.length using Nat.strong_induction_on
    generalizing found i rest before with
  | _ n ih =>
    cases rest with
    | nil =>
      subst count
      rfl
    | cons a rest =>
      subst count
      have read : argv.get i = .ok a := get_at message place
      obtain ⟨message, place⟩ := further message place
      -- any later point of the loop, one or two atoms on
      have one (found) : scanOptions argv found rest.length (i + 1) =
          .ok (Expose.scanOptions found (i + 1) rest) :=
        ih _ (Nat.lt_succ_self _) found (i + 1) rest message (by omega) rfl
      have two (v) (tail) (eq : rest = v :: tail) (found) : argv.get (i + 1) = .ok v ∧
          scanOptions argv found tail.length (i + 2) =
            .ok (Expose.scanOptions found (i + 2) tail) := by
        subst eq
        obtain ⟨message', place'⟩ := further message place
        exact ⟨get_at message place,
          ih _ (by simp) found (i + 2) tail message' (by omega) rfl⟩
      rw [List.length_cons, scanOptions, read, ok_bind, Expose.scanOptions]
      by_cases option : isString a = true ∧ (getString a).first = 64
      · rw [if_pos option, if_pos option]
        by_cases min : (getString a).bytes = text ['@', 'm', 'i', 'n']
        · rw [if_pos min, if_pos min]
          cases rest with
          | nil => rfl
          | cons v tail =>
            obtain ⟨value, on⟩ := two v tail rfl ((found.see i).setMin v)
            simp only [List.length_cons, value, ok_bind, on]
        rw [if_neg min, if_neg min]
        by_cases max : (getString a).bytes = text ['@', 'm', 'a', 'x']
        · rw [if_pos max, if_pos max]
          cases rest with
          | nil => rfl
          | cons v tail =>
            obtain ⟨value, on⟩ := two v tail rfl ((found.see i).setMax v)
            simp only [List.length_cons, value, ok_bind, on]
        rw [if_neg max, if_neg max]
        by_cases order : (getString a).bytes = text ['@', 'o', 'r', 'd', 'e', 'r']
        · rw [if_pos order, if_pos order]
          cases rest with
          | nil => rfl
          | cons v tail =>
            obtain ⟨value, on⟩ := two v tail rfl ((found.see i).setOrder v)
            simp only [List.length_cons, value, ok_bind, on]
        rw [if_neg order, if_neg order]
        by_cases readonly : (getString a).bytes =
            text ['@', 'r', 'e', 'a', 'd', 'o', 'n', 'l', 'y']
        · rw [if_pos readonly, if_pos readonly]
          exact one _
        · rw [if_neg readonly, if_neg readonly]
          exact one _
      · rw [if_neg option, if_neg option]
        exact one found

theorem createGroupsFrom_eq {argv : Argv} {last : Int} (a : Atom) (rest : List Atom)
    {before after : List Atom} {i : Int} (message : argv.message = before ++ (a :: rest ++ after))
    (place : argv.offset + i = before.length) (label : last = i + rest.length) (s : S)
    (g : Option Nat) :
    createGroupsFrom rcp argv last s g rest.length i =
      .ok (Expose.createGroups rcp s g a rest) := by
  induction rest generalizing a before i s g with
  | nil =>
    have read : argv.get last = .ok a := by
      rw [label]
      exact get_at message (by simpa using place)
    rw [List.length_nil, createGroupsFrom, read]
    rfl
  | cons b rest ih =>
    have read : argv.get i = .ok a := get_at message place
    obtain ⟨message_later, later⟩ := further message place
    have label_later : last = i + 1 + rest.length := by
      rw [label, List.length_cons]
      omega
    rw [List.length_cons, createGroupsFrom, read, ok_bind, Expose.createGroups]
    by_cases string : isString a = false
    · rw [if_pos string, if_pos string]
    · rw [if_neg string, if_neg string]
      cases rcp.serverFindGroup s (getAsString a) g with
      | some group => exact ih b message_later later label_later s (some group.ptr)
      | none =>
        cases rcp.serverCreateGroup s (getAsString a) g with
        | mk next group => exact ih b message_later later label_later next group

theorem createGroups_eq {argv : Argv} (a : Atom) (rest : List Atom) {before after : List Atom}
    {argc : Int} (message : argv.message = before ++ (a :: rest ++ after))
    (place : argv.offset = before.length) (count : argc = rest.length + 1) (s : S) :
    createGroups rcp s argc argv = .ok (Expose.createGroups rcp s none a rest) := by
  have turns : (argc - 1).toNat = rest.length := by omega
  rw [createGroups, turns]
  exact createGroupsFrom_eq a rest message (by omega) (by omega) s none

/-- The path of a command runs from behind the type up to its first option. -/
theorem groups_eq (type first : Atom) (rest : List Atom) (index : Option Nat)
    (inside : ∀ k, index = some k → 2 ≤ k ∧ k < 2 + rest.length) :
    createGroups rcp s ((index.map Int.ofNat).getD (type :: first :: rest).length - 1)
        (Argv.next ⟨type :: first :: rest, 0⟩) =
      .ok (Expose.createGroups rcp s none first
        (rest.take (index.getD (type :: first :: rest).length - 2))) := by
  have message (n : Nat) : type :: first :: rest =
      [type] ++ (first :: rest.take n ++ rest.drop n) := by simp
  apply createGroups_eq first _ (message _) rfl
  rw [List.length_take]
  cases index with
  | none =>
    simp only [Option.map_none, Option.getD_none, List.length_cons]
    omega
  | some k =>
    have bounds := inside k rfl
    simp only [Option.map_some, Option.getD_some, Int.ofNat_eq_natCast]
    omega

/-- `exposeParameter` reads nothing outside, whatever the message. -/
theorem exposeParameter_eq (argv : List Atom) :
    exposeParameter rcp s argv.length ⟨argv, 0⟩ = .ok (Expose.exposeParameter rcp s argv) := by
  match argv with
  | [] => rfl
  | [_] => rfl
  | type :: first :: rest =>
    have long : ¬ ((type :: first :: rest).length : Int) < 2 := by
      simp only [List.length_cons]
      omega
    have read : Argv.get ⟨type :: first :: rest, 0⟩ 0 = .ok type := rfl
    rw [exposeParameter, if_neg long, read, ok_bind, Expose.exposeParameter, Expose.readRequest]
    by_cases string : isString type = false
    · rw [if_pos string, if_pos string]
    · rw [if_neg string, if_neg string]
      by_cases invalid : typeOfName (getString type) = .invalid
      · rw [if_pos invalid, if_pos invalid]
      · rw [if_neg invalid, if_neg invalid]
        have left : (((type :: first :: rest).length : Int) - 2).toNat = rest.length := by
          simp only [List.length_cons]
          omega
        have message : type :: first :: rest = [type, first] ++ rest := rfl
        have scanned := @scanOptions_eq ⟨type :: first :: rest, 0⟩
          ⟨⟨none, none, none, none⟩, none, []⟩ 2 rest _ message rfl
        rw [left, scanned, ok_bind]
        have groups := @groups_eq S rcp s type first rest
          (Expose.scanOptions ⟨⟨none, none, none, none⟩, none, []⟩ 2 rest).args_index
          fun k index => (scanOptions_index _ 2 rest index).resolve_left (by simp)
        dsimp only
        rw [groups, ok_bind]
        rfl

end

end Indexing
