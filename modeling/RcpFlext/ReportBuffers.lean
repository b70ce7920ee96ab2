import RcpFlext.DirectoryReplies
import RcpFlext.PacketStream
import RcpFlext.Library.Cursors

/- The lists of the reports and replies as they are made: a vector of a size computed first,
   and a running index. The sizes fit, so that every list is the one the reports are said to be. -/
namespace ReportBuffers
open Atoms Datatypes ParameterTree PathLookup Reports Cursors
open Cursors.Cursor (puts_bind puts_puts ite_puts)

abbrev Buffer := Cursor Atom

/-- `std::vector<t_atom> list(len)` and `int i = 0`, where an `int` holds the size. -/
def buffer (len : Nat) : Option Buffer :=
  if len < 2 ^ 31 then some ⟨List.replicate len .pointer, 0⟩ else none

def toOutList (outlet : Nat) (list : Buffer) : Out := .list outlet list.written

namespace ParameterServerClientBase

section
variable {S : Type} (rcp : Rcp S) (get : Queries.Getters S) (s : S) (p : Parameter)

def setValue (list : Buffer) : Option Buffer :=
  match p.type with
  | .boolean => list.put (setBool (get.valueBool s p.ptr))
  | .int32 => list.put (.int (get.valueInt32 s p.ptr))
  | .float32 => list.put (.float (get.valueFloat s p.ptr))
  | .string => (get.valueString s p.ptr).bind fun v => list.put (.symbol v)
  | _ => some list

def setAddress (word : List Char) (groups : List CString) (list : Buffer) : Option Buffer := do
  let list ← list.put (symbol word)
  let list ← list.puts (groups.reverse.map .symbol)
  list.put (.symbol (p.label.getD (.ofBytes (text ['<', 'n', 'o', 'l', 'a', 'b', 'e', 'l', '>']))))

def parameterUpdate : Option (List Out) := do
  let groups ← getParents (rcp.parameters s) p
  let list ← buffer (3 + groups.length)
  let list ← setAddress p ['u', 'p', 'd', 'a', 't', 'e'] groups list
  let list ← setValue get s p list
  some [.int 1 (p.id.signExtend 32), toOutList 0 list]

/-- A number, and the limits that there is room for. -/
def setNumber (has_min has_max : Bool) (value min max : Atom) (list : Buffer) : Option Buffer := do
  let list ← list.put value
  let list ← if has_min then list.put min else some list
  if has_max then list.put max else some list

def hasLimit (has : S → Nat → Bool) : Bool :=
  p.isValue && (p.type = .float32 || p.type = .int32) && has s p.ptr

def setInfo (list : Buffer) : Option Buffer :=
  let has_min := hasLimit s p get.hasMinimum
  let has_max := hasLimit s p get.hasMaximum
  match p.type with
  | .int32 => setNumber has_min has_max (.int (get.valueInt32 s p.ptr))
      (.int (get.minimumI32 s p.ptr)) (.int (get.maximumI32 s p.ptr)) list
  | .float32 => setNumber has_min has_max (.float (get.valueFloat s p.ptr))
      (.float (get.minimumF32 s p.ptr)) (.float (get.maximumF32 s p.ptr)) list
  | _ => setValue get s p list

def outputInfo (argv : List Atom) : Option (List Out) := do
  let list ← buffer (3 + argv.length + p.isValue.toNat +
    (hasLimit s p get.hasMinimum).toNat + (hasLimit s p get.hasMaximum).toNat)
  let list ← list.put (symbol ['i', 'n', 'f', 'o'])
  let list ← list.puts argv
  let list ← setInfo get s p list
  let list ← list.put (.int (p.id.signExtend 32))
  let list ← list.put (typeToString p.type)
  some [toOutList 3 list]

def parameterInfo (argv : List Atom) : Option (List Out) :=
  if argv = [] then
    ((rcp.parameters s).mapM fun p => do
      let groups ← getParents (rcp.parameters s) p
      let groups_a ← buffer groups.length
      let groups_a ← groups_a.puts (groups.reverse.map .symbol)
      outputInfo get s p groups_a.cells).map List.flatten
  else
    match getParameter rcp s argv none with
    | some p => outputInfo get s p argv
    | none => some []

/-- The replies that find a parameter, copy the path and write what they are about; `len`
    leaves room for this besides the word and the path. -/
def reply (word : List Char) (len : Parameter → Nat)
    (write : Parameter → Buffer → Option Buffer) (argv : List Atom) : Option (List Out) :=
  match getParameter rcp s argv none with
  | some p => do
    let list ← buffer (1 + argv.length + len p)
    let list ← list.put (symbol word)
    let list ← list.puts argv
    let list ← write p list
    some [toOutList 3 list]
  | none => some []

def parameterId : List Atom → Option (List Out) :=
  reply rcp s ['i', 'd'] (fun _ => 1) fun p list => list.put (.int (p.id.signExtend 32))

def parameterType : List Atom → Option (List Out) :=
  reply rcp s ['t', 'y', 'p', 'e'] (fun _ => 1) fun p list => list.put (typeToString p.type)

def parameterReadonly : List Atom → Option (List Out) :=
  reply rcp s ['r', 'e', 'a', 'd', 'o', 'n', 'l', 'y'] (fun _ => 1) fun p list =>
    list.put (.int (if get.readonly s p.ptr then 1 else 0))

def parameterOrder : List Atom → Option (List Out) :=
  reply rcp s ['o', 'r', 'd', 'e', 'r'] (fun _ => 1) fun p list =>
    list.put (.int (get.order s p.ptr))

def parameterValue : List Atom → Option (List Out) :=
  reply rcp s ['v', 'a', 'l', 'u', 'e'] (fun p => p.isValue.toNat) (setValue get s)

def limitReply (word : List Char) (has : S → Nat → Bool) (int32 : S → Nat → CInt)
    (float32 : S → Nat → Binary32.Word) (argv : List Atom) : Option (List Out) :=
  match getParameter rcp s argv none with
  | some p =>
    if has s p.ptr then do
      let list ← buffer (1 + argv.length + 1)
      let list ← list.put (symbol word)
      let list ← list.puts argv
      let list ← match p.type with
        | .int32 => list.put (.int (int32 s p.ptr))
        | .float32 => list.put (.float (float32 s p.ptr))
        | _ => some list
      some [toOutList 3 list]
    else some []
  | none => some []

def parameterMin : List Atom → Option (List Out) :=
  limitReply rcp s ['m', 'i', 'n'] get.hasMinimum get.minInt32 get.minFloat

def parameterMax : List Atom → Option (List Out) :=
  limitReply rcp s ['m', 'a', 'x'] get.hasMaximum get.maxInt32 get.maxFloat

def asked (q : DirectoryReplies.Query) (argv : List Atom) : Option (List Out) :=
  match q with
  | .info => parameterInfo rcp get s argv
  | .id => parameterId rcp s argv
  | .type => parameterType rcp s argv
  | .readonly => parameterReadonly rcp get s argv
  | .order => parameterOrder rcp get s argv
  | .value => parameterValue rcp get s argv
  | .min => parameterMin rcp get s argv
  | .max => parameterMax rcp get s argv

end

end ParameterServerClientBase

namespace ParameterClient
open ParameterServerClientBase

section
variable {S : Type} (rcp : Rcp S) (get : Queries.Getters S) (s : S) (p : Parameter)

def setAdded (list : Buffer) : Option Buffer :=
  if p.isValue then
    if p.type = .string then list.put (.symbol ((get.valueString s p.ptr).getD .empty))
    else setValue get s p list
  else if p.type = .bang then list.put (symbol ['[', 'b', 'a', 'n', 'g', ']'])
  else list.put (symbol ['[', 'g', 'r', 'o', 'u', 'p', ']'])

def parameterAdded : Option (List Out) := do
  let groups ← getParents (rcp.parameters s) p
  let list ← buffer (3 + groups.length)
  let list ← setAddress p ['a', 'd', 'd'] groups list
  let list ← setAdded get s p list
  some (addedCalls p ++ [.int 1 (p.id.zeroExtend 32), toOutList 0 list])

def parameterRemoved : Option (List Out) := do
  let groups ← getParents (rcp.parameters s) p
  let list ← buffer (2 + groups.length)
  let list ← setAddress p ['r', 'e', 'm', 'o', 'v', 'e'] groups list
  some [.int 1 (p.id.zeroExtend 32), toOutList 0 list]

end

end ParameterClient

namespace RcpParse
open PacketStream (InfoData)

def infoList : Option InfoData → Option (List Out)
  | some info_data => do
    let len := 2 + info_data.application_id.toList.length
    let list := List.replicate len Atom.pointer
    let list ← Cells.poke list 0 (symbol ['i', 'n', 'f', 'o'])
    let version ← info_data.version
    let list ← Cells.poke list 1 (.symbol version)
    let list ← Cells.pokeAll list 2 (info_data.application_id.map Atom.symbol).toList
    some [.list 0 list]
  | none => some [.list 0 [symbol ['i', 'n', 'f', 'o']]]

def setValue (parameter : PacketStream.Parameter) (list : Buffer) : Option Buffer :=
  match parameter.type with
  | .boolean => list.put (setBool parameter.valueBool)
  | .int32 => list.put (.int parameter.valueInt32)
  | .float32 => list.put (.float parameter.valueFloat)
  | .string => parameter.valueString.bind fun v => list.put (.symbol v)
  | _ => some list

def parameterUpdate (parameter : PacketStream.Parameter) : Option (List Out) := do
  let list ← buffer (3 + parameter.label.toList.length)
  let list ← list.put (symbol ['u', 'p', 'd', 'a', 't', 'e'])
  let list ← list.puts (parameter.label.map Atom.symbol).toList
  let list ← setValue parameter list
  some [.int 1 (parameter.id.signExtend 32), toOutList 0 list]

end RcpParse

theorem buffer_puts {W : Type} {len : Nat} {atoms : List Atom} {rest : Buffer → Option W}
    {result : Option W} (fits : atoms.length ≤ len) (small : len < 2 ^ 31)
    (goes_on : ∀ list, list.written = atoms → rest list = result) :
    ((buffer len).bind fun list => (list.puts atoms).bind rest) = result := by
  obtain ⟨list, written, same⟩ := Cursor.puts_front (List.replicate len Atom.pointer) atoms
    (by rw [List.length_replicate]; exact fits)
  rw [buffer, if_pos small, Option.bind_some, written, Option.bind_some]
  exact goes_on list same

theorem bind_none {A B : Type} (x : Option A) : (x.bind fun _ => (none : Option B)) = none := by
  cases x <;> rfl

theorem buffer_told (len : Nat) (head tail : List Atom) (told : Option (List Atom))
    (fits : ∀ atoms, told = some atoms → (head ++ (atoms ++ tail)).length ≤ len)
    (small : len < 2 ^ 31) (before : List Out) (outlet : Nat) :
    ((buffer len).bind fun list => (list.puts head).bind fun list =>
      (told.bind fun atoms => list.puts atoms).bind fun list => (list.puts tail).bind fun list =>
        some (before ++ [toOutList outlet list])) =
      told.map fun atoms => before ++ [.list outlet (head ++ (atoms ++ tail))] := by
  cases value : told with
  | none => simp only [Option.bind_none, bind_none, Option.map_none]
  | some atoms =>
    simp only [Option.bind_some, Option.map_some, puts_bind]
    apply buffer_puts (fits atoms value) small
    intro list same
    rw [toOutList, same]

section
variable {S : Type} {rcp : Rcp S} {get : Queries.Getters S} {s : S} {p : Parameter}

theorem setValue_eq (list : Buffer) : ParameterServerClientBase.setValue get s p list =
    (valueAtoms get.toGetters s p).bind fun atoms => list.puts atoms := by
  unfold ParameterServerClientBase.setValue valueAtoms
  cases p.type with
  | string => simp only [Cursor.put_eq, Option.bind_map, Function.comp_def]
  | boolean => exact Cursor.put_eq list _
  | int32 => exact Cursor.put_eq list _
  | float32 => exact Cursor.put_eq list _
  | invalid | bang | group | other => rfl

theorem valueAtoms_length {atoms : List Atom} (read : valueAtoms get.toGetters s p = some atoms) :
    atoms.length ≤ p.isValue.toNat := by
  unfold valueAtoms at read
  split at read
  · cases read
    simp [Parameter.isValue, *]
  · cases read
    simp [Parameter.isValue, *]
  · cases read
    simp [Parameter.isValue, *]
  · obtain ⟨v, _, eq⟩ := Option.map_eq_some_iff.mp read
    subst eq
    simp [Parameter.isValue, *]
  · cases read
    exact Nat.zero_le _

theorem getParentsFrom_length {ps : List Parameter} {turns : Nat} {g : Option Nat}
    {groups : List CString} (found : getParentsFrom ps turns g = some groups) :
    groups.length ≤ turns := by
  induction turns generalizing g groups with
  | zero =>
    cases g with
    | none =>
      cases found
      exact Nat.le_refl 0
    | some g => contradiction
  | succ turns ih =>
    cases g with
    | none =>
      cases found
      exact Nat.zero_le _
    | some g =>
      obtain ⟨group, _, rest⟩ := Option.bind_eq_some_iff.mp found
      obtain ⟨above, onwards, eq⟩ := Option.bind_eq_some_iff.mp rest
      cases eq
      exact Nat.succ_le_succ (ih onwards)

theorem parameters_length {ps : List Parameter} (distinct : (ps.map (·.id)).Nodup) :
    ps.length ≤ 65536 := by
  have numbers : ((ps.map (·.id)).map BitVec.toNat).Nodup :=
    distinct.map fun _ _ same => BitVec.eq_of_toNat_eq same
  have inside : (ps.map (·.id)).map BitVec.toNat ⊆ List.range 65536 := by
    intro n mem
    obtain ⟨id, _, eq⟩ := List.mem_map.mp mem
    exact List.mem_range.mpr (eq ▸ id.isLt)
  have bound := (List.subperm_of_subset numbers inside).length_le
  simpa using bound

theorem parents_length {ps : List Parameter} (distinct : (ps.map (·.id)).Nodup)
    {groups : List CString} (found : getParents ps p = some groups) : groups.length ≤ 65536 :=
  Nat.le_trans (getParentsFrom_length found) (parameters_length distinct)

theorem setAddress_eq (word : List Char) (groups : List CString) (list : Buffer) :
    ParameterServerClientBase.setAddress p word groups list = list.puts ([symbol word] ++
      groups.reverse.map .symbol ++
        [.symbol (p.label.getD (.ofBytes (text ['<', 'n', 'o', 'l', 'a', 'b', 'e', 'l', '>'])))]) := by
  simp only [ParameterServerClientBase.setAddress, Option.bind_eq_bind, Cursor.put_eq, puts_puts,
    List.append_assoc]

theorem reply_same (word : List Char) {len : Parameter → Nat}
    {write : Parameter → Buffer → Option Buffer} {told : Parameter → Option (List Atom)}
    (writes : ∀ p list, write p list = (told p).bind fun atoms => list.puts atoms)
    (fits : ∀ p atoms, told p = some atoms → atoms.length ≤ len p) (few : ∀ p, len p ≤ 1)
    {argv : List Atom} (short : argv.length + 6 < 2 ^ 31) :
    ParameterServerClientBase.reply rcp s word len write argv =
      Queries.reply rcp s word told argv := by
  unfold ParameterServerClientBase.reply Queries.reply
  cases getParameter rcp s argv none with
  | none => rfl
  | some p =>
    have one := few p
    have made := buffer_told (1 + argv.length + len p) ([symbol word] ++ argv) [] (told p) (by
      intro atoms read
      have size := fits p atoms read
      simp only [List.length_append, List.length_singleton, List.length_nil]
      omega) (by omega) [] 3
    simpa only [Option.bind_eq_bind, Cursor.put_eq, puts_bind, writes, Cursor.puts_nil,
      Option.bind_some, List.append_nil, List.nil_append] using made

theorem setNumber_eq (has_min has_max : Bool) (value min max : Atom) (list : Buffer) :
    ParameterServerClientBase.setNumber has_min has_max value min max list =
      list.puts ([value] ++ ((if has_min then [min] else []) ++ if has_max then [max] else [])) := by
  cases has_min <;> cases has_max <;>
    simp [ParameterServerClientBase.setNumber, Cursor.put_eq, puts_puts]

theorem setInfo_eq (list : Buffer) : ParameterServerClientBase.setInfo get s p list =
    ((valueAtoms get.toGetters s p).map fun atoms => atoms ++ limitAtoms get.toGetters s p).bind
      fun atoms => list.puts atoms := by
  have others (type : p.type ≠ .int32) (type' : p.type ≠ .float32) :
      limitAtoms get.toGetters s p = [] := by
    unfold limitAtoms
    split <;> simp_all
  unfold ParameterServerClientBase.setInfo
  split
  · rename_i type
    simp [setNumber_eq, ParameterServerClientBase.hasLimit, valueAtoms, limitAtoms, type,
      Parameter.isValue]
  · rename_i type
    simp [setNumber_eq, ParameterServerClientBase.hasLimit, valueAtoms, limitAtoms, type,
      Parameter.isValue]
  · rw [setValue_eq, others ‹_› ‹_›]
    simp only [List.append_nil, Option.map_id']

theorem limitAtoms_length (get : Queries.Getters S) (s : S) (p : Parameter) :
    (limitAtoms get.toGetters s p).length =
      (ParameterServerClientBase.hasLimit s p get.hasMinimum).toNat +
        (ParameterServerClientBase.hasLimit s p get.hasMaximum).toNat := by
  unfold limitAtoms ParameterServerClientBase.hasLimit
  cases type : p.type <;> simp [Parameter.isValue, type]
  · cases get.hasMinimum s p.ptr <;> cases get.hasMaximum s p.ptr <;> rfl
  · cases get.hasMinimum s p.ptr <;> cases get.hasMaximum s p.ptr <;> rfl

theorem outputInfo_same {argv : List Atom} (short : argv.length + 6 < 2 ^ 31) :
    ParameterServerClientBase.outputInfo get s p argv = outputInfo get.toGetters s p argv := by
  have limits := limitAtoms_length get s p
  have one := p.isValue.toNat_le
  have two := (ParameterServerClientBase.hasLimit s p get.hasMinimum).toNat_le
  have three := (ParameterServerClientBase.hasLimit s p get.hasMaximum).toNat_le
  have made := buffer_told (3 + argv.length + p.isValue.toNat +
      (ParameterServerClientBase.hasLimit s p get.hasMinimum).toNat +
      (ParameterServerClientBase.hasLimit s p get.hasMaximum).toNat)
    ([symbol ['i', 'n', 'f', 'o']] ++ argv) [.int (p.id.signExtend 32), typeToString p.type]
    ((valueAtoms get.toGetters s p).map fun atoms => atoms ++ limitAtoms get.toGetters s p)
    (by
      intro atoms read
      obtain ⟨value, here, eq⟩ := Option.map_eq_some_iff.mp read
      subst eq
      have size := valueAtoms_length here
      simp only [List.length_append, List.length_cons, List.length_nil, limits]
      omega) (by omega) [] 3
  calc ParameterServerClientBase.outputInfo get s p argv = _ := by
        simp only [ParameterServerClientBase.outputInfo, Option.bind_eq_bind, Cursor.put_eq,
          puts_bind, setInfo_eq]
        rfl
    _ = _ := made
    _ = outputInfo get.toGetters s p argv := by
      cases value : valueAtoms get.toGetters s p with
      | none => simp [outputInfo, value]
      | some atoms => simp [outputInfo, value]

theorem groups_a_same (groups : List Atom) (short : groups.length < 2 ^ 31)
    (rest : List Atom → Option (List Out)) :
    ((buffer groups.length).bind fun groups_a => (groups_a.puts groups).bind fun groups_a =>
      rest groups_a.cells) = rest groups := by
  have fills := Cells.pokeAll_front (List.replicate groups.length Atom.pointer) groups (by simp)
  rw [buffer, if_pos short, Option.bind_some, Cursor.puts_pokeAll, fills]
  simp

theorem parameterInfo_same {argv : List Atom} (distinct : ((rcp.parameters s).map (·.id)).Nodup)
    (short : argv.length + 6 < 2 ^ 31) :
    ParameterServerClientBase.parameterInfo rcp get s argv =
      parameterInfo rcp get.toGetters s argv := by
  unfold ParameterServerClientBase.parameterInfo parameterInfo
  by_cases none : argv = []
  · rw [if_pos none, if_pos none]
    refine congrArg (Option.map List.flatten)
      (congrArg (fun told => (rcp.parameters s).mapM told) (funext fun p => ?_))
    cases found : getParents (rcp.parameters s) p with
    | none => simp only [Option.bind_eq_bind, Option.bind_none]
    | some groups =>
      have few := parents_length distinct found
      have size : (groups.reverse.map Atom.symbol).length = groups.length := by simp
      have small : groups.length + 6 < 2 ^ 31 := by omega
      have filled := groups_a_same (groups.reverse.map Atom.symbol) (by omega)
        (ParameterServerClientBase.outputInfo get s p)
      rw [size] at filled
      simp only [Option.bind_eq_bind, Option.bind_some, filled]
      exact outputInfo_same (by rw [size]; exact small)
  · rw [if_neg none, if_neg none]
    cases getParameter rcp s argv .none with
    | none => rfl
    | some p => exact outputInfo_same short

theorem limitReply_same (word : List Char) (has : S → Nat → Bool) (int32 : S → Nat → CInt)
    (float32 : S → Nat → Binary32.Word) {argv : List Atom} (short : argv.length + 6 < 2 ^ 31) :
    ParameterServerClientBase.limitReply rcp s word has int32 float32 argv =
      some (Queries.limitReply rcp s word has int32 float32 argv) := by
  have made (limit : List Atom) (one : limit.length ≤ 1) :=
    buffer_told (1 + argv.length + 1) ([symbol word] ++ argv) [] (some limit) (by
      intro atoms read
      cases read
      simp only [List.length_append, List.length_singleton, List.length_nil]
      omega) (by omega) [] 3
  unfold ParameterServerClientBase.limitReply Queries.limitReply
  cases getParameter rcp s argv none with
  | none => rfl
  | some p =>
    simp only
    split
    · simp only [Option.bind_some, puts_bind, List.append_nil, List.nil_append,
        Option.map_some] at made
      cases p.type with
      | int32 =>
        simpa only [Option.bind_eq_bind, Cursor.put_eq, puts_bind, List.append_assoc] using
          made [.int (int32 s p.ptr)] (Nat.le_refl 1)
      | float32 =>
        simpa only [Option.bind_eq_bind, Cursor.put_eq, puts_bind, List.append_assoc] using
          made [.float (float32 s p.ptr)] (Nat.le_refl 1)
      | _ =>
        simpa only [Option.bind_eq_bind, Cursor.put_eq, puts_bind, Option.bind_some,
          List.append_nil] using made [] (Nat.zero_le 1)
    · rfl

/-- The lists sent without being asked for: an address, and then what is told. -/
theorem addressed_same (word : List Char) (room : Nat) (told : Option (List Atom))
    (fits : ∀ atoms, told = some atoms → atoms.length ≤ room) (few : room ≤ 1)
    (distinct : ((rcp.parameters s).map (·.id)).Nodup) (before : List Out) :
    ((getParents (rcp.parameters s) p).bind fun groups => (buffer (2 + room + groups.length)).bind
      fun list => (ParameterServerClientBase.setAddress p word groups list).bind fun list =>
        (told.bind fun atoms => list.puts atoms).bind fun list =>
          some (before ++ [toOutList 0 list])) =
      (address rcp s p word).bind fun path => told.map fun atoms =>
        before ++ [.list 0 (path ++ atoms)] := by
  unfold address
  cases found : getParents (rcp.parameters s) p with
  | none => simp only [Option.bind_none, Option.map_none]
  | some groups =>
    have bound := parents_length distinct found
    have made := buffer_told (2 + room + groups.length) ([symbol word] ++
        groups.reverse.map .symbol ++ [.symbol (p.label.getD
          (.ofBytes (text ['<', 'n', 'o', 'l', 'a', 'b', 'e', 'l', '>'])))]) [] told (by
      intro atoms read
      have size := fits atoms read
      simp only [List.length_append, List.length_singleton, List.length_nil, List.length_map,
        List.length_reverse]
      omega) (by omega) before 0
    simpa only [Option.bind_some, Option.map_some, setAddress_eq, Cursor.puts_nil,
      List.append_nil] using made

theorem parameterUpdate_same (distinct : ((rcp.parameters s).map (·.id)).Nodup) :
    ParameterServerClientBase.parameterUpdate rcp get s p =
      parameterUpdate rcp get.toGetters s p := by
  have one := p.isValue.toNat_le
  have made := @addressed_same S rcp s p ['u', 'p', 'd', 'a', 't', 'e'] 1
    (valueAtoms get.toGetters s p) (fun _ read => Nat.le_trans (valueAtoms_length read) one)
    (Nat.le_refl 1) distinct [.int 1 (p.id.signExtend 32)]
  refine Eq.trans ?_ (made.trans ?_)
  · simp only [ParameterServerClientBase.parameterUpdate, Option.bind_eq_bind, setValue_eq,
      List.singleton_append]
  · unfold parameterUpdate
    cases address rcp s p ['u', 'p', 'd', 'a', 't', 'e'] with
    | none => rfl
    | some path => cases valueAtoms get.toGetters s p <;> rfl

theorem setAdded_eq (list : Buffer) : ParameterClient.setAdded get s p list =
    (addedAtoms get.toGetters s p).bind fun atoms => list.puts atoms := by
  unfold ParameterClient.setAdded addedAtoms
  split
  · split
    · exact Cursor.put_eq list _
    · exact setValue_eq list
  · split
    · exact Cursor.put_eq list _
    · exact Cursor.put_eq list _

theorem addedAtoms_length {atoms : List Atom} (read : addedAtoms get.toGetters s p = some atoms) :
    atoms.length ≤ 1 := by
  unfold addedAtoms at read
  split at read
  · split at read
    · cases read
      exact Nat.le_refl 1
    · exact Nat.le_trans (valueAtoms_length read) p.isValue.toNat_le
  · split at read
    · cases read
      exact Nat.le_refl 1
    · cases read
      exact Nat.le_refl 1

theorem parameterAdded_same (distinct : ((rcp.parameters s).map (·.id)).Nodup) :
    ParameterClient.parameterAdded rcp get s p = parameterAdded rcp get.toGetters s p := by
  have made := @addressed_same S rcp s p ['a', 'd', 'd'] 1 (addedAtoms get.toGetters s p)
    (fun _ read => addedAtoms_length read) (Nat.le_refl 1) distinct
    (addedCalls p ++ [.int 1 (p.id.zeroExtend 32)])
  refine Eq.trans ?_ (made.trans ?_)
  · simp only [ParameterClient.parameterAdded, Option.bind_eq_bind, setAdded_eq,
      List.append_assoc, List.singleton_append]
  · unfold parameterAdded
    cases address rcp s p ['a', 'd', 'd'] with
    | none => rfl
    | some path => cases addedAtoms get.toGetters s p <;> simp

theorem parameterRemoved_same (distinct : ((rcp.parameters s).map (·.id)).Nodup) :
    ParameterClient.parameterRemoved rcp s p = parameterRemoved rcp s p := by
  have made := @addressed_same S rcp s p ['r', 'e', 'm', 'o', 'v', 'e'] 0 (some [])
    (fun _ read => by cases read; exact Nat.le_refl 0) (Nat.zero_le 1) distinct
    [.int 1 (p.id.zeroExtend 32)]
  refine Eq.trans ?_ (made.trans ?_)
  · simp only [ParameterClient.parameterRemoved, Option.bind_eq_bind, Option.bind_some,
      Cursor.puts_nil, List.singleton_append, Nat.add_zero]
  · unfold parameterRemoved
    cases address rcp s p ['r', 'e', 'm', 'o', 'v', 'e'] with
    | none => rfl
    | some path => simp

theorem asked_same (distinct : ((rcp.parameters s).map (·.id)).Nodup) {argv : List Atom}
    (short : argv.length + 6 < 2 ^ 31) (q : DirectoryReplies.Query) :
    ParameterServerClientBase.asked rcp get s q argv =
      DirectoryReplies.asked rcp get s q argv := by
  have single (word : List Char) (told : Parameter → Atom) :
      ParameterServerClientBase.reply rcp s word (fun _ => 1) (fun p list => list.put (told p)) argv =
        Queries.reply rcp s word (fun p => some [told p]) argv :=
    reply_same word (fun p list => Cursor.put_eq list _)
      (fun _ _ read => by cases read; exact Nat.le_refl 1) (fun _ => Nat.le_refl 1) short
  cases q with
  | info => exact parameterInfo_same distinct short
  | id =>
    refine (single ['i', 'd'] fun p => .int (p.id.signExtend 32)).trans ?_
    unfold DirectoryReplies.asked Queries.reply parameterId
    cases getParameter rcp s argv none <;> rfl
  | type => exact single ['t', 'y', 'p', 'e'] fun p => typeToString p.type
  | readonly => exact single _ fun p => .int (if get.readonly s p.ptr then 1 else 0)
  | order => exact single _ fun p => .int (get.order s p.ptr)
  | value =>
    exact reply_same ['v', 'a', 'l', 'u', 'e'] (fun p list => @setValue_eq S get s p list)
      (fun p _ read => @valueAtoms_length S get s p _ read) (fun p => Bool.toNat_le p.isValue) short
  | min => exact limitReply_same _ _ _ _ short
  | max => exact limitReply_same _ _ _ _ short

end

namespace RcpParse

theorem infoList_same (infodata : Option PacketStream.InfoData) :
    infoList infodata = PacketStream.RcpParse.infoList infodata := by
  cases infodata with
  | none => rfl
  | some data =>
    obtain ⟨version, application_id⟩ := data
    cases version with
    | none => cases application_id <;> rfl
    | some version => cases application_id <;> rfl

theorem parameterUpdate_same (parameter : PacketStream.Parameter) :
    parameterUpdate parameter = PacketStream.RcpParse.parameterUpdate parameter := by
  have label : parameter.label.toList.length ≤ 1 := by cases parameter.label <;> simp
  have named : ((parameter.label.map Atom.symbol).toList).length = parameter.label.toList.length := by
    cases parameter.label <;> rfl
  have value : ∀ atoms, PacketStream.RcpParse.valueAtoms parameter = some atoms →
      atoms.length ≤ 1 := by
    intro atoms read
    unfold PacketStream.RcpParse.valueAtoms at read
    split at read
    · cases read; exact Nat.le_refl 1
    · cases read; exact Nat.le_refl 1
    · cases read; exact Nat.le_refl 1
    · obtain ⟨v, _, eq⟩ := Option.map_eq_some_iff.mp read
      subst eq
      exact Nat.le_refl 1
    · cases read; exact Nat.zero_le 1
  have made := buffer_told (3 + parameter.label.toList.length)
    ([symbol ['u', 'p', 'd', 'a', 't', 'e']] ++ (parameter.label.map Atom.symbol).toList) []
    (PacketStream.RcpParse.valueAtoms parameter) (by
      intro atoms read
      have size := value atoms read
      simp only [List.length_append, List.length_singleton, List.length_nil, named]
      omega) (by omega) [.int 1 (parameter.id.signExtend 32)] 0
  have writes (list : Buffer) : setValue parameter list =
      (PacketStream.RcpParse.valueAtoms parameter).bind fun atoms => list.puts atoms := by
    unfold setValue PacketStream.RcpParse.valueAtoms
    cases parameter.type with
    | string => simp only [Cursor.put_eq, Option.bind_map, Function.comp_def]
    | boolean => exact Cursor.put_eq list _
    | int32 => exact Cursor.put_eq list _
    | float32 => exact Cursor.put_eq list _
    | invalid | bang | group | other => rfl
  refine Eq.trans ?_ (made.trans ?_)
  · simp only [parameterUpdate, Option.bind_eq_bind, Cursor.put_eq, puts_bind, writes,
      Cursor.puts_nil, Option.bind_some, List.singleton_append]
  · simp only [PacketStream.RcpParse.parameterUpdate, List.append_nil, List.singleton_append]

end RcpParse

/-- Every list that tells of parameters is written inside its vector and is the one it is said
    to be: the updates of both objects, what a client adds and removes, the reply to any query
    and what rcp.parse sends. Nothing is sent only where a string is NULL. -/
theorem lists_fit {S : Type} (rcp : Rcp S) (get : Queries.Getters S) (s : S)
    (distinct : ((rcp.parameters s).map (·.id)).Nodup) :
    (∀ p, ParameterServerClientBase.parameterUpdate rcp get s p =
        parameterUpdate rcp get.toGetters s p ∧
      ParameterClient.parameterAdded rcp get s p = parameterAdded rcp get.toGetters s p ∧
      ParameterClient.parameterRemoved rcp s p = parameterRemoved rcp s p) ∧
    (∀ argv : List Atom, argv.length + 6 < 2 ^ 31 → ∀ q,
      ParameterServerClientBase.asked rcp get s q argv = DirectoryReplies.asked rcp get s q argv) ∧
    (∀ parameter, RcpParse.parameterUpdate parameter =
      PacketStream.RcpParse.parameterUpdate parameter) ∧
    ∀ infodata, RcpParse.infoList infodata = PacketStream.RcpParse.infoList infodata :=
  ⟨fun _ => ⟨parameterUpdate_same distinct, parameterAdded_same distinct,
      parameterRemoved_same distinct⟩,
    fun _ short q => asked_same distinct short q, RcpParse.parameterUpdate_same,
    RcpParse.infoList_same⟩

def numberInGroup : BookServer.Book where
  parameters := [⟨1, 1, .group, some (.ofBytes [97]), none⟩, ⟨2, 2, .int32, some (.ofBytes [98]), some 1⟩]
  fields := fun _ => Contents.blank

theorem number_in_group_listed :
    ParameterServerClientBase.asked BookServer.bookServer BookServer.getters numberInGroup .info [] =
      DirectoryReplies.asked BookServer.bookServer BookServer.getters numberInGroup .info [] :=
  (lists_fit BookServer.bookServer BookServer.getters numberInGroup (by decide)).2.1 []
    (by decide) .info

end ReportBuffers
