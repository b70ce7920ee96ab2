import RcpFlext.DirectoryRuns
import RcpFlext.BookServer

/- What rcp.server replies to queries is read off the directory, so a reply depends on the
   messages alone. -/
namespace DirectoryReplies
open Atoms Datatypes ParameterTree PathLookup Reports Queries Contents Directories
open ServerDirectory DirectoryMessages DirectoryExpose DirectoryRuns

inductive Query where
  | info
  | id
  | type
  | readonly
  | order
  | value
  | min
  | max
  deriving DecidableEq

section
variable {S : Type} (rcp : Rcp S) (get : Queries.Getters S) (s : S)

def asked (q : Query) (argv : List Atom) : Option (List Out) :=
  match q with
  | .info => parameterInfo rcp get.toGetters s argv
  | .id => some (parameterId rcp s argv)
  | .type => parameterType rcp s argv
  | .readonly => parameterReadonly rcp get s argv
  | .order => parameterOrder rcp get s argv
  | .value => parameterValue rcp get s argv
  | .min => some (parameterMin rcp get s argv)
  | .max => some (parameterMax rcp get s argv)

/-- The two ways to read a limit agree, and only numbers have limits. -/
structure Agree : Prop where
  minimum : ∀ p ∈ rcp.parameters s, get.hasMinimum s p.ptr = true → Limits.IsNumber p ∧
    get.minimumI32 s p.ptr = get.minInt32 s p.ptr ∧ get.minimumF32 s p.ptr = get.minFloat s p.ptr
  maximum : ∀ p ∈ rcp.parameters s, get.hasMaximum s p.ptr = true → Limits.IsNumber p ∧
    get.maximumI32 s p.ptr = get.maxInt32 s p.ptr ∧ get.maximumF32 s p.ptr = get.maxFloat s p.ptr

end

def Query.word : Query → List Char
  | .info => ['i', 'n', 'f', 'o']
  | .id => ['i', 'd']
  | .type => ['t', 'y', 'p', 'e']
  | .readonly => ['r', 'e', 'a', 'd', 'o', 'n', 'l', 'y']
  | .order => ['o', 'r', 'd', 'e', 'r']
  | .value => ['v', 'a', 'l', 'u', 'e']
  | .min => ['m', 'i', 'n']
  | .max => ['m', 'a', 'x']

def valueAtom : Value → Atom
  | .boolean b => setBool b
  | .int32 v => .int v
  | .float32 w => .float w
  | .string t => .symbol t

/-- The value, where the type has one; none for a string that was never set. -/
def saidValue (e : Entry) : Option (List Atom) :=
  match e.type with
  | .boolean | .int32 | .float32 | .string => e.fields.value.map fun v => [valueAtom v]
  | _ => some []

def said (e : Entry) : Query → Option (List (List Atom))
  | .info => (saidValue e).map fun value =>
      [value ++ (e.fields.minimum.map valueAtom).toList ++ (e.fields.maximum.map valueAtom).toList ++
        [.int (e.id.signExtend 32), typeToString e.type]]
  | .id => some [[.int (e.id.signExtend 32)]]
  | .type => some [[typeToString e.type]]
  | .readonly => some [[.int (if e.fields.readonly then 1 else 0)]]
  | .order => some [[.int e.fields.order]]
  | .value => (saidValue e).map fun value => [value]
  | .min => some (e.fields.minimum.map fun v => [valueAtom v]).toList
  | .max => some (e.fields.maximum.map fun v => [valueAtom v]).toList

def labelsOf : List Atom → Option (List CString)
  | [] => some []
  | .symbol l :: argv => (labelsOf argv).map (l :: ·)
  | _ :: _ => none

def answer (d : ServerDirectory.Contents) (q : Query) (argv : List Atom) : Option (List Out) :=
  match (labelsOf argv).bind d with
  | some e => (said e q).map fun lists =>
      lists.map fun atoms => .list 3 ([symbol q.word] ++ argv ++ atoms)
  | none => some []

theorem labelsOf_iff (argv : List Atom) (labels : List CString) :
    labelsOf argv = some labels ↔ argv = labels.map .symbol := by
  induction argv generalizing labels with
  | nil => cases labels <;> simp [labelsOf]
  | cons a argv ih =>
    cases a with
    | symbol l =>
      rw [labelsOf, Option.map_eq_some_iff]
      cases labels with
      | nil => simp
      | cons m labels =>
        simp only [ih, List.map_cons, List.cons.injEq, Atom.symbol.injEq]
        constructor
        · rintro ⟨ls, eq, same, rest⟩
          exact ⟨same, rest ▸ eq⟩
        · rintro ⟨same, eq⟩
          exact ⟨labels, eq, same, rfl⟩
    | int | float | pointer => cases labels <;> simp [labelsOf]

section
variable {S : Type} {rcp : Rcp S} {get : Queries.Getters S} {s : S} {argv : List Atom}
  {p : Parameter}

theorem lookup_agrees (finds : rcp.Finds) (sound : Sound (rcp.parameters s))
    (clear : Clear (contents rcp get s) argv) :
    (labelsOf argv).bind (contents rcp get s) =
      (getParameter rcp s argv none).map (entryOf get s) := by
  cases found : getParameter rcp s argv none with
  | some p =>
    obtain ⟨labels, eq, path⟩ :=
      getParameter_clear finds.child (group_of_clear sound.unique clear) found
    rw [(labelsOf_iff argv labels).mpr eq]
    exact contents_at sound.unique path
  | none =>
    cases spelled : labelsOf argv with
    | none => rfl
    | some labels =>
      rw [Option.bind_some]
      cases here : contents rcp get s labels with
      | none => rfl
      | some e =>
        obtain ⟨p, path, _⟩ := (contents_iff sound.unique).mp here
        have there := InputDriven.getParameter_of_path finds sound.unique path
        rw [← (labelsOf_iff argv labels).mp spelled, found] at there
        contradiction

theorem saidValue_eq (p : Parameter) :
    saidValue (entryOf get s p) = valueAtoms get.toGetters s p := by
  unfold saidValue valueAtoms entryOf fieldsOf Contents.valueOf
  cases type : p.type <;> simp [valueAtom]
  cases get.valueString s p.ptr <;> rfl

theorem limits_eq (agree : Agree rcp get s) (inside : p ∈ rcp.parameters s) :
    ((entryOf get s p).fields.minimum.map valueAtom).toList ++
      ((entryOf get s p).fields.maximum.map valueAtom).toList = limitAtoms get.toGetters s p := by
  unfold entryOf fieldsOf limitOf limitAtoms
  have low := agree.minimum p inside
  have high := agree.maximum p inside
  cases type : p.type <;> cases min : get.hasMinimum s p.ptr <;>
    cases max : get.hasMaximum s p.ptr <;>
    simp_all [valueAtom]

theorem limitReply_eq {word : List Char} {has : S → Nat → Bool} {int32 : S → Nat → CInt}
    {float32 : S → Nat → Binary32.Word} (found : getParameter rcp s argv none = some p)
    (number : has s p.ptr = true → Limits.IsNumber p) :
    limitReply rcp s word has int32 float32 argv =
      ((limitOf s p has int32 float32).map fun v =>
        Out.list 3 ([symbol word] ++ argv ++ [valueAtom v])).toList := by
  simp only [limitReply, limitOf, found]
  by_cases there : has s p.ptr = true
  · rw [if_pos there, if_pos there]
    rcases number there with float | int
    · simp [float, valueAtom]
    · simp [int, valueAtom]
  · rw [if_neg there, if_neg there]
    rfl

theorem asked_answers (finds : rcp.Finds) (sound : Sound (rcp.parameters s))
    (agree : Agree rcp get s) (clear : Clear (contents rcp get s) argv) (some_atom : argv ≠ [])
    (q : Query) : asked rcp get s q argv = answer (contents rcp get s) q argv := by
  rw [answer, lookup_agrees finds sound clear]
  cases found : getParameter rcp s argv none with
  | none =>
    cases q <;>
      simp [asked, parameterInfo, parameterId, parameterType, parameterReadonly, parameterOrder,
        parameterValue, parameterMin, parameterMax, reply, limitReply, found, some_atom]
  | some p =>
    have inside := (named_byPath finds sound clear).1 p found
    cases q with
    | info =>
      have limits := limits_eq agree inside
      simp only [asked, parameterInfo, if_neg some_atom, found, Option.map_some, said, outputInfo,
        saidValue_eq]
      cases valueAtoms get.toGetters s p with
      | none => rfl
      | some value =>
        simp [limits.symm, Query.word, entryOf]
    | id => simp [asked, parameterId, found, said, Query.word, entryOf]
    | type => simp [asked, parameterType, reply, found, said, Query.word, entryOf]
    | readonly => simp [asked, parameterReadonly, reply, found, said, Query.word, entryOf, fieldsOf]
    | order => simp [asked, parameterOrder, reply, found, said, Query.word, entryOf, fieldsOf]
    | value =>
      simp only [asked, parameterValue, reply, found, Option.map_some, said, saidValue_eq]
      cases valueAtoms get.toGetters s p <;> rfl
    | min =>
      simp only [asked, parameterMin, Option.map_some, said, entryOf, fieldsOf,
        limitReply_eq found fun there => (agree.minimum p inside there).1]
      cases limitOf s p get.hasMinimum get.minInt32 get.minFloat <;> rfl
    | max =>
      simp only [asked, parameterMax, Option.map_some, said, entryOf, fieldsOf,
        limitReply_eq found fun there => (agree.maximum p inside there).1]
      cases limitOf s p get.hasMaximum get.maxInt32 get.maxFloat <;> rfl

end

theorem clear_iff (d : ServerDirectory.Contents) (path : List Atom) : Clear d path ↔
    ∀ way ∈ path.inits, way ≠ path →
      ((labelsOf way).bind d).all (fun e => e.type = .group) = true := by
  simp only [List.mem_inits, Option.all_eq_true, decide_eq_true_eq, Option.bind_eq_some_iff,
    labelsOf_iff]
  constructor
  · rintro clear way prefixed part e ⟨labels, eq, here⟩
    subst eq
    exact clear labels e prefixed part here
  · intro clear labels e prefixed part here
    exact clear _ prefixed part e ⟨labels, rfl, here⟩

instance (d : ServerDirectory.Contents) (path : List Atom) : Decidable (Clear d path) :=
  decidable_of_iff _ (clear_iff d path).symm

/-- From an empty server, whatever is exposed, set, driven and removed, the contents are what
    the directory's operations make of the messages, labels and ids stay unique, and every
    query is answered from the contents. -/
theorem server_is_directory {S : Type} {rcp : Rcp S} {get : Queries.Getters S}
    {perform : S → Call → S} (lib : Library rcp get perform) (s : S)
    (empty : rcp.parameters s = []) (ms : List Message) (t : S)
    (ran : Runs.run (step rcp perform) s ms = some t)
    (plain : Runs.Steps (step rcp perform) (Plain rcp get) s ms) :
    Acts Directories.empty ms (contents rcp get t) ∧ Sound (rcp.parameters t) ∧
      ∀ q argv, argv ≠ [] → Agree rcp get t → Clear (contents rcp get t) argv →
        asked rcp get t q argv = answer (contents rcp get t) q argv := by
  obtain ⟨sound, acts⟩ := run_acts lib (sound_empty empty) plain ran
  rw [contents_empty empty] at acts
  exact ⟨acts, sound, fun q argv some_atom agree clear =>
    asked_answers lib.finds sound agree clear some_atom q⟩

/- A value that was sent is read back until a message names its entry again. -/

/-- No message is for the entry by its path or its id. -/
def Unnamed (labels : List CString) (e : Entry) (argv : List Atom) : Prop :=
  argv.dropLast ≠ labels.map .symbol ∧
    ∀ a ∈ argv.head?, canbeInt a = true → e.id ≠ (getAInt a 0).setWidth 16

/-- The message neither drives the entry nor removes it or a group above it. -/
def Spares (d : ServerDirectory.Contents) (labels : List CString) (e : Entry) : Message → Prop
  | .removeId id => ¬ HitOn (byId (id.setWidth 16)) d labels
  | .remove argv => ¬ HitOn (byPath argv) d labels
  | .list argv => Unnamed labels e argv
  | .anything sym argv => Unnamed labels e (.symbol sym :: argv)
  | _ => True

instance (labels : List CString) (e : Entry) (argv : List Atom) :
    Decidable (Unnamed labels e argv) :=
  match argv with
  | [] => decidable_of_iff ([] ≠ labels.map Atom.symbol) (by simp [Unnamed])
  | a :: rest =>
    decidable_of_iff ((a :: rest).dropLast ≠ labels.map Atom.symbol ∧
      (canbeInt a = true → e.id ≠ (getAInt a 0).setWidth 16)) (by simp [Unnamed])

instance (d : ServerDirectory.Contents) (labels : List CString) (e : Entry) :
    (m : Message) → Decidable (Spares d labels e m)
  | .removeId _ | .remove _ => inferInstanceAs (Decidable (¬ _))
  | .list _ | .anything _ _ => inferInstanceAs (Decidable (Unnamed _ _ _))
  | .expose _ | .setreadonly _ | .setorder _ | .setmin _ | .setmax _ | .setminmax _ => isTrue trivial

def SameValue (e e' : Entry) : Prop :=
  e'.type = e.type ∧ e'.id = e.id ∧ e'.fields.value = e.fields.value

section
variable {d : ServerDirectory.Contents} {labels : List CString} {e : Entry}

theorem amend_sameValue {hit : List CString → Entry → Prop} [∀ q e, Decidable (hit q e)]
    {f : Entry → Entry} (keeps : ∀ e, SameValue e (f e)) (there : d labels = some e) :
    ∃ e', amend hit f d labels = some e' ∧ SameValue e e' := by
  by_cases hits : hit labels e
  · exact ⟨f e, amend_of_hit there hits, keeps e⟩
  · refine ⟨e, (amend_of_miss ?_).trans there, rfl, rfl, rfl⟩
    intro other here
    rw [there] at here
    cases here
    exact hits

theorem amendLast_sameValue {argv : List Atom} {accepts : Atom → Bool} {f : Atom → Entry → Entry}
    (keeps : ∀ a e, SameValue e (f a e)) (there : d labels = some e) :
    ∃ e', amendLast argv accepts f d labels = some e' ∧ SameValue e e' := by
  unfold amendLast
  cases argv.getLast? with
  | none => exact ⟨e, there, rfl, rfl, rfl⟩
  | some a =>
    simp only
    split
    · exact amend_sameValue (keeps a) there
    · exact ⟨e, there, rfl, rfl, rfl⟩

theorem setMin_sameValue (a : Atom) (e : Entry) : SameValue e (Entry.setMin a e) := by
  unfold Entry.setMin
  split <;> exact ⟨rfl, rfl, rfl⟩

theorem setMax_sameValue (a : Atom) (e : Entry) : SameValue e (Entry.setMax a e) := by
  unfold Entry.setMax
  split <;> exact ⟨rfl, rfl, rfl⟩

theorem driveLast_unnamed {argv : List Atom} (unnamed : Unnamed labels e argv)
    (there : d labels = some e) : driveLast argv d labels = some e := by
  have only (other : Entry) (here : d labels = some other) : other = e :=
    Option.some.inj (here.symm.trans there)
  unfold driveLast
  split
  · exact there
  · rename_i a rest
    split
    · rename_i number
      simp only
      split
      · exact there
      · rw [amend_of_miss, there]
        intro other here same
        rw [only other here] at same
        exact unnamed.2 a rfl number same
    · split
      · unfold amendLast
        cases (a :: rest).getLast? with
        | none => exact there
        | some v =>
          simp only [↓reduceIte]
          rw [amend_of_miss, there]
          intro other _ same
          exact unnamed.1 same
      · exact there

theorem act_spares {ids : List CString → BitVec 16} {m : Message} (there : d labels = some e)
    (spared : Spares d labels e m) : ∃ e', act ids d m labels = some e' ∧ SameValue e e' := by
  have still {d' : ServerDirectory.Contents} (here : d' labels = some e) :
      ∃ e', d' labels = some e' ∧ SameValue e e' := ⟨e, here, rfl, rfl, rfl⟩
  cases m with
  | expose argv =>
    simp only [act]
    cases Expose.readRequest argv with
    | error call => exact still there
    | ok request =>
      have filled := @fill_keeps _ _ _ (fun q => Entry.group (ids q)) d labels e [] 
        ((request.first :: request.rest).map getAsString).dropLast there
      unfold exposeAt
      simp only
      split
      · exact still filled
      · rename_i free
        apply still
        rw [put_elsewhere]
        · exact filled
        · intro same
          rw [same] at filled
          exact free (.inr (by rw [filled, Option.isSome_some]))
  | removeId id => exact still ((prune_of_miss spared).trans there)
  | remove argv => exact still ((prune_of_miss spared).trans there)
  | setreadonly argv => exact amendLast_sameValue (fun _ _ => ⟨rfl, rfl, rfl⟩) there
  | setorder argv => exact amendLast_sameValue (fun _ _ => ⟨rfl, rfl, rfl⟩) there
  | setmin argv => exact amendLast_sameValue setMin_sameValue there
  | setmax argv => exact amendLast_sameValue setMax_sameValue there
  | setminmax argv =>
    simp only [act]
    cases argv.getLast? with
    | none => exact still there
    | some high =>
      simp only
      split
      · refine amendLast_sameValue ?_ there
        intro low e
        obtain ⟨type, id, value⟩ := setMin_sameValue low e
        obtain ⟨type', id', value'⟩ := setMax_sameValue high (Entry.setMin low e)
        exact ⟨type'.trans type, id'.trans id, value'.trans value⟩
      · exact still there
  | list argv => exact still (driveLast_unnamed spared there)
  | anything sym argv => exact still (driveLast_unnamed spared there)

end

inductive Sends (a : Atom) : List CString → Message → Prop
  | list (labels : List CString) : Sends a labels (.list (labels.map .symbol ++ [a]))
  | anything (sym : CString) (labels : List CString) :
      Sends a (sym :: labels) (.anything sym (labels.map .symbol ++ [a]))

section
variable {S : Type} {rcp : Rcp S} {get : Queries.Getters S} {perform : S → Call → S}
  {s t : S} {labels : List CString} {e : Entry}

theorem clear_of_entry (sound : Sound (rcp.parameters s))
    (there : contents rcp get s labels = some e) :
    Clear (contents rcp get s) (labels.map .symbol) := by
  obtain ⟨p, path, _⟩ := (contents_iff sound.unique).mp there
  intro way other prefixed part here
  obtain ⟨q, at_way, eq⟩ := (contents_iff sound.unique).mp here
  subst eq
  obtain ⟨rest, split⟩ := prefixed
  obtain ⟨front, more, eq, same, _⟩ := List.map_eq_append_iff.mp split.symm
  have whole : front = way := List.map_injective_iff.mpr (fun _ _ => Atom.symbol.inj) same
  subst whole
  have apart : front ≠ labels := fun same => part (congrArg (List.map Atom.symbol) same)
  obtain ⟨r, above, same | group⟩ := labelPath_above path ⟨more, eq.symm⟩ (labelPath_ne_nil at_way)
  · exact absurd same apart
  · rw [labelPath_same sound.unique at_way above]
    exact of_decide_eq_true group

/-- What is spared keeps its value over a run. -/
theorem spared_run (lib : Library rcp get perform) (sound : Sound (rcp.parameters s))
    {ms : List Message} (plain : Runs.Steps (step rcp perform) (Plain rcp get) s ms)
    (there : contents rcp get s labels = some e)
    (spared : Runs.Steps (step rcp perform)
      (fun s m => ∀ e' ∈ contents rcp get s labels, Spares (contents rcp get s) labels e' m) s ms)
    (ran : Runs.run (step rcp perform) s ms = some t) :
    ∃ e', contents rcp get t labels = some e' ∧ SameValue e e' := by
  induction ms generalizing s e with
  | nil =>
    cases ran
    exact ⟨e, there, rfl, rfl, rfl⟩
  | cons m ms ih =>
    obtain ⟨next, stepped, rest⟩ := Option.bind_eq_some_iff.mp ran
    obtain ⟨now, later⟩ := plain next stepped
    obtain ⟨spares, others⟩ := spared next stepped
    obtain ⟨sound', acted⟩ := step_acts lib sound now stepped
    obtain ⟨e', here, type, id, value⟩ := act_spares there (spares e there)
    rw [← acted] at here
    obtain ⟨e'', final, type', id', value'⟩ := ih sound' later here others rest
    exact ⟨e'', final, type'.trans type, id'.trans id, value'.trans value⟩

theorem sent_value {d : ServerDirectory.Contents} {m : Message} {a : Atom} {v : Value}
    {ids : List CString → BitVec 16} (sends : Sends a labels m) (some_label : labels ≠ [])
    (there : d labels = some e) (worth : Input.valueOf e.type a = some v) :
    act ids d m labels = some { e with fields.value := some v } := by
  have driven : Entry.drive a e = { e with fields.value := some v } := by
    rw [Entry.drive, worth]
  have named {sym : CString} {rest : List CString} (eq : labels = sym :: rest) :
      driveLast (.symbol sym :: (rest.map .symbol ++ [a])) d labels =
        some { e with fields.value := some v } := by
    rw [driveLast_symbol, amend_of_hit there, driven]
    rw [eq]
    rfl
  cases sends with
  | list =>
    obtain ⟨sym, rest, eq⟩ := List.exists_cons_of_ne_nil some_label
    have spelled : labels.map Atom.symbol ++ [a] = .symbol sym :: (rest.map .symbol ++ [a]) := by
      rw [eq]
      rfl
    rw [act, spelled]
    exact named eq
  | anything sym rest => exact named rfl

end

/-- In any run, once a value that fits has been sent to an entry, the reply to `value` is that
    value, whatever else is exposed, set, removed and driven, until a message drives that
    entry or takes it away. -/
theorem value_reads_back {S : Type} {rcp : Rcp S} {get : Queries.Getters S}
    {perform : S → Call → S} (lib : Library rcp get perform) (s : S)
    (empty : rcp.parameters s = []) (before : List Message) (u : S)
    (ran : Runs.run (step rcp perform) s before = some u)
    (plain : Runs.Steps (step rcp perform) (Plain rcp get) s before) (labels : List CString)
    (e : Entry) (there : contents rcp get u labels = some e) (a : Atom) (v : Value)
    (worth : Input.valueOf e.type a = some v) (m : Message) (sends : Sends a labels m)
    (after : List Message) (w t : S) (calls : List Call)
    (sent : step rcp perform u m = some (w, calls))
    (later : Runs.run (step rcp perform) w after = some t)
    (plain_later : Runs.Steps (step rcp perform) (Plain rcp get) u (m :: after))
    (spared : Runs.Steps (step rcp perform)
      (fun s m => ∀ e' ∈ contents rcp get s labels, Spares (contents rcp get s) labels e' m)
      w after) (agree : Agree rcp get t) :
    asked rcp get t .value (labels.map .symbol) =
      some [.list 3 ([symbol ['v', 'a', 'l', 'u', 'e']] ++ labels.map .symbol ++ [valueAtom v])] := by
  obtain ⟨sound, _⟩ := run_acts lib (sound_empty empty) plain ran
  obtain ⟨now, rest⟩ := plain_later _ sent
  obtain ⟨sound', acted⟩ := step_acts lib sound now sent
  have some_label : labels ≠ [] := by
    intro root
    rw [root] at there
    contradiction
  have held : contents rcp get w labels = some { e with fields.value := some v } := by
    rw [acted]
    exact sent_value sends some_label there worth
  obtain ⟨e', final, type, _, value⟩ := spared_run lib sound' rest held spared later
  have sound'' := (run_acts lib sound' rest later).1
  rw [asked_answers lib.finds sound'' agree (clear_of_entry sound'' final) (by simpa using some_label),
    answer, (labelsOf_iff _ labels).mpr rfl, Option.bind_some, final]
  have told : saidValue e' = some [valueAtom v] := by
    have own : e'.type = valueType v := type.trans (valueOf_suits worth).symm
    rw [saidValue, own, value]
    cases v <;> rfl
  simp only [said, told]
  rfl

open ListManager BookServer

def maxNine : List Atom := [.symbol (.ofBytes (text ['@', 'm', 'a', 'x'])), .int 9]

def prepared : List Message :=
  [.expose ([Expose.letterF, .symbol nameA, .symbol nameB] ++ maxNine),
    .setorder [.symbol nameA, .symbol nameB, .int 3]]

theorem prepared_plain :
    Runs.Steps (step bookServer perform) (Plain bookServer getters) emptyBook prepared := by
  intro next stepped
  cases stepped
  refine ⟨?_, ?_⟩
  · intro request read
    cases read
    exact ⟨by decide, by decide, ⟨Option.some_ne_none _, trivial⟩,
      fun _ _ => Option.some_ne_none _⟩
  intro next stepped
  cases stepped
  refine ⟨?_, trivial⟩
  show Clear _ _
  decide

theorem prepared_replies : ∃ t, Runs.run (step bookServer perform) emptyBook prepared = some t ∧
    asked bookServer getters t .info [.symbol nameA, .symbol nameB] =
      some [.list 3 [symbol ['i', 'n', 'f', 'o'], .symbol nameA, .symbol nameB, .float 0,
        .float (Binary32.ofInt 9), .int 2, typeToString .float32]] := by
  obtain ⟨t, ran⟩ : ∃ t, Runs.run (step bookServer perform) emptyBook prepared = some t := ⟨_, rfl⟩
  obtain ⟨_, _, replies⟩ :=
    server_is_directory book_library emptyBook rfl prepared t ran prepared_plain
  refine ⟨t, ran, ?_⟩
  cases ran
  rw [replies .info [.symbol nameA, .symbol nameB] (by simp) ⟨by decide, by decide⟩ (by decide)]
  rfl

def traffic : List Message := [.expose [Expose.letterF, .symbol nameB], .list [.symbol nameB, .int 7]]

theorem five_read_back : ∃ t,
    Runs.run (step bookServer perform) emptyBook
      (prepared ++ .anything nameA [.symbol nameB, .int 5] :: traffic) = some t ∧
    asked bookServer getters t .value [.symbol nameA, .symbol nameB] =
      some [.list 3 [symbol ['v', 'a', 'l', 'u', 'e'], .symbol nameA, .symbol nameB,
        .float (Binary32.ofInt 5)]] := by
  obtain ⟨u, ran⟩ : ∃ u, Runs.run (step bookServer perform) emptyBook prepared = some u := ⟨_, rfl⟩
  obtain ⟨w, sent⟩ : ∃ w, step bookServer perform u (.anything nameA [.symbol nameB, .int 5]) =
      some w := by
    cases ran
    exact ⟨_, rfl⟩
  obtain ⟨t, later⟩ : ∃ t, Runs.run (step bookServer perform) w.1 traffic = some t := by
    cases ran
    cases sent
    exact ⟨_, rfl⟩
  refine ⟨t, ?_, ?_⟩
  · rw [Runs.run_append, ran, Option.bind_some, Runs.run, sent]
    exact later
  refine value_reads_back book_library emptyBook rfl prepared u ran prepared_plain [nameA, nameB]
    ((contents bookServer getters u [nameA, nameB]).getD (Entry.group 0)) ?_ (.int 5)
    (.float32 (Binary32.ofInt 5)) ?_ _ (.anything nameA [nameB]) traffic w.1 t w.2 sent later ?_ ?_ ?_
  · cases ran
    rfl
  · cases ran
    rfl
  · cases ran
    intro next stepped
    cases stepped
    refine ⟨by show Clear _ _; decide, ?_⟩
    intro next stepped
    cases stepped
    refine ⟨?_, ?_⟩
    · intro request read
      cases read
      exact ⟨by decide, by decide, trivial, fun _ _ => Option.some_ne_none _⟩
    intro next stepped
    cases stepped
    refine ⟨⟨by simp, by decide⟩, trivial⟩
  · cases ran
    cases sent
    intro next stepped
    cases stepped
    refine ⟨fun _ _ => trivial, ?_⟩
    intro next stepped
    refine ⟨?_, trivial⟩
    intro e there
    cases there
    show Unnamed _ _ _
    decide
  · cases ran
    cases sent
    cases later
    exact ⟨by decide, by decide⟩

end DirectoryReplies
