import RcpFlext.DirectoryMessages

/- `expose` on a directory: the groups that are missing and then the parameter, under the
   labels of the message and with its options. -/
namespace DirectoryExpose
open Atoms Datatypes ParameterTree PathLookup Expose Contents Directories ServerDirectory

def idsOf (d : ServerDirectory.Contents) (q : List CString) : BitVec 16 := ((d q).map (·.id)).getD 0

variable {S : Type} {rcp : Rcp S} {get : Queries.Getters S} {perform : S → Call → S}

/-- What `createGroups` has done with a path: the groups are filled in, with any ids that
    agree with the ids there are now. -/
structure Grouped (rcp : Rcp S) (get : Queries.Getters S) (s : S) (above labels : List CString)
    (groups : Groups S) : Prop where
  sound : Sound (rcp.parameters groups.server)
  quiet : groups.calls = []
  label : groups.label = labels.getLastD .empty
  place : Place (rcp.parameters groups.server) (above ++ labels.dropLast) groups.group
  filled : ∀ ids : List CString → BitVec 16,
    (∀ q e, contents rcp get groups.server q = some e → ids q = e.id) →
    contents rcp get groups.server =
      fill (fun q => Entry.group (ids q)) (contents rcp get s) above labels.dropLast

section
variable {s : S} {g : Option Nat} {above : List CString}

theorem fieldsOf_group {p : Parameter} (group : p.type = .group)
    (unset : { fieldsOf get s p with value := none } = blank) :
    entryOf get s p = Entry.group p.id := by
  have no_value : (fieldsOf get s p).value = none := by simp [fieldsOf, Contents.valueOf, group]
  rw [← no_value] at unset
  rw [entryOf, group, Entry.group, ← unset]

theorem group_made (lib : Library rcp get perform) (sound : Sound (rcp.parameters s))
    (place : Place (rcp.parameters s) above g) {l : CString}
    (free : contents rcp get s (above ++ [l]) = none) {next : S} {ptr : Nat}
    (made : rcp.serverCreateGroup s l g = (next, some ptr)) :
    ∃ id, Sound (rcp.parameters next) ∧ Place (rcp.parameters next) (above ++ [l]) (some ptr) ∧
      contents rcp get next = put (contents rcp get s) (above ++ [l]) (Entry.group id) := by
  obtain ⟨id, adds⟩ := lib.makes.group _ _ _ _ _ made
  have grown := contents_adds sound adds rfl place free
  rw [fieldsOf_group rfl adds.unset] at grown
  have path : LabelPath (rcp.parameters next) none (above ++ [l])
      ⟨ptr, id, .group, some l, g⟩ :=
    (labelPath_grown adds.grown rfl).mpr (.inr ⟨rfl, above, rfl, place⟩)
  exact ⟨id, sound_adds sound adds rfl place free, .inr ⟨_, path, rfl, rfl⟩, grown⟩

theorem grouped_behind {next : S} {groups : Groups S} {l b : CString} {labels : List CString}
    (grouped : Grouped rcp get next (above ++ [l]) (b :: labels) groups)
    (ensured : ∀ ids : List CString → BitVec 16,
      (∀ q e, contents rcp get groups.server q = some e → ids q = e.id) →
      ensure (fun q => Entry.group (ids q)) (contents rcp get s) (above ++ [l]) =
        contents rcp get next) :
    Grouped rcp get s above (l :: b :: labels) groups := by
  refine ⟨grouped.sound, grouped.quiet, grouped.label, ?_, ?_⟩
  · have place := grouped.place
    rwa [List.append_assoc] at place
  · intro ids agree
    rw [grouped.filled ids agree]
    exact congrArg (fill _ · _ _) (ensured ids agree).symm

theorem createGroups_grouped (lib : Library rcp get perform) (a : Atom) (rest : List Atom)
    (sound : Sound (rcp.parameters s)) (place : Place (rcp.parameters s) above g)
    (symbols : ∀ b ∈ (a :: rest).dropLast, isString b = true)
    (clear : ∀ ls e, ls ≠ [] → ls <+: ((a :: rest).map getAsString).dropLast →
      contents rcp get s (above ++ ls) = some e → e.type = .group)
    (all : ExposeWhole.GroupsMade rcp s g a rest) :
    Grouped rcp get s above ((a :: rest).map getAsString) (createGroups rcp s g a rest) := by
  induction rest generalizing s g a above with
  | nil => exact ⟨sound, rfl, rfl, by simpa [createGroups] using place, fun _ _ => rfl⟩
  | cons b rest ih =>
    let l := getAsString a
    have string : isString a = true := symbols a (.head _)
    have later_symbols : ∀ c ∈ (b :: rest).dropLast, isString c = true :=
      fun c among => symbols c (.tail _ among)
    have later_clear (ls e) (way : ls <+: ((b :: rest).map getAsString).dropLast)
        (here : contents rcp get s (above ++ [l] ++ ls) = some e) : e.type = .group := by
      rw [List.append_assoc] at here
      exact clear (l :: ls) e (by simp) ((List.cons_prefix_cons).mpr ⟨rfl, way⟩) here
    cases found : rcp.serverFindGroup s l g with
    | some group =>
      obtain ⟨child, isGroup⟩ := lib.finds.group s l g group found
      have path := place_child place child
      have there := @contents_at S rcp get s _ _ sound.unique path
      have grouped := ih b sound (.inr ⟨group, path, isGroup, rfl⟩) later_symbols
        (fun ls e _ => later_clear ls e) ((ExposeWhole.groupsMade_found found).mp all)
      rw [createGroups_found string found]
      exact grouped_behind grouped fun _ _ => ensure_old there
    | none =>
      cases made : rcp.serverCreateGroup s l g with
      | mk next group =>
        obtain ⟨some_group, later⟩ := (ExposeWhole.groupsMade_made found made).mp all
        obtain ⟨ptr, eq⟩ := Option.ne_none_iff_exists'.mp some_group
        subst eq
        have free : contents rcp get s (above ++ [l]) = none := by
          cases here : contents rcp get s (above ++ [l]) with
          | none => rfl
          | some e =>
            have type := clear [l] e (by simp) ⟨_, rfl⟩ here
            obtain ⟨p, path, eq⟩ := (contents_iff sound.unique).mp here
            subst eq
            have child := child_of_place sound.unique place path
            exact absurd found (lib.finds.every_group s l g p child (decide_eq_true type))
        obtain ⟨id, sound', at_group, grown⟩ := group_made lib sound place free made
        have grouped := ih b sound' at_group later_symbols
          (by
            intro ls e some_label way here
            have apart : above ++ [l] ++ ls ≠ above ++ [l] := by simpa using some_label
            rw [grown, put_elsewhere apart] at here
            exact later_clear ls e way here)
          later
        rw [createGroups_made string found made]
        refine grouped_behind grouped fun ids agree => ?_
        have there : contents rcp get next (above ++ [l]) = some (Entry.group id) := by
          rw [grown, put_here]
        have own : ids (above ++ [l]) = id := by
          refine agree (above ++ [l]) (Entry.group id) ?_
          rw [grouped.filled ids agree]
          exact fill_keeps _ there
        rw [ensure_new free, grown, own]

theorem Grouped.label_last {labels : List CString} {groups : Groups S}
    (grouped : Grouped rcp get s above labels groups) (some_label : labels ≠ []) :
    labels = labels.dropLast ++ [groups.label] := by
  have last : labels.getLast some_label = groups.label := by
    rw [grouped.label, List.getLastD_eq_getLast?, List.getLast?_eq_some_getLast some_label]
    rfl
  rw [← last, List.dropLast_append_getLast]

theorem readRequest_type {argv : List Atom} {request : Request}
    (read : readRequest argv = .ok request) : request.type ≠ .invalid ∧ request.type ≠ .group ∧
      request.type ≠ .other := by
  unfold readRequest at read
  split at read
  · split at read
    · contradiction
    · split at read
      · contradiction
      · rename_i type _ _ _ valid
        cases read
        refine ⟨valid, ?_, ?_⟩
        all_goals
          unfold typeOfName
          repeat' split
          all_goals simp
  · contradiction

theorem scanOptions_quiet (found : Scan) (i : Nat) (rest : List Atom)
    (quiet : ∀ c ∈ found.calls, Quiet c) : ∀ c ∈ (scanOptions found i rest).calls, Quiet c := by
  have complains {calls : List Call} {format : String} (before : ∀ c ∈ calls, Quiet c) :
      ∀ c ∈ calls ++ [.error format []], Quiet c :=
    List.forall_mem_append.mpr ⟨before, List.forall_mem_singleton.mpr trivial⟩
  have takes (found : Scan) (v : Atom) (before : ∀ c ∈ found.calls, Quiet c) :
      (∀ c ∈ (found.setMin v).calls, Quiet c) ∧ (∀ c ∈ (found.setMax v).calls, Quiet c) ∧
        ∀ c ∈ (found.setOrder v).calls, Quiet c := by
    refine ⟨?_, ?_, ?_⟩
    · unfold Scan.setMin
      split
      · exact before
      · exact complains before
    · unfold Scan.setMax
      split
      · exact before
      · exact complains before
    · unfold Scan.setOrder
      split
      · exact before
      · exact complains before
  fun_induction scanOptions found i rest with
  | case1 | case2 | case4 | case6 => exact quiet
  | case3 =>
    rename_i ih
    exact ih (takes _ _ (by exact quiet)).1
  | case5 =>
    rename_i ih
    exact ih (takes _ _ (by exact quiet)).2.1
  | case7 =>
    rename_i ih
    exact ih (takes _ _ (by exact quiet)).2.2
  | case8 | case9 | case10 =>
    rename_i ih
    exact ih quiet

theorem readRequest_quiet {argv : List Atom} {request : Request}
    (read : readRequest argv = .ok request) : ∀ c ∈ request.calls, Quiet c := by
  unfold readRequest at read
  split at read
  · split at read
    · contradiction
    · split at read
      · contradiction
      · cases read
        exact scanOptions_quiet _ _ _ (by simp)
  · contradiction

theorem readRequest_error {argv : List Atom} {call : Call}
    (read : readRequest argv = .error call) : Quiet call := by
  unfold readRequest at read
  split at read
  · split at read
    · cases read
      trivial
    · split at read
      · cases read
        trivial
      · contradiction
  · cases read
    trivial

theorem setup_fresh (type : Datatype) (id : BitVec 16) (ptr : Nat) (options : Options)
    (known : type ≠ .invalid ∧ type ≠ .group ∧ type ≠ .other) (f : Fields)
    (unset : { f with value := none } = blank) (bang : type = .bang → f.value = none) :
    (setupParameter type ptr options).foldl (changed ptr) f =
      (Entry.fresh type id options).fields := by
  obtain ⟨value, minimum, maximum, order, readonly⟩ := f
  obtain ⟨min, max, ro, ord⟩ := options
  cases unset
  have late (f : Fields) : (orderAndReadonly ptr ⟨min, max, ro, ord⟩).foldl (changed ptr) f =
      { f with order := ord.getD f.order, readonly := ro.getD f.readonly } := by
    cases ord <;> cases ro <;> simp [orderAndReadonly, changed]
  cases type with
  | invalid => exact absurd rfl known.1
  | group => exact absurd rfl known.2.1
  | other => exact absurd rfl known.2.2
  | float32 | int32 =>
    cases min <;> cases max <;>
      simp [setupParameter, late, changed, Entry.fresh, limit, ServerDirectory.default, getAFloat, getAInt]
  | boolean | string => simp [setupParameter, late, changed, Entry.fresh, limit, ServerDirectory.default]
  | bang =>
    have no_value : value = none := bang rfl
    simp [setupParameter, late, changed, Entry.fresh, limit, ServerDirectory.default, no_value]

theorem symbols_eq {atoms : List Atom} (symbols : ∀ a ∈ atoms, isString a = true) :
    (atoms.map getAsString).map .symbol = atoms := by
  induction atoms with
  | nil => rfl
  | cons a atoms ih =>
    have here := symbols a (.head _)
    rw [List.map_cons, List.map_cons, ih fun b later => symbols b (.tail _ later)]
    cases a with
    | symbol => rfl
    | int | float | pointer => contradiction

theorem clear_groups {path : List Atom} (symbols : ∀ a ∈ path.dropLast, isString a = true)
    (clear : Clear (contents rcp get s) path) (some_atom : path ≠ []) (ls : List CString) (e : Entry)
    (way : ls <+: (path.map getAsString).dropLast) (here : contents rcp get s ls = some e) :
    e.type = .group := by
  have front : (path.map getAsString).dropLast.map Atom.symbol = path.dropLast := by
    rw [← List.map_dropLast, symbols_eq symbols]
  have shorter : ls.map Atom.symbol <+: path.dropLast := front ▸ way.map Atom.symbol
  refine clear ls e (shorter.trans (List.dropLast_prefix path)) ?_ here
  intro whole
  have fewer := shorter.length_le
  have positive := List.length_pos_iff.mpr some_atom
  rw [whole, List.length_dropLast] at fewer
  omega

theorem exposeAt_grouped {request : Request} {groups : Groups S} {d : ServerDirectory.Contents}
    (grouped : Grouped rcp get s [] ((request.first :: request.rest).map getAsString) groups)
    (same : d = contents rcp get groups.server)
    (ended : groups.label.isEmpty = true ∨
      (contents rcp get groups.server ((request.first :: request.rest).map getAsString)).isSome) :
    d = exposeAt (idsOf d) request (contents rcp get s) := by
  subst same
  have agree (q) (e) (here : contents rcp get groups.server q = some e) :
      idsOf (contents rcp get groups.server) q = e.id := by
    rw [idsOf, here]
    rfl
  have filled := grouped.filled _ agree
  have label := grouped.label
  rw [exposeAt, ← filled, ← label]
  exact (if_pos ended).symm

theorem setup_concerns {p : Parameter} (options : Options) :
    ∀ c ∈ setupParameter p.type p.ptr options, Concerns p.ptr c ∧ Suits p c := by
  have late : ∀ c ∈ orderAndReadonly p.ptr options, Concerns p.ptr c ∧ Suits p c := by
    intro c among
    rcases List.mem_append.mp among with order | readonly
    · obtain ⟨v, _, eq⟩ := Option.map_eq_some_iff.mp (Option.mem_toList.mp order)
      exact eq ▸ ⟨rfl, trivial⟩
    · obtain ⟨v, _, eq⟩ := Option.map_eq_some_iff.mp (Option.mem_toList.mp readonly)
      exact eq ▸ ⟨rfl, trivial⟩
  have bound {set : Binary32.Word → Call} (all : ∀ w, Concerns p.ptr (set w) ∧ Suits p (set w))
      (given : Option Binary32.Word) :
      ∀ c ∈ (given.map set).toList, Concerns p.ptr c ∧ Suits p c := by
    intro c among
    obtain ⟨w, _, eq⟩ := Option.map_eq_some_iff.mp (Option.mem_toList.mp among)
    exact eq ▸ all w
  cases type : p.type with
  | invalid | group | other => exact concern_nil
  | float32 =>
    refine concern_cons trivial trivial (List.forall_mem_append.mpr
      ⟨List.forall_mem_append.mpr ⟨List.forall_mem_append.mpr ⟨bound ?_ _, bound ?_ _⟩, late⟩,
        concern_cons rfl (fun _ => type.symm) concern_nil⟩)
    all_goals exact fun w => ⟨rfl, fun _ => congrArg some type.symm⟩
  | int32 =>
    refine concern_cons trivial trivial (List.forall_mem_append.mpr
      ⟨List.forall_mem_append.mpr ⟨List.forall_mem_append.mpr ⟨bound ?_ _, bound ?_ _⟩, late⟩,
        concern_cons rfl (fun _ => type.symm) concern_nil⟩)
    all_goals exact fun w => ⟨rfl, fun _ => congrArg some type.symm⟩
  | boolean | string =>
    exact concern_cons trivial trivial (List.forall_mem_append.mpr
      ⟨late, concern_cons rfl (fun _ => type.symm) concern_nil⟩)
  | bang => exact List.forall_mem_append.mpr ⟨late, concern_cons trivial trivial concern_nil⟩

theorem exposeAt_new {ids : List CString → BitVec 16} {request : Request}
    {d c : ServerDirectory.Contents} {labels : List CString}
    (path : labels = (request.first :: request.rest).map getAsString)
    (filled : fill (fun q => Entry.group (ids q)) d [] labels.dropLast = c)
    (some_label : (labels.getLastD .empty).isEmpty = false) (free : c labels = none) :
    exposeAt ids request d = put c labels (Entry.fresh request.type (ids labels) request.options) := by
  subst path
  rw [exposeAt, filled, if_neg]
  rw [some_label, free]
  simp

theorem free_of_unfound {g : Option Nat} {above : List CString} {l : CString}
    (lib : Library rcp get perform) (sound : Sound (rcp.parameters s))
    (place : Place (rcp.parameters s) above g) (unfound : rcp.managerFindParameter s l g = none) :
    contents rcp get s (above ++ [l]) = none := by
  cases here : contents rcp get s (above ++ [l]) with
  | none => rfl
  | some e =>
    obtain ⟨p, at_path, _⟩ := (contents_iff sound.unique).mp here
    exact absurd unfound (lib.finds.every s l g p (child_of_place sound.unique place at_path))

theorem named_at (sound : Sound (rcp.parameters s)) {labels : List CString} {new : Parameter}
    (at_new : LabelPath (rcp.parameters s) none labels new) :
    Named rcp get s (fun q _ => q = labels) (some new) := by
  constructor
  · intro p same
    cases same
    exact labelPath_inside at_new
  · intro q p at_path
    constructor
    · intro same
      subst same
      exact congrArg some (labelPath_same sound.unique at_new at_path)
    · intro same
      cases same
      exact path_unique sound.toTree at_path at_new

/-- Where a parameter is made, it is the one asked for. -/
theorem created_contents (lib : Library rcp get perform) {request : Request} {groups : Groups S}
    {labels : List CString} (path : labels = (request.first :: request.rest).map getAsString)
    (grouped : Grouped rcp get s [] labels groups) (path_eq : labels = labels.dropLast ++ [groups.label])
    (known : request.type ≠ .invalid ∧ request.type ≠ .group ∧ request.type ≠ .other)
    (quiet : ∀ c ∈ request.calls, Quiet c) (some_label : groups.label.isEmpty = false)
    (unfound : rcp.managerFindParameter groups.server groups.label groups.group = none)
    {next : S} {ptr : Nat} (made : rcp.serverExpose groups.server request.type groups.label
      groups.group = (next, some ptr)) {t : S}
    (done : (request.calls ++ (setupParameter request.type ptr request.options ++
      [Call.serverUpdate])).foldl perform next = t) :
    Sound (rcp.parameters t) ∧
      contents rcp get t = exposeAt (idsOf (contents rcp get t)) request (contents rcp get s) := by
  obtain ⟨id, adds⟩ := lib.makes.expose _ _ _ _ _ _ made
  have free : contents rcp get groups.server ([] ++ labels.dropLast ++ [groups.label]) = none :=
    free_of_unfound lib grouped.sound grouped.place unfound
  have sound' := sound_adds grouped.sound adds rfl grouped.place free
  have grown := contents_adds grouped.sound adds rfl grouped.place free
  have at_new := (labelPath_grown adds.grown rfl).mpr (.inr ⟨rfl, _, rfl, grouped.place⟩)
  rw [List.nil_append, ← path_eq] at free grown at_new
  let new : Parameter := ⟨ptr, id, request.type, some groups.label, groups.group⟩
  let calls := request.calls ++ (setupParameter request.type ptr request.options ++ [.serverUpdate])
  have concern : ∀ c ∈ calls, Concerns new.ptr c ∧ Suits new c :=
    List.forall_mem_append.mpr ⟨fun c among => quiet_concerns (quiet c among) new,
      List.forall_mem_append.mpr ⟨@setup_concerns new request.options,
        concern_cons trivial trivial concern_nil⟩⟩
  have named : Named rcp get next (fun q _ => q = labels) (some new) := named_at sound' at_new
  have ended : calls.foldl (changed ptr) (fieldsOf get next new) =
      (Entry.fresh request.type id request.options).fields := by
    have update (f : Fields) : [Call.serverUpdate].foldl (changed ptr) f = f := rfl
    rw [List.foldl_append, List.foldl_append, changed_quiet quiet, update]
    apply setup_fresh request.type id ptr request.options known _ adds.unset
    intro bang
    simp [fieldsOf, Contents.valueOf, bang]
  have amended := @contents_amend S rcp get perform next lib.performs sound' _ _ (some new) named
    (fun _ => calls) (fun e => { e with fields := calls.foldl (changed ptr) e.fields })
    (fun p same c among => by
      cases same
      exact concern c among)
    (fun p same => by
      cases same
      rfl)
  have final : contents rcp get t =
      put (contents rcp get groups.server) labels (Entry.fresh request.type id request.options) := by
    rw [← done]
    refine amended.trans ?_
    rw [grown, amend_put]
    congr 1
    rw [entryOf, ended]
    rfl
  refine ⟨?_, ?_⟩
  · rw [← done, parameters_foldl lib.performs]
    exact sound'
  · have agree (q) (e) (here : contents rcp get groups.server q = some e) :
        idsOf (contents rcp get t) q = e.id := by
      have apart : q ≠ labels := by
        intro same
        rw [same, free] at here
        contradiction
      rw [idsOf, final, put_elsewhere apart, here]
      rfl
    have own : idsOf (contents rcp get t) labels = id := by
      rw [idsOf, final, put_here]
      rfl
    rw [exposeAt_new path (grouped.filled _ agree).symm (grouped.label ▸ some_label) free, own]
    exact final

theorem exposeRequest_contents (lib : Library rcp get perform) (sound : Sound (rcp.parameters s))
    {request : Request} (known : request.type ≠ .invalid ∧ request.type ≠ .group ∧
      request.type ≠ .other) (quiet : ∀ c ∈ request.calls, Quiet c)
    (served : Served rcp get s request) {t : S}
    (done : (exposeRequest rcp s request).calls.foldl perform
      (exposeRequest rcp s request).server = t) :
    Sound (rcp.parameters t) ∧
      contents rcp get t = exposeAt (idsOf (contents rcp get t)) request (contents rcp get s) := by
  have grouped := createGroups_grouped lib request.first request.rest sound (.inl ⟨rfl, rfl⟩)
    served.symbols (fun ls e _ => clear_groups served.symbols served.clear (by simp) ls e)
    served.groups
  have parameter := served.parameter
  simp only at parameter
  rw [exposeRequest] at done
  simp only at done
  generalize createGroups rcp s none request.first request.rest = groups at grouped parameter done
  rw [grouped.quiet, List.append_nil] at done
  have complain {format : String} {args : List CString} :
      ∀ c ∈ request.calls ++ [.error format args], Quiet c :=
    List.forall_mem_append.mpr ⟨quiet, List.forall_mem_singleton.mpr trivial⟩
  let labels := (request.first :: request.rest).map getAsString
  have path_eq : labels = labels.dropLast ++ [groups.label] := grouped.label_last (by simp)
  -- nothing is made of an empty label or one that is taken
  have ends (same : (exposeIn rcp request groups).server = groups.server)
      (calls : ∀ c ∈ request.calls ++ (exposeIn rcp request groups).calls, Quiet c)
      (ended : groups.label.isEmpty = true ∨ (contents rcp get groups.server labels).isSome) :
      Sound (rcp.parameters t) ∧
        contents rcp get t = exposeAt (idsOf (contents rcp get t)) request (contents rcp get s) := by
    rw [same] at done
    have kept : contents rcp get t = contents rcp get groups.server := by
      rw [← done, contents_quiet lib.performs calls]
    refine ⟨?_, exposeAt_grouped grouped kept ended⟩
    rw [← done, parameters_foldl lib.performs]
    exact grouped.sound
  unfold exposeIn at done ends
  by_cases empty : groups.label.isEmpty = true
  · rw [if_pos empty] at ends
    exact ends rfl complain (.inl empty)
  · rw [if_neg empty] at done ends
    cases found : rcp.managerFindParameter groups.server groups.label groups.group with
    | some p =>
      rw [found] at ends
      have there := place_child grouped.place (lib.finds.child _ _ _ p found)
      rw [List.nil_append, ← path_eq] at there
      have taken : (contents rcp get groups.server labels).isSome = true := by
        rw [contents_at grouped.sound.unique there]
        rfl
      exact ends rfl complain (.inr taken)
    | none =>
      rw [found] at done
      have some_label : groups.label.isEmpty = false := by simpa using empty
      cases made : rcp.serverExpose groups.server request.type groups.label groups.group with
      | mk next ptr =>
        have given := parameter some_label found
        rw [made] at given done
        obtain ⟨ptr, eq⟩ := Option.ne_none_iff_exists'.mp given
        subst eq
        exact created_contents lib rfl grouped path_eq known quiet some_label found made done

end
end DirectoryExpose
