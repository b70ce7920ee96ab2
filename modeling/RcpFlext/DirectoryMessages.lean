import RcpFlext.ServerDirectory
import RcpFlext.NumericIds

/- rcp.server message by message: each changes the contents as `act` says. -/
namespace DirectoryMessages
open Atoms Datatypes ParameterTree PathLookup Expose Contents Directories ServerDirectory Input

variable {S : Type} {rcp : Rcp S} {get : Queries.Getters S} {perform : S → Call → S} {s : S}

section
variable {front : List Atom} {a : Atom} {calls : List Call}

theorem setLast_sends (complaint : String) (set : Nat → Atom → Call) :
    Indexing.setLast rcp s complaint set (front ++ [a]).length ⟨front ++ [a], 0⟩ =
      .ok (if canbeInt a then
        (getParameter rcp s front none).elim [] fun p => [set p.ptr a, .serverUpdate]
      else [.error complaint []]) := by
  have count : ((front ++ [a]).length : Int) - 1 = front.length := by simp
  have lookup : Indexing.getParameter rcp s front.length ⟨front ++ [a], 0⟩ none =
      .ok (getParameter rcp s front none) :=
    @Indexing.getParameter_eq S rcp s ⟨front ++ [a], 0⟩ front [] [a] _ rfl rfl (by simp) none
  have read : Indexing.Argv.get ⟨front ++ [a], 0⟩ front.length = .ok a :=
    Indexing.get_at rfl (by simp)
  rw [Indexing.setLast, count, read, Indexing.ok_bind, lookup]
  cases canbeInt a with
  | false => rfl
  | true =>
    cases getParameter rcp s front none with
    | none => rfl
    | some p => rfl

theorem setBound_all (set : Nat → Value → Call) :
    Indexing.setBound rcp s set (front ++ [a]).length ⟨front ++ [a], 0⟩ =
      .ok (if canbeFloat a then
        (getParameter rcp s front none).elim [] fun p =>
          if Limits.IsNumber p then [set p.ptr (Limits.numberOf p a), .serverUpdate] else []
      else []) := by
  have count : ((front ++ [a]).length : Int) = front.length + 1 := by simp
  rw [count]
  cases number : canbeFloat a with
  | true =>
    rw [Limits.setBound_sends set number]
    cases getParameter rcp s front none with
    | none => rfl
    | some p => rfl
  | false =>
    have lookup : Indexing.getParameter rcp s ((front.length : Int) + 1 - 1) ⟨front ++ [a], 0⟩ none =
        .ok (getParameter rcp s front none) :=
      @Indexing.getParameter_eq S rcp s ⟨front ++ [a], 0⟩ front [] [a] _ rfl rfl (by simp) none
    have read : Indexing.Argv.get ⟨front ++ [a], 0⟩ ((front.length : Int) + 1 - 1) = .ok a :=
      Indexing.get_at rfl (by simp)
    have int : canbeInt a = false := number
    rw [Indexing.setBound, lookup, read, Indexing.ok_bind]
    cases getParameter rcp s front none with
    | none => rfl
    | some p =>
      simp only [Indexing.ok_bind, number, int, Bool.false_eq_true, ↓reduceIte]
      split
      · rfl
      · split <;> rfl

theorem handled_ok {said : Except Int (List Call)} {next : S × List Call}
    (ran : handled perform s said = some next) :
    ∃ calls, said = .ok calls ∧ next = (calls.foldl perform s, calls) := by
  cases said with
  | ok calls => exact ⟨calls, rfl, (Option.some.inj ran).symm⟩
  | error i => contradiction

theorem amendLast_snoc {accepts : Atom → Bool} {f : Atom → Entry → Entry} {d : Contents} :
    amendLast (front ++ [a]) accepts f d =
      if accepts a then amend (byPath front) (f a) d else d := by
  rw [amendLast, List.getLast?_concat, List.dropLast_concat]

theorem amend_root (f : Entry → Entry) :
    amend (byPath []) f (contents rcp get s) = contents rcp get s := by
  funext q
  apply amend_of_miss
  intro e there same
  have root : q = [] := List.map_eq_nil_iff.mp (Eq.symm same)
  rw [root] at there
  contradiction

variable (lib : Library rcp get perform) (sound : Sound (rcp.parameters s))
include lib sound

theorem sets_contents (clear : Clear (contents rcp get s) front) {set : Parameter → List Call}
    {f : Entry → Entry} (sets : Sets set f) :
    contents rcp get (((getParameter rcp s front none).elim [] set).foldl perform s) =
      amend (byPath front) f (contents rcp get s) :=
  contents_sets lib.performs sound (named_byPath lib.finds sound clear) sets

theorem setLast_contents {argv : List Atom} {complaint : String} {set : Nat → Atom → Call}
    {f : Atom → Entry → Entry} {next : S × List Call}
    (clear : Clear (contents rcp get s) argv.dropLast)
    (sets : ∀ a, Sets (fun p => [set p.ptr a, .serverUpdate]) (f a))
    (ran : handled perform s (Indexing.setLast rcp s complaint set argv.length ⟨argv, 0⟩) =
      some next) :
    contents rcp get next.1 = amendLast argv canbeInt f (contents rcp get s) := by
  obtain ⟨calls, said, eq⟩ := handled_ok ran
  subst eq
  rcases List.eq_nil_or_concat argv with empty | ⟨front, a, eq⟩
  · subst empty
    contradiction
  · rw [List.concat_eq_append] at eq
    subst eq
    rw [List.dropLast_concat] at clear
    rw [setLast_sends] at said
    cases said
    rw [amendLast_snoc]
    cases number : canbeInt a with
    | true => exact sets_contents lib sound clear (sets a)
    | false => exact contents_quiet lib.performs (by simp [Quiet])

theorem setBound_contents {argv : List Atom} {set : Nat → Value → Call} {f : Atom → Entry → Entry}
    {next : S × List Call} (clear : Clear (contents rcp get s) argv.dropLast)
    (sets : ∀ a, Sets (fun p => if Limits.IsNumber p then
      [set p.ptr (Limits.numberOf p a), .serverUpdate] else []) (f a))
    (ran : handled perform s (Indexing.setBound rcp s set argv.length ⟨argv, 0⟩) = some next) :
    contents rcp get next.1 = amendLast argv canbeFloat f (contents rcp get s) := by
  obtain ⟨calls, said, eq⟩ := handled_ok ran
  subst eq
  rcases List.eq_nil_or_concat argv with empty | ⟨front, a, eq⟩
  · subst empty
    cases said
    rfl
  · rw [List.concat_eq_append] at eq
    subst eq
    rw [List.dropLast_concat] at clear
    rw [setBound_all] at said
    cases said
    rw [amendLast_snoc]
    cases number : canbeFloat a with
    | true => exact sets_contents lib sound clear (sets a)
    | false => rfl

theorem setMinMax_contents {argv : List Atom} {next : S × List Call}
    (clear : Clear (contents rcp get s) argv.dropLast.dropLast)
    (ran : handled perform s (Indexing.parameterSetMinMax rcp s argv.length ⟨argv, 0⟩) =
      some next) (ids : List CString → BitVec 16) :
    contents rcp get next.1 = act ids (contents rcp get s) (.setminmax argv) := by
  obtain ⟨calls, said, eq⟩ := handled_ok ran
  subst eq
  rcases List.eq_nil_or_concat argv with empty | ⟨more, high, eq⟩
  · subst empty
    cases said
    exact contents_quiet lib.performs (by simp [Quiet])
  rw [List.concat_eq_append] at eq
  subst eq
  rw [List.dropLast_concat] at clear
  simp only [act, List.getLast?_concat, List.dropLast_concat]
  rcases List.eq_nil_or_concat more with empty | ⟨front, low, eq⟩
  · subst empty
    cases said
    have quiet : contents rcp get ([Call.error "invalid data for setting min and max" []].foldl
        perform s) = contents rcp get s := contents_quiet lib.performs (by simp [Quiet])
    rw [quiet]
    split <;> rfl
  rw [List.concat_eq_append] at eq
  subst eq
  rw [List.dropLast_concat] at clear
  have message : front ++ [low] ++ [high] = front ++ [low, high] := by simp
  have count : ((front ++ [low, high]).length : Int) = front.length + 2 := by simp
  rw [message, count] at said
  have told := said.symm.trans Limits.together_sends
  cases told
  simp only [amendLast_snoc]
  by_cases floats : isFloat low = true ∧ isFloat high = true
  · rw [if_pos floats.2, if_pos floats.1]
    by_cases some_label : front = []
    · subst some_label
      rw [amend_root, if_neg (fun all => all.1 rfl)]
      exact contents_quiet lib.performs (by simp [Quiet])
    · rw [if_pos ⟨some_label, floats⟩]
      have sent : Limits.sends (getParameter rcp s front none) (fun p =>
          [.setMin p.ptr (Limits.numberOf p low), .setMax p.ptr (Limits.numberOf p high),
            .serverUpdate]) = (getParameter rcp s front none).elim [] fun p =>
          if Limits.IsNumber p then
            [.setMin p.ptr (Limits.numberOf p low), .setMax p.ptr (Limits.numberOf p high),
              .serverUpdate]
          else [] := by
        cases getParameter rcp s front none <;> rfl
      rw [sent]
      exact sets_contents lib sound clear (sets_minmax low high)
  · have quiet : contents rcp get ([Call.error "invalid data for setting min and max" []].foldl
        perform s) = contents rcp get s := contents_quiet lib.performs (by simp [Quiet])
    rw [if_neg (fun all => floats all.2), quiet]
    split
    · rw [if_neg (fun first => floats ⟨first, ‹_›⟩)]
    · rfl

end

section
variable {sym : CString} {labels before : List Atom} {a : Atom} {calls : List Call}
  {target : Option Parameter}

/-- The calls set the target's value, or they set nothing that the target could take. -/
def Drives (a : Atom) (target : Option Parameter) (calls : List Call) : Prop :=
  calls = target.elim [] (assigned a) ∨
    (∀ c ∈ calls, Quiet c) ∧ ∀ p ∈ target, Input.valueOf p.type a = none

theorem drives_contents (lib : Library rcp get perform) (sound : Sound (rcp.parameters s))
    {hit : List CString → Entry → Prop} [∀ q e, Decidable (hit q e)]
    (named : Named rcp get s hit target) (drives : Drives a target calls) :
    contents rcp get (calls.foldl perform s) = amend hit (Entry.drive a) (contents rcp get s) := by
  rcases drives with eq | ⟨quiet, worthless⟩
  · subst eq
    exact contents_sets lib.performs sound named (sets_drive a)
  · rw [contents_quiet lib.performs quiet]
    have none_set := @contents_amend S rcp get perform s lib.performs sound hit _ target named
      (fun _ => []) (Entry.drive a) (fun _ _ _ none => nomatch none)
      (by
        intro p found
        have worth : Input.valueOf (entryOf get s p).type a = none := worthless p found
        simp only [Entry.drive, worth]
        rfl)
    have same : (target.elim [] fun _ => ([] : List Call)) = [] := by cases target <;> rfl
    rwa [same] at none_set

theorem worthless_group {p : Parameter} (group : p.isGroup = true) :
    Input.valueOf p.type a = none := by
  have type : p.type = .group := by simpa [Parameter.isGroup] using group
  rw [type]
  rfl

theorem assign_assigned (p : Parameter) (before front : List Atom) (a : Atom) :
    assign (some p) ⟨before, front ++ [a]⟩ = some (assigned a p) := by
  rw [assign_snoc]
  rfl

theorem drives_leaf {p : Parameter} (leaf : p.isGroup = false)
    (done : input rcp s (some p) ⟨before, [a]⟩ = some calls) : Drives a (some p) calls := by
  by_cases bang : p.type = .bang
  · rw [input_bang bang] at done
    cases done
    refine .inr ⟨by simp [Quiet], ?_⟩
    intro q same
    cases same
    rw [bang]
    rfl
  · have value : p.isValue = true := by
      simp only [Parameter.isGroup, decide_eq_false_iff_not] at leaf
      simp [Parameter.isValue, leaf, bang]
    rw [input_value value] at done
    have made := (assign_assigned p before [] a).symm.trans done
    cases made
    exact .inl rfl

theorem drives_group {p : Parameter} (group : p.isGroup = true) (deep : labels ≠ [])
    (done : input rcp s (some p) ⟨before, labels ++ [a]⟩ = some calls) :
    Drives a (getParameter rcp s labels (some p.ptr)) calls := by
  rw [input_group group before labels a deep] at done
  cases found : getParameter rcp s labels (some p.ptr) with
  | none =>
    rw [found] at done
    cases done
    exact .inr ⟨by simp [Quiet], fun _ none => nomatch none⟩
  | some q =>
    rw [found] at done
    simp only at done
    split at done
    · cases done
      refine .inr ⟨by simp [Quiet], ?_⟩
      intro r same
      cases same
      exact worthless_group ‹_›
    · have made := (assign_assigned q before labels a).symm.trans done
      cases made
      exact .inl rfl

theorem input_drives (finds : rcp.Finds) (sound : Sound (rcp.parameters s))
    (clear : Clear (contents rcp get s) (.symbol sym :: labels))
    (done : input rcp s (rcp.managerFindParameter s sym none) ⟨before, labels ++ [a]⟩ = some calls) :
    Drives a (getParameter rcp s (.symbol sym :: labels) none) calls := by
  cases found : rcp.managerFindParameter s sym none with
  | none =>
    rw [found] at done
    cases done
    have missing : getParameter rcp s (.symbol sym :: labels) none = none := by
      simp [getParameter, getParameterFrom, isString, getString, found]
    rw [missing]
    exact .inl rfl
  | some p =>
    rw [found] at done
    have child := finds.child s sym none p found
    by_cases group : p.isGroup = true
    · cases labels with
      | nil =>
        rw [getParameter_last found]
        simp only [List.nil_append, input, group, ↓reduceIte, List.length_singleton,
          Nat.lt_irrefl] at done
        cases done
        refine .inr ⟨by simp [Quiet], ?_⟩
        intro q same
        cases same
        exact worthless_group group
      | cons b labels =>
        rw [getParameter_into b labels found group]
        exact drives_group group (by simp) done
    · -- a leaf ends the path
      have only : labels = [] := by
        by_contra more
        have above := group_of_clear sound.unique clear [sym] p ⟨labels, rfl⟩ (by simpa using Ne.symm more)
          (.child child)
        exact group above
      subst only
      rw [getParameter_last found]
      exact drives_leaf (by simpa using group) done

theorem mList_number {rest : List Atom} (number : canbeInt a = true) :
    mList rcp s (a :: rest) =
      some (if (getAInt a 0).setWidth 16 = (0 : BitVec 16) then [] else
        (rcp.managerGetParameter s ((getAInt a 0).setWidth 16)).elim []
          (assigned (rest.getLastD a))) := by
  have first : (⟨[], a :: rest⟩ : Args).at 0 = some a := rfl
  have other : isString a = false := by
    cases a <;> simp_all [canbeInt, isInt, isFloat, isString]
  by_cases zero : (getAInt a 0).setWidth 16 = (0 : BitVec 16)
  · simp only [mList, first, number, ↓reduceIte, zero, other, Bool.false_eq_true]
  · simp only [mList, first, number, ↓reduceIte, zero, assign, NumericIds.last_getLastD,
      Option.map_some, other, Bool.false_eq_true]
    cases rcp.managerGetParameter s ((getAInt a 0).setWidth 16) with
    | none => rfl
    | some p =>
      simp only [Option.elim_some, assigned]
      cases setAtomValue (some p) (rest.getLastD a) <;> rfl

theorem driveLast_symbol {d : Contents} :
    driveLast (.symbol sym :: (labels ++ [a])) d =
      amend (byPath (.symbol sym :: labels)) (Entry.drive a) d := by
  have split : Atom.symbol sym :: (labels ++ [a]) = (.symbol sym :: labels) ++ [a] := rfl
  have string : isString (.symbol sym) = true := rfl
  rw [driveLast, if_neg (by simp [canbeInt, isInt, isFloat]), if_pos string, split,
    amendLast_snoc, if_pos rfl]

theorem input_alone {parameter : Option Parameter}
    (done : input rcp s parameter ⟨[], []⟩ = some calls) : ∀ c ∈ calls, Quiet c := by
  rcases input_cases done with eq | ⟨_, eq⟩ | ⟨_, _, _, eq⟩ | ⟨p, v, _, here⟩
  · simp [eq]
  · simp [eq, Quiet]
  · simp [eq, Quiet]
  · rcases here with ⟨eq, value⟩ | ⟨g, _, _, long, _⟩
    · rw [eq, input_value value] at done
      contradiction
    · simp at long

variable (lib : Library rcp get perform) (sound : Sound (rcp.parameters s))
include lib sound

theorem list_contents {argv : List Atom} (long : ∀ sym, argv ≠ [.symbol sym])
    (clear : Clear (contents rcp get s) argv.dropLast) (done : mList rcp s argv = some calls) :
    contents rcp get (calls.foldl perform s) = driveLast argv (contents rcp get s) := by
  cases argv with
  | nil => contradiction
  | cons a rest =>
    by_cases number : canbeInt a = true
    · rw [mList_number number] at done
      cases done
      rw [driveLast, if_pos number]
      by_cases zero : (getAInt a 0).setWidth 16 = (0 : BitVec 16)
      · rw [if_pos zero, if_pos zero]
        rfl
      · rw [if_neg zero, if_neg zero]
        exact contents_sets lib.performs sound (named_byId lib.findsId sound _)
          (sets_drive (rest.getLastD a))
    · cases a with
      | int | float => exact absurd rfl number
      | pointer =>
        cases done
        rfl
      | symbol sym =>
        rcases List.eq_nil_or_concat rest with empty | ⟨labels, a, eq⟩
        · subst empty
          exact absurd rfl (long sym)
        · rw [List.concat_eq_append] at eq
          subst eq
          rw [← List.cons_append, List.dropLast_concat] at clear
          rw [mList_symbol] at done
          rw [driveLast_symbol]
          exact drives_contents lib sound (named_byPath lib.finds sound clear)
            (input_drives lib.finds sound clear done)

theorem anything_contents {argv : List Atom}
    (clear : Clear (contents rcp get s) (Atom.symbol sym :: argv).dropLast)
    (done : mAny rcp s sym argv = some calls) :
    contents rcp get (calls.foldl perform s) =
      driveLast (.symbol sym :: argv) (contents rcp get s) := by
  rcases List.eq_nil_or_concat argv with empty | ⟨labels, a, eq⟩
  · subst empty
    have alone : driveLast [.symbol sym] (contents rcp get s) = contents rcp get s :=
      amend_root (Entry.drive (.symbol sym))
    rw [alone]
    exact contents_quiet lib.performs (input_alone done)
  · rw [List.concat_eq_append] at eq
    subst eq
    rw [← List.cons_append, List.dropLast_concat] at clear
    rw [driveLast_symbol]
    exact drives_contents lib sound (named_byPath lib.finds sound clear)
      (input_drives lib.finds sound clear done)

theorem removeId_contents (id : CInt) :
    contents rcp get ((removeParameter rcp s id).2.foldl perform (removeParameter rcp s id).1) =
      prune (byId (id.setWidth 16)) (contents rcp get s) := by
  have quiet : ∀ c ∈ (removeParameter rcp s id).2, Quiet c := by
    intro c among
    simp only [removeParameter] at among
    split at among
    · cases List.mem_singleton.mp among
      trivial
    · contradiction
  rw [contents_quiet lib.performs quiet]
  exact contents_takes lib.takes sound (named_byId lib.findsId sound (id.setWidth 16))
    fun p inside => get_iff lib.findsId sound (id.setWidth 16) inside

theorem remove_contents {argv : List Atom} (clear : Clear (contents rcp get s) argv) :
    contents rcp get ((removeParameterList rcp s argv).2.foldl perform
        (removeParameterList rcp s argv).1) = prune (byPath argv) (contents rcp get s) := by
  have named := named_byPath lib.finds sound clear
  unfold removeParameterList
  cases found : getParameter rcp s argv none with
  | none =>
    rw [found] at named
    exact (prune_nothing sound.unique named).symm
  | some p =>
    rw [found] at named
    simp only
    rw [removeId_contents lib sound]
    have same : (p.id.signExtend 32).setWidth 16 = p.id := by
      ext i bound
      simp only [BitVec.getElem_setWidth, BitVec.getLsbD_signExtend, bound, ↓reduceIte]
      simp [bound, Nat.lt_trans bound]
    rw [same]
    have by_id : Named rcp get s (byId p.id) (some p) := by
      have inside := named.1 p rfl
      rw [← (get_iff lib.findsId sound p.id inside).mp rfl]
      exact named_byId lib.findsId sound p.id
    rw [← contents_prunes lib sound by_id, contents_prunes lib sound named]

end
end DirectoryMessages
