import RcpFlext.DirectoryExpose

/- Whole runs of rcp.server against runs of a directory. -/
namespace DirectoryRuns
open Atoms Datatypes ParameterTree PathLookup Expose Contents Directories ServerDirectory
open DirectoryMessages DirectoryExpose

/-- One message after the other, with any ids for what is made. -/
inductive Acts : ServerDirectory.Contents → List Message → ServerDirectory.Contents → Prop
  | done (d : ServerDirectory.Contents) : Acts d [] d
  | next {d d' : ServerDirectory.Contents} {m : Message} {ms : List Message}
      (ids : List CString → BitVec 16) (rest : Acts (act ids d m) ms d') : Acts d (m :: ms) d'

section
variable {S : Type} {rcp : Rcp S} {get : Queries.Getters S} {perform : S → Call → S}
  {s : S} {next : S × List Call}

theorem sound_calls (performs : Performs rcp get perform) (sound : Sound (rcp.parameters s))
    (calls : List Call) : Sound (rcp.parameters (calls.foldl perform s)) := by
  rw [parameters_foldl performs]
  exact sound

theorem sound_handled (performs : Performs rcp get perform) (sound : Sound (rcp.parameters s))
    {said : Except Int (List Call)} (ran : handled perform s said = some next) :
    Sound (rcp.parameters next.1) := by
  obtain ⟨calls, _, eq⟩ := handled_ok ran
  subst eq
  exact sound_calls performs sound calls

theorem step_acts (lib : Library rcp get perform) (sound : Sound (rcp.parameters s)) {m : Message}
    (plain : Plain rcp get s m) (stepped : step rcp perform s m = some next) :
    Sound (rcp.parameters next.1) ∧
      contents rcp get next.1 = act (idsOf (contents rcp get next.1)) (contents rcp get s) m := by
  cases m with
  | expose argv =>
    cases stepped
    simp only [exposeParameter, act]
    cases read : readRequest argv with
    | error call =>
      have quiet : ∀ c ∈ [call], Quiet c := by
        intro c among
        cases List.mem_singleton.mp among
        exact readRequest_error read
      exact ⟨sound_calls lib.performs sound _, contents_quiet lib.performs quiet⟩
    | ok request =>
      exact exposeRequest_contents lib sound (readRequest_type read) (readRequest_quiet read)
        (plain request read) rfl
  | removeId id =>
    cases stepped
    exact ⟨sound_calls lib.performs (sound_takes lib.takes sound _) _,
      removeId_contents lib sound id⟩
  | remove argv =>
    cases stepped
    have kept : Sound (rcp.parameters (removeParameterList rcp s argv).1) := by
      unfold removeParameterList
      split
      · exact sound_takes lib.takes sound _
      · exact sound
    exact ⟨sound_calls lib.performs kept _, remove_contents lib sound plain⟩
  | setreadonly argv =>
    exact ⟨sound_handled lib.performs sound stepped,
      setLast_contents lib sound plain sets_readonly stepped⟩
  | setorder argv =>
    exact ⟨sound_handled lib.performs sound stepped,
      setLast_contents lib sound plain sets_order stepped⟩
  | setmin argv =>
    exact ⟨sound_handled lib.performs sound stepped,
      setBound_contents lib sound plain sets_min stepped⟩
  | setmax argv =>
    exact ⟨sound_handled lib.performs sound stepped,
      setBound_contents lib sound plain sets_max stepped⟩
  | setminmax argv =>
    exact ⟨sound_handled lib.performs sound stepped, setMinMax_contents lib sound plain stepped _⟩
  | list argv =>
    obtain ⟨calls, done, eq⟩ := Option.map_eq_some_iff.mp stepped
    subst eq
    exact ⟨sound_calls lib.performs sound calls, list_contents lib sound plain.1 plain.2 done⟩
  | anything sym argv =>
    obtain ⟨calls, done, eq⟩ := Option.map_eq_some_iff.mp stepped
    subst eq
    exact ⟨sound_calls lib.performs sound calls, anything_contents lib sound plain done⟩

theorem sound_empty (empty : rcp.parameters s = []) : Sound (rcp.parameters s) := by
  rw [empty]
  exact ⟨empty_tree, List.Pairwise.nil, List.nodup_nil⟩

theorem contents_empty (empty : rcp.parameters s = []) :
    contents rcp get s = Directories.empty := by
  funext q
  rw [contents, empty]
  cases q with
  | nil => rfl
  | cons l ls => rfl

theorem run_acts (lib : Library rcp get perform) (sound : Sound (rcp.parameters s))
    {ms : List Message} (plain : Runs.Steps (step rcp perform) (Plain rcp get) s ms) {t : S}
    (ran : Runs.run (step rcp perform) s ms = some t) :
    Sound (rcp.parameters t) ∧ Acts (contents rcp get s) ms (contents rcp get t) := by
  induction ms generalizing s with
  | nil =>
    cases ran
    exact ⟨sound, .done _⟩
  | cons m ms ih =>
    obtain ⟨next, stepped, rest⟩ := Option.bind_eq_some_iff.mp ran
    obtain ⟨now, later⟩ := plain next stepped
    obtain ⟨sound', acted⟩ := step_acts lib sound now stepped
    obtain ⟨final, acts⟩ := ih sound' later rest
    refine ⟨final, .next (idsOf (contents rcp get next.1)) ?_⟩
    rw [← acted]
    exact acts

end
end DirectoryRuns
