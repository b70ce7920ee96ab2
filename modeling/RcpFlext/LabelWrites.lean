import RcpFlext.FormatFaithful
import RcpFlext.Library.Runs

/- The label of rcp.format while writing its option may fail. setLabel keeps the name before
   it writes, and clears the option alone when the write fails. -/
namespace LabelWrites
open Atoms Format FormatPackets FormatOutput FormatFaithful Datatypes

inductive Event where
  | set (v : CInt)
  | type (sym : CString)
  | label (p : CString) (succeeds : Bool)
  | clearlabel
  | input (i : Input)
  deriving DecidableEq

section
variable (codes : DatatypeCodes) (encode : CString → List Char8)

/-- `encode` is what `rcp_option_write` stores for a label when it succeeds. -/
def step : Runs.Machine RcpFormat Event Output := fun f e =>
  match e with
  | .set v => some (Message.apply f (.set v), .silent)
  | .type sym => some (Message.apply f (.type sym), .silent)
  | .label p succeeds =>
    some (Message.apply f (.label p (if succeeds then some (encode p) else none)), .silent)
  | .clearlabel => some (Message.apply f .clearlabel, .silent)
  | .input i => some (f, receive codes f i)

def Consistent (f : RcpFormat) : Prop :=
  f.m_label.isEmpty = false → f.labelOption = encode f.m_label ++ [0, 0]

def updateAtoms (f : RcpFormat) (v : Value) : List Atom :=
  updateHead codes f.m_id v.datatype ++
    ((if v = .bang then [] else setUChar 32 :: valueAtoms v) ++
      (encode f.m_label ++ [0, 0]).map setChar)

/-- With a label an input sends nothing or the whole packet, and writes nowhere else. -/
def Whole (f : RcpFormat) : Event → Prop
  | .input i => f.m_label.isEmpty = false →
    receive codes f i = match coerced f i with
      | none => .silent
      | some v => .list (updateAtoms codes encode f v)
  | _ => True

def Careful (f : RcpFormat) : Event → Prop
  | .label p succeeds => succeeds = true ∨ p.isEmpty = true
  | .input i => f.m_label.isEmpty = false → ∀ v, coerced f i = some v →
    (updateAtoms codes encode f v).length < 2 ^ 31
  | _ => True

end

section
variable {codes : DatatypeCodes} {encode : CString → List Char8} {f : RcpFormat} {e : Event}
  {next : RcpFormat × Output}

theorem no_write (other : ∀ p succeeds, e ≠ .label p succeeds) :
    ∀ p succeeds, e = .label p succeeds → succeeds = true ∨ p.isEmpty = true :=
  fun p succeeds same => absurd same (other p succeeds)

/-- Only the write of a label can break it, and it does so when there is a name to keep. -/
theorem consistent_step (consistent : Consistent encode f)
    (stepped : step codes encode f e = some next) :
    Consistent encode next.1 ↔ ∀ p succeeds, e = .label p succeeds →
      succeeds = true ∨ p.isEmpty = true := by
  cases e with
  | set v =>
    cases stepped
    refine iff_of_true ?_ (no_write (by simp))
    obtain ⟨label, option⟩ := set_label f v
    intro some_label
    rw [label] at some_label ⊢
    rw [option]
    exact consistent some_label
  | type sym =>
    cases stepped
    exact iff_of_true consistent (no_write (by simp))
  | clearlabel =>
    cases stepped
    refine iff_of_true ?_ (no_write (by simp))
    intro some_label
    contradiction
  | input i =>
    cases stepped
    exact iff_of_true consistent (no_write (by simp))
  | label p succeeds =>
    cases stepped
    cases succeeds with
    | true =>
      refine iff_of_true (fun _ => rfl) ?_
      intro q wrote same
      cases same
      exact .inl rfl
    | false =>
      constructor
      · intro kept q wrote same
        cases same
        right
        by_contra some_label
        -- the option that was cleared would have to end with the terminators
        have label : p.isEmpty = false := by simpa using some_label
        have option : [] = encode p ++ [0, 0] := kept label
        simp at option
      · intro careful some_label
        have empty := (careful p false rfl).resolve_left (by simp)
        exact absurd (some_label.symm.trans empty) (by simp)

theorem consistent_labelled (consistent : Consistent encode f) : Labelled f := by
  intro some_label
  rw [consistent some_label]
  simp

theorem packetAtoms_consistent (consistent : Consistent encode f)
    (labelled : f.m_label.isEmpty = false) (v : Value) :
    packetAtoms codes f v = updateAtoms codes encode f v := by
  rw [packetAtoms, if_neg (by simp [labelled]), consistent labelled, updateAtoms]

theorem emitted_length (consistent : Consistent encode f) {i : Input} {atoms : List Atom}
    (emits : receive codes f i = .list atoms) : atoms.length < 2 ^ 31 := by
  have labelled := consistent_labelled consistent
  by_cases symbol : ∃ s, i = .symbol s
  · obtain ⟨s, eq⟩ := symbol
    exact receive_size codes eq emits
  · cases value : coerced f i with
    | none =>
      rw [receive_silent codes f value] at emits
      contradiction
    | some v =>
      rw [receive_sent codes f value labelled (fun s eq => absurd ⟨s, eq⟩ symbol)] at emits
      obtain ⟨same, small⟩ := toOutList_list emits
      rw [← Option.some.inj same]
      omega

theorem symbol_short {s : CString} {v : Value} (value : coerced f (.symbol s) = some v)
    (small : (updateAtoms codes encode f v).length < 2 ^ 31) : s.bytes.length < 2 ^ 31 := by
  rw [coerced_symbol value, updateAtoms] at small
  simp only [reduceCtorEq, ↓reduceIte, List.length_append, List.length_cons, valueAtoms,
    List.length_map] at small
  omega

theorem whole_input_iff (consistent : Consistent encode f) (i : Input) :
    Whole codes encode f (.input i) ↔ Careful codes encode f (.input i) := by
  constructor
  · intro whole some_label v value
    have emits := whole some_label
    rw [value] at emits
    exact emitted_length consistent emits
  · intro careful some_label
    cases value : coerced f i with
    | none => exact receive_silent codes f value
    | some v =>
      have small := careful some_label v value
      have short : ∀ s, i = .symbol s → s.bytes.length < 2 ^ 31 := by
        intro s symbol
        subst symbol
        exact symbol_short value small
      rw [receive_sent codes f value (consistent_labelled consistent) short, sent,
        packetAtoms_consistent consistent some_label, toOutList]
      rw [if_pos (by omega)]

theorem careful_iff (consistent : Consistent encode f)
    (stepped : step codes encode f e = some next) :
    Consistent encode next.1 ∧ Whole codes encode f e ↔ Careful codes encode f e := by
  rw [consistent_step consistent stepped]
  cases e with
  | set v | type sym | clearlabel =>
    exact iff_of_true ⟨no_write (by simp), trivial⟩ trivial
  | label p succeeds =>
    constructor
    · intro both
      exact both.1 p succeeds rfl
    · intro careful
      refine ⟨?_, trivial⟩
      intro q wrote same
      cases same
      exact careful
  | input i =>
    rw [← whole_input_iff consistent]
    exact and_iff_right (no_write (by simp))

end

/-- After any messages and inputs the label is with its option and every labelled packet was
    whole exactly when no name was kept without its option, and no packet was too long. -/
theorem consistent_run_iff (codes : DatatypeCodes) (encode : CString → List Char8)
    (argv : List Atom) (first : RcpFormat) (events : List Event)
    (created : create argv = .ok first) :
    Runs.Visits (step codes encode) (Consistent encode) first events ∧
      Runs.Steps (step codes encode) (Whole codes encode) first events ↔
    Runs.Steps (step codes encode) (Careful codes encode) first events := by
  have start : Consistent encode first := by
    intro some_label
    rw [create_unlabelled created] at some_label
    contradiction
  exact Runs.visits_and_steps_iff (fun _ _ _ consistent stepped => careful_iff consistent stepped)
    start events

def hi : CString := .ofBytes [104, 105]

def tagged (p : CString) : List Char8 := labelBytes p.bytes

theorem written_label_consistent :
    Runs.Visits (step sampleCodes tagged) (Consistent tagged) afresh
        [.label hi true, .input .bang] ∧
      Runs.Steps (step sampleCodes tagged) (Whole sampleCodes tagged) afresh
        [.label hi true, .input .bang] ↔
    Runs.Steps (step sampleCodes tagged) (Careful sampleCodes tagged) afresh
      [.label hi true, .input .bang] :=
  consistent_run_iff sampleCodes tagged [] afresh [.label hi true, .input .bang] rfl

/-- A label that could not be written stays the label, and a bang then writes a seventh atom
    into a list of six. -/
theorem failed_label_kept :
    ∃ f, Runs.run (step sampleCodes tagged) afresh [.label hi false] = some f ∧
      f.m_label = hi ∧ f.labelOption = [] ∧ receive sampleCodes f .bang = .broken ∧
      setupUpdatePacket sampleCodes f.m_id .bang (List.replicate 6 .pointer) = none ∧
      ¬ Consistent tagged f ∧
      ¬ (Runs.Visits (step sampleCodes tagged) (Consistent tagged) afresh [.label hi false] ∧
        Runs.Steps (step sampleCodes tagged) (Whole sampleCodes tagged) afresh
          [.label hi false]) := by
  have broken : ¬ Consistent tagged ⟨1, .invalid, hi, []⟩ := fun consistent =>
    absurd (consistent rfl) (by decide)
  refine ⟨⟨1, .invalid, hi, []⟩, rfl, rfl, rfl, by decide, rfl, broken, ?_⟩
  intro both
  exact broken (both.1.2 _ rfl)

end LabelWrites
