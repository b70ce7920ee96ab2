import RcpFlext.FormatFaithful
import RcpFlext.Library.Runs

/- rcp.format over a whole run of messages and inputs, the lists it sends joined into one
   stream of bytes. Each packet ends where its own grammar ends it. -/
namespace FormatStream
open Atoms BigEndian Format FormatPackets FormatOutput FormatFaithful Datatypes Prefixes

inductive Event where
  | message (m : Message)
  | input (i : Input)
  deriving DecidableEq

section
variable (codes : DatatypeCodes)

/-- A list is sent, or not; none where an array is overrun. -/
def step : Runs.Machine RcpFormat Event (Option (List Atom)) := fun f e =>
  match e with
  | .message m => some (m.apply f, none)
  | .input i =>
    match receive codes f i with
    | .silent => some (f, none)
    | .list atoms => some (f, some atoms)
    | .broken => none

/-- The packet an input stands for: the current id and label with the value it becomes. -/
def meaning : Runs.Machine RcpFormat Event (Option Packet) := fun f e =>
  match e with
  | .message m => some (m.apply f, none)
  | .input i => some (f, (coerced f i).map fun v => ⟨f.m_id, v, currentLabel f⟩)

def lists : RcpFormat → List Event → List (List Atom) :=
  Runs.told (step codes) fun _ _ next => next.2.toList

def packets : RcpFormat → List Event → List Packet :=
  Runs.told meaning fun _ _ next => next.2.toList

def bytesOf (p : Packet) : List Byte :=
  match p.label with
  | none => plainBytes codes p.id p.value
  | some label => updateBytes codes p.id p.value label

/-- The label options are written as they should be, no text has a char a signed one cannot
    hold, and an `int` counts the atoms of the packet. -/
def Careful (f : RcpFormat) : Event → Prop
  | .message m => Succeeds m
  | .input i => Clean f i ∧
      ∀ v, coerced f i = some v → (bytesOf codes ⟨f.m_id, v, currentLabel f⟩).length < 2 ^ 31

structure Plain (p : Packet) : Prop where
  id : p.id ≠ 0
  label : ∀ label, p.label = some label → ∀ c ∈ label, c ≠ 0
  value : ∀ s, p.value = .string s → ∀ c ∈ s, c ≠ 0

end

structure Kept (f : RcpFormat) : Prop where
  written : Written f
  id : f.m_id ≠ 0

theorem id_kept {v : CInt} (some_id : v ≠ 0) (high : ¬ 32767 < v.toInt)
    (low : ¬ v.toInt < -32768) : v.setWidth 16 ≠ (0 : BitVec 16) := by
  intro zero
  apply some_id
  have bits := congrArg BitVec.toNat zero
  have small := v.isLt
  apply BitVec.eq_of_toNat_eq
  rw [BitVec.toNat_setWidth] at bits
  rw [BitVec.toInt_eq_toNat_cond] at high low
  have none16 : (0 : BitVec 16).toNat = 0 := rfl
  have none32 : (0 : BitVec 32).toNat = 0 := rfl
  split at high <;> omega

theorem create_kept {argv : List Atom} {f : RcpFormat} (created : create argv = .ok f) :
    Kept f := by
  refine ⟨create_written created, ?_⟩
  unfold create at created
  split at created
  · cases created
    decide
  · split at created
    · contradiction
    · simp only at created
      split at created
      · contradiction
      split at created
      · contradiction
      split at created
      · contradiction
      cases created
      exact id_kept ‹_› ‹_› ‹_›

theorem apply_kept {f : RcpFormat} {m : Message} (succeeds : Succeeds m) (kept : Kept f) :
    Kept (m.apply f) := by
  refine ⟨apply_written succeeds kept.written, ?_⟩
  cases m with
  | set v =>
    simp only [Message.apply]
    split
    · rename_i next set
      simp only [mSetId] at set
      split at set
      · contradiction
      split at set
      · contradiction
      split at set
      · contradiction
      cases set
      exact id_kept ‹_› ‹_› ‹_›
    · exact kept.id
  | type sym => exact kept.id
  | label p stored =>
    simp only [Message.apply, setLabel]
    split <;> exact kept.id
  | clearlabel => exact kept.id

section
variable (codes : DatatypeCodes)

theorem bytesOf_packet (f : RcpFormat) (v : Value) :
    bytesOf codes ⟨f.m_id, v, currentLabel f⟩ = packetBytes codes f v := by
  unfold bytesOf currentLabel packetBytes
  split <;> split at * <;> simp_all

/-- A careful step sends the bytes of the packet it stands for, and nothing else. -/
theorem step_careful {f : RcpFormat} {e : Event} (written : Written f)
    (careful : Careful codes f e) :
    step codes f e = (meaning f e).map fun next =>
      (next.1, next.2.map fun p => (bytesOf codes p).map setUChar) := by
  cases e with
  | message m => rfl
  | input i =>
    obtain ⟨clean, room⟩ := careful
    cases value : coerced f i with
    | none => simp [step, meaning, receive_silent codes f value, value]
    | some v =>
      have short := fun s symbol => (clean.2 s symbol).2
      have low := coerced_low value fun s symbol => (clean.2 s symbol).1
      have atoms := packetAtoms_clean codes written clean.1 low
      have fits := room v value
      rw [bytesOf_packet] at fits
      have sends : receive codes f i = .list ((packetBytes codes f v).map setUChar) := by
        rw [receive_sent codes f value (written_labelled written) short, sent, atoms, toOutList,
          if_pos (by rw [List.length_map]; exact_mod_cast fits)]
      simp [step, meaning, sends, value, bytesOf_packet]

theorem step_kept {f : RcpFormat} {e : Event} {next : RcpFormat × Option Packet} (kept : Kept f)
    (careful : Careful codes f e) (stepped : meaning f e = some next) : Kept next.1 := by
  cases e with
  | message m =>
    cases stepped
    exact apply_kept careful kept
  | input i =>
    cases stepped
    exact kept

theorem meaning_runs (f : RcpFormat) (es : List Event) : ∃ t, Runs.run meaning f es = some t := by
  induction es generalizing f with
  | nil => exact ⟨f, rfl⟩
  | cons e es ih => cases e <;> exact ih _

theorem lists_careful {f : RcpFormat} {es : List Event} (kept : Kept f)
    (careful : Runs.Steps meaning (Careful codes) f es) :
    Runs.run (step codes) f es = Runs.run meaning f es ∧
      lists codes f es = (packets f es).map fun p => (bytesOf codes p).map setUChar := by
  induction es generalizing f with
  | nil => exact ⟨rfl, rfl⟩
  | cons e es ih =>
    obtain ⟨next, means⟩ : ∃ next, meaning f e = some next := by cases e <;> exact ⟨_, rfl⟩
    obtain ⟨now, later⟩ := careful next means
    have stepped := step_careful codes kept.written now
    rw [means, Option.map_some] at stepped
    obtain ⟨same, rest⟩ := ih (step_kept codes kept now means) later
    constructor
    · rw [Runs.run, Runs.run, stepped, means]
      exact same
    · rw [lists, packets, Runs.told_cons stepped, Runs.told_cons means, List.map_append, ← packets,
        ← lists, rest]
      cases next.2 <;> rfl

theorem coerced_terminated {f : RcpFormat} {i : Input} {s : List Char8}
    (value : coerced f i = some (.string s)) : ∀ c ∈ s, c ≠ 0 := by
  have text (s : List Char8) (plain : Decimal.Plain s) : ∀ c ∈ s, c ≠ 0 := by
    intro c mem zero
    have positive := (plain c mem).1
    rw [zero] at positive
    contradiction
  cases i with
  | bang => simp only [coerced] at value; split at value <;> simp_all
  | int w =>
    simp only [coerced] at value
    split at value <;> cases value
    exact text _ (Decimal.signed_plain _)
  | float w =>
    simp only [coerced] at value
    split at value <;> cases value
    exact text _ (Binary32.fixed_plain w)
  | symbol t =>
    cases coerced_symbol value
    exact t.terminated

theorem packet_plain {f : RcpFormat} {i : Input} {v : Value} (kept : Kept f)
    (value : coerced f i = some v) : Plain ⟨f.m_id, v, currentLabel f⟩ where
  id := kept.id
  label := by
    intro label eq
    unfold currentLabel at eq
    split at eq
    · contradiction
    · cases eq
      exact f.m_label.terminated
  value := by
    intro s eq
    subst eq
    exact coerced_terminated value

theorem packets_sound {f : RcpFormat} {es : List Event} (kept : Kept f)
    (careful : Runs.Steps meaning (Careful codes) f es) :
    ∀ p ∈ packets f es, Plain p ∧ decode codes (bytesOf codes p) = some p := by
  induction es generalizing f with
  | nil =>
    intro p none
    contradiction
  | cons e es ih =>
    obtain ⟨next, means⟩ : ∃ next, meaning f e = some next := by cases e <;> exact ⟨_, rfl⟩
    obtain ⟨now, later⟩ := careful next means
    intro p among
    rw [packets, Runs.told_cons means] at among
    rcases List.mem_append.mp among with here | there
    · cases e with
      | message m =>
        cases means
        contradiction
      | input i =>
        cases means
        obtain ⟨v, value, eq⟩ := Option.map_eq_some_iff.mp (Option.mem_toList.mp here)
        subst eq
        refine ⟨packet_plain kept value, ?_⟩
        rw [bytesOf_packet]
        exact packetBytes_decode codes now.1.1.1
          (coerced_short value fun s symbol => (now.1.2 s symbol).2)
    · exact ih (step_kept codes kept now means) later p there

end

theorem setUChar_injective : Function.Injective setUChar := by
  intro c d same
  injection same with wide
  rw [← toChar_setUChar c, wide, toChar_setUChar]

instance (s : List Char8) : Decidable (Low s) :=
  inferInstanceAs (Decidable (∀ c ∈ s, c.toNat < 128))

instance (f : RcpFormat) : (i : Input) → Decidable (Clean f i)
  | .symbol s => decidable_of_iff ((f.m_label.bytes.length < 128 ∧ Low f.m_label.bytes) ∧
      Low s.bytes ∧ s.bytes.length < 2 ^ 31) (by simp [Clean])
  | .bang | .int _ | .float _ =>
    decidable_of_iff (f.m_label.bytes.length < 128 ∧ Low f.m_label.bytes) (by simp [Clean])

instance : (m : Message) → Decidable (Succeeds m)
  | .label p written => inferInstanceAs (Decidable (written = some (labelBytes p.bytes)))
  | .set _ | .type _ | .clearlabel => isTrue trivial

instance (codes : DatatypeCodes) (f : RcpFormat) : (e : Event) → Decidable (Careful codes f e)
  | .message m => inferInstanceAs (Decidable (Succeeds m))
  | .input i => decidable_of_iff (Clean f i ∧ ∀ v ∈ (coerced f i).toList,
      (bytesOf codes ⟨f.m_id, v, currentLabel f⟩).length < 2 ^ 31) (by simp [Careful])

/-- Whatever two careful runs send can be told apart from the joined bytes alone: where these
    are the same, the packets are, one by one. -/
theorem stream_determines_packets (codes : DatatypeCodes) (argv argv' : List Atom)
    (f f' : RcpFormat) (es es' : List Event) (created : create argv = .ok f)
    (created' : create argv' = .ok f')
    (careful : Runs.Steps meaning (Careful codes) f es)
    (careful' : Runs.Steps meaning (Careful codes) f' es')
    (same : (lists codes f es).flatten = (lists codes f' es').flatten) :
    packets f es = packets f' es' ∧ lists codes f es = lists codes f' es' := by
  have kept := create_kept created
  have kept' := create_kept created'
  obtain ⟨_, sends⟩ := lists_careful codes kept careful
  obtain ⟨_, sends'⟩ := lists_careful codes kept' careful'
  have joined (ps : List Packet) : (ps.map fun p => (bytesOf codes p).map setUChar).flatten =
      (ps.flatMap (bytesOf codes)).map setUChar := by
    simp [List.flatMap, List.map_flatten, Function.comp_def]
  rw [sends, sends', joined, joined] at same
  have equal : packets f es = packets f' es' :=
    stream_unique (takePacket codes) (bytesOf codes)
      (fun p => decode codes (bytesOf codes p) = some p) rfl
      (fun p decoded => takePacket_append codes decoded)
      (fun p mem => (packets_sound codes kept careful p mem).2)
      (fun p mem => (packets_sound codes kept' careful' p mem).2)
      (List.map_injective_iff.mpr setUChar_injective same)
  exact ⟨equal, by rw [sends, sends', equal]⟩

def patch : List Event :=
  [.message (.type (.ofBytes [115])),
    .message (.label (.ofBytes [104, 105]) (some [33, 97, 110, 121, 2, 104, 105, 0])),
    .message (.set 7), .input (.symbol (.ofBytes [111, 107])), .message .clearlabel,
    .message (.type (.ofBytes [105])), .input (.int 300)]

def otherPatch : List Event :=
  [.message (.set 7), .message (.type (.ofBytes [115])), .input .bang,
    .message (.label (.ofBytes [104, 105]) (some [33, 97, 110, 121, 2, 104, 105, 0])),
    .input (.symbol (.ofBytes [111, 107])), .message (.type (.ofBytes [105])),
    .message .clearlabel, .input (.int 300)]

theorem afresh_kept : Kept afresh := create_kept (show create [] = .ok afresh from rfl)

theorem patch_careful : Runs.Steps meaning (Careful sampleCodes) afresh patch := by decide

theorem otherPatch_careful : Runs.Steps meaning (Careful sampleCodes) afresh otherPatch := by decide

theorem patches_joined : (lists sampleCodes afresh patch).flatten =
    (lists sampleCodes afresh otherPatch).flatten := by
  rw [(lists_careful sampleCodes afresh_kept patch_careful).2,
    (lists_careful sampleCodes afresh_kept otherPatch_careful).2]
  decide

theorem patches_send_the_same : packets afresh patch = packets afresh otherPatch ∧
    lists sampleCodes afresh patch = lists sampleCodes afresh otherPatch :=
  stream_determines_packets sampleCodes [] [] afresh afresh patch otherPatch rfl rfl patch_careful
    otherPatch_careful patches_joined

end FormatStream
