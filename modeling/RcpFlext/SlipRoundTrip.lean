import RcpFlext.BytePorts
import RcpFlext.Library.Significand
import RcpFlext.Library.Slip

/- slipencoder into slipdecoder: what goes in as messages comes out as the same messages,
   however the patch cuts the atoms between them. rcp_slip is a parameter. -/
namespace SlipRoundTrip
open Atoms BytePorts Slip

/-- Pd has one kind of number, and what is set as an int there is a float. -/
inductive Host where
  | pd
  | max
  deriving DecidableEq, Repr

def carry : Host → Atom → Atom
  | .pd, .int v => .float (Binary32.ofInt v.toInt)
  | _, a => a

structure SlipEncoder where
  m_data : List Char8
  deriving DecidableEq, Repr

namespace SlipEncoder

def appendData (encoder : SlipEncoder) (data : Char8) : SlipEncoder :=
  { encoder with m_data := encoder.m_data ++ [data] }

/-- The list that leaves outlet 0; `rcp_slip_encode` calls `appendData` for each byte.
    Nothing where the loop would leave its array. -/
def mList (rcp_slip_encode : Packet → List Char8) (encoder : SlipEncoder) (argv : List Atom) :
    Option (SlipEncoder × List Atom) :=
  match BytePorts.SlipEncoder.mListData argv with
  | .on data =>
    let cleared := { encoder with m_data := [] }
    let filled := (rcp_slip_encode data).foldl appendData cleared
    some (filled, BytePorts.SlipEncoder.mListOutput filled.m_data)
  | _ => none

def run (rcp_slip_encode : Packet → List Char8) (encoder : SlipEncoder) :
    List (List Atom) → Option (SlipEncoder × List (List Atom))
  | [] => some (encoder, [])
  | argv :: messages => do
    let (next, out) ← mList rcp_slip_encode encoder argv
    let (last, outs) ← run rcp_slip_encode next messages
    return (last, out :: outs)

end SlipEncoder

namespace SlipDecoder

def bufferSize : List Atom → CInt → CInt
  | [], buffer_size => buffer_size
  | a :: argv, buffer_size =>
    bufferSize argv (if canbeInt a then getAInt a 1024 else buffer_size)

def create {S : Type} (rcp_slip_create : CInt → Option S) (argv : List Atom) : Except String S :=
  let buffer_size := bufferSize argv 1024
  if buffer_size.toInt ≤ 0 then .error "please provide a valid buffersize"
  else match rcp_slip_create buffer_size with
    | some m_slip => .ok m_slip
    | none => .error "could not allocate memory for slip"

def mFloat (f : Binary32.Word) : List Char8 :=
  let data := Binary32.toInt32 f
  if data.toInt < 256 ∧ 0 ≤ data.toInt then [toChar data] else []

/-- A list goes to `m_list`; a single number goes to `m_float`, an int converted for it. -/
inductive Input where
  | list (argv : List Atom)
  | single (a : Atom)
  deriving DecidableEq

def Input.atoms : Input → List Atom
  | .list argv => argv
  | .single a => [a]

def Input.bytes : Input → List Char8
  | .list argv => BytePorts.SlipDecoder.mList argv
  | .single a => if canbeFloat a then mFloat (getAFloat a) else []

def run {S : Type} (codec : Codec S) : S → List Input → S × List (List Atom)
  | m_slip, [] => (m_slip, [])
  | m_slip, input :: inputs =>
    let (next, packets) := codec.feed m_slip input.bytes
    let (last, outs) := run codec next inputs
    (last, packets.map BytePorts.SlipDecoder.dataOut ++ outs)

end SlipDecoder

theorem toInt32_ofInt_byte (c : Char8) :
    Binary32.toInt32 (Binary32.ofInt (c.setWidth 32).toInt) = c.setWidth 32 := by
  have small := c.isLt
  rw [Binary32.toInt32_ofInt_iff]
  apply Binary32.short_of_small
  rw [setUChar_value]
  omega

theorem getAInt_carry (host : Host) (c : Char8) (default : CInt) :
    getAInt (carry host (setUChar c)) default = c.setWidth 32 := by
  cases host with
  | pd => exact toInt32_ofInt_byte c
  | max => rfl

theorem canbeInt_carry (host : Host) (c : Char8) : canbeInt (carry host (setUChar c)) = true := by
  cases host <;> rfl

theorem lenientByte_carry (host : Host) (c : Char8) :
    lenientByte (carry host (setUChar c)) = .keep c := by
  have whole := lenientByte_keeps_bytes.byte c
  have int : canbeInt (setUChar c) = true := rfl
  have value : getAInt (setUChar c) (-1) = c.setWidth 32 := rfl
  simp only [lenientByte, canbeInt_carry, getAInt_carry, int, value] at whole ⊢
  exact whole

theorem mFloat_carry (host : Host) (c : Char8) :
    SlipDecoder.mFloat (getAFloat (carry host (setUChar c))) = [c] := by
  have small := c.isLt
  have same : getAFloat (carry host (setUChar c)) = Binary32.ofInt (c.setWidth 32).toInt := by
    cases host <;> rfl
  have range : (c.setWidth 32).toInt < 256 ∧ 0 ≤ (c.setWidth 32).toInt := by
    rw [setUChar_value]
    omega
  simp only [same, SlipDecoder.mFloat, toInt32_ofInt_byte, range, and_self, ↓reduceIte,
    toChar_setUChar]

theorem foldl_appendData (encoder : SlipEncoder) (bytes : List Char8) :
    bytes.foldl SlipEncoder.appendData encoder = ⟨encoder.m_data ++ bytes⟩ := by
  induction bytes generalizing encoder with
  | nil => simp
  | cons b bytes ih => simp [ih, SlipEncoder.appendData]

def numbers (host : Host) (data : List Char8) : List Atom :=
  (data.map setUChar).map (carry host)

theorem numbers_kept (host : Host) (data : List Char8) :
    BytePorts.SlipDecoder.mList (numbers host data) = data := by
  induction data with
  | nil => rfl
  | cons c data ih =>
    have step : numbers host (c :: data) = carry host (setUChar c) :: numbers host data := rfl
    simp [step, BytePorts.SlipDecoder.mList, lenientByte_carry, ih]

theorem mList_numbers (rcp_slip_encode : Packet → List Char8) (encoder : SlipEncoder) (host : Host)
    (message : List Char8) :
    SlipEncoder.mList rcp_slip_encode encoder (numbers host message) =
      some (⟨rcp_slip_encode message⟩, (rcp_slip_encode message).map setUChar) := by
  have handed : BytePorts.SlipEncoder.mListData (numbers host message) = .on message := by
    have kept := slipDecoder_mList_eq (numbers host message)
    rw [numbers_kept] at kept
    exact (throughBuffer_on_iff lenientByte _ _).mpr kept
  simp [SlipEncoder.mList, handed, foldl_appendData, BytePorts.SlipEncoder.mListOutput]

theorem run_numbers (rcp_slip_encode : Packet → List Char8) (encoder : SlipEncoder) (host : Host)
    (messages : List (List Char8)) :
    ∃ last, SlipEncoder.run rcp_slip_encode encoder (messages.map (numbers host)) =
      some (last, messages.map fun m => (rcp_slip_encode m).map setUChar) := by
  induction messages generalizing encoder with
  | nil => exact ⟨encoder, rfl⟩
  | cons m messages ih =>
    obtain ⟨last, rest⟩ := ih ⟨rcp_slip_encode m⟩
    refine ⟨last, ?_⟩
    simp [SlipEncoder.run, mList_numbers, rest]

theorem bytes_of_atoms (host : Host) (input : SlipDecoder.Input) (data : List Char8)
    (same : input.atoms = numbers host data) : input.bytes = data := by
  cases input with
  | list argv =>
    subst same
    exact numbers_kept host data
  | single a =>
    obtain ⟨c, one, first⟩ : ∃ c, data = [c] ∧ a = carry host (setUChar c) := by
      cases data with
      | nil => cases same
      | cons c data =>
        cases data with
        | nil => exact ⟨c, rfl, (List.cons.inj same).1⟩
        | cons d data => cases (List.cons.inj same).2
    have number : canbeFloat (carry host (setUChar c)) = true := by
      cases host <;> rfl
    rw [one, first, SlipDecoder.Input.bytes, if_pos number, mFloat_carry]

/-- Where the cut falls makes no difference to the bytes. -/
theorem bytes_of_cut (host : Host) (inputs : List SlipDecoder.Input) (data : List Char8)
    (cut : inputs.flatMap SlipDecoder.Input.atoms = numbers host data) :
    inputs.flatMap SlipDecoder.Input.bytes = data := by
  induction inputs generalizing data with
  | nil =>
    cases data with
    | nil => rfl
    | cons c data => cases cut
  | cons input inputs ih =>
    rw [List.flatMap_cons, numbers, List.map_map] at cut
    obtain ⟨front, back, whole, first, rest⟩ := List.append_eq_map_iff.mp cut
    rw [← List.map_map] at first rest
    rw [List.flatMap_cons, whole, bytes_of_atoms host input front first.symm,
      ih back rest.symm]

theorem run_eq_feed {S : Type} (codec : Codec S) (m_slip : S) (inputs : List SlipDecoder.Input) :
    (SlipDecoder.run codec m_slip inputs).2 =
      (codec.feed m_slip (inputs.flatMap SlipDecoder.Input.bytes)).2.map
        BytePorts.SlipDecoder.dataOut := by
  induction inputs generalizing m_slip with
  | nil => rfl
  | cons input inputs ih =>
    simp only [SlipDecoder.run, List.flatMap_cons, Codec.feed_append, List.map_append, ih]

theorem create_size {S : Type} {rcp_slip_create : CInt → Option S} {argv : List Atom} {m_slip : S}
    (created : SlipDecoder.create rcp_slip_create argv = .ok m_slip) :
    rcp_slip_create (SlipDecoder.bufferSize argv 1024) = some m_slip := by
  unfold SlipDecoder.create at created
  simp only at created
  split at created
  · cases created
  · split at created
    · rename_i found
      cases created
      exact found
    · cases created

theorem dataOut_bytes (data : List Char8) : ∀ a ∈ BytePorts.SlipDecoder.dataOut data, IsByte a := by
  intro a mem
  obtain ⟨c, -, same⟩ := List.mem_map.mp mem
  exact same ▸ setUChar_isByte c

/-- However the encoded stream is cut, the decoder is fed all of it. -/
theorem through_slip {S : Type} (codec : Codec S) (m_slip : S) (host : Host)
    (encoder : SlipEncoder) (messages : List (List Char8)) :
    ∃ last emitted,
      SlipEncoder.run codec.encode encoder (messages.map (numbers host)) = some (last, emitted) ∧
      ∀ inputs : List SlipDecoder.Input,
        inputs.flatMap SlipDecoder.Input.atoms = emitted.flatten.map (carry host) →
        (SlipDecoder.run codec m_slip inputs).2 =
          (codec.feed m_slip (codec.stream messages)).2.map BytePorts.SlipDecoder.dataOut := by
  obtain ⟨last, sent⟩ := run_numbers codec.encode encoder host messages
  refine ⟨last, _, sent, ?_⟩
  intro inputs cut
  have flat : (messages.map fun m => (codec.encode m).map setUChar).flatten =
      (codec.stream messages).map setUChar := by
    simp [Codec.stream, List.flatMap, List.map_flatten, Function.comp_def]
  rw [flat] at cut
  rw [run_eq_feed, bytes_of_cut host inputs (codec.stream messages) cut]

/-- Encoded by one object and decoded by another, the messages come out as they went in. -/
theorem round_trip {S : Type} (codec : Codec S) (rcp_slip_create : CInt → Option S)
    (fits : CInt → Packet → Prop)
    (delivers : ∀ size m_slip, rcp_slip_create size = some m_slip →
      codec.Delivers m_slip (fits size))
    (argv : List Atom) (m_slip : S) (host : Host) (encoder : SlipEncoder)
    (messages : List (List Char8))
    (created : SlipDecoder.create rcp_slip_create argv = .ok m_slip)
    (fit : ∀ m ∈ messages, fits (SlipDecoder.bufferSize argv 1024) m) :
    (∀ before, ∀ m ∈ messages, ∃ out,
      SlipEncoder.mList codec.encode before (numbers host m) = some (⟨codec.encode m⟩, out)) ∧
    ∃ last emitted,
      SlipEncoder.run codec.encode encoder (messages.map (numbers host)) = some (last, emitted) ∧
      ∀ inputs : List SlipDecoder.Input,
        inputs.flatMap SlipDecoder.Input.atoms = emitted.flatten.map (carry host) →
        (SlipDecoder.run codec m_slip inputs).2 = messages.map (fun m => m.map setUChar) ∧
        ∀ out ∈ (SlipDecoder.run codec m_slip inputs).2, ∀ a ∈ out, IsByte a := by
  refine ⟨fun before m _ => ⟨_, mList_numbers codec.encode before host m⟩, ?_⟩
  obtain ⟨last, emitted, sent, fed⟩ := through_slip codec m_slip host encoder messages
  refine ⟨last, emitted, sent, ?_⟩
  intro inputs cut
  have whole := delivers _ m_slip (create_size created)
  have delivered : (SlipDecoder.run codec m_slip inputs).2 =
      messages.map (fun m => m.map setUChar) := by
    rw [fed inputs cut, codec.feed_stream whole messages fit]
    rfl
  refine ⟨delivered, ?_⟩
  intro out mem
  rw [delivered] at mem
  obtain ⟨m, -, same⟩ := List.mem_map.mp mem
  exact same ▸ dataOut_bytes m

theorem help_message_round_trip :
    ∃ last emitted, SlipEncoder.run reference.encode ⟨[7]⟩
        ([[1, 2, 3, 192], [219]].map (numbers .pd)) = some (last, emitted) ∧
      ∀ inputs : List SlipDecoder.Input,
        inputs.flatMap SlipDecoder.Input.atoms = emitted.flatten.map (carry .pd) →
        (SlipDecoder.run reference ⟨1024, [], false⟩ inputs).2 =
          [[1, 2, 3, 192].map setUChar, [219].map setUChar] ∧
        ∀ out ∈ (SlipDecoder.run reference ⟨1024, [], false⟩ inputs).2, ∀ a ∈ out, IsByte a :=
  (round_trip reference (fun size => some ⟨size.toNat, [], false⟩)
    (fun size packet => packet ≠ [] ∧ packet.length ≤ size.toNat)
    (fun size _ made => Option.some.inj made ▸ reference_delivers size.toNat)
    [] ⟨1024, [], false⟩ .pd ⟨[7]⟩ [[1, 2, 3, 192], [219]] rfl (by decide)).2

end SlipRoundTrip
