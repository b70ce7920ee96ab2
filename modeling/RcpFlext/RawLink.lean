import RcpFlext.SlipRoundTrip

/- A raw server and a raw client in two patches: what one sends leaves its data outlet and goes
   through slipencoder, the stream is cut anywhere, and slipdecoder brings it to the raw inlet
   of the other. Both ends share these methods. -/
namespace RawLink
open Atoms Cells BytePorts SlipRoundTrip

/-- The transporter of a raw object. rcp-c sets `received` when it gets the transporter. -/
structure PdTransporter where
  m_transporter : Option Unit
  received : Bool
  deriving DecidableEq

def PdTransporter.pushData (t : PdTransporter) (data : List Char8) : List (List Char8) :=
  if t.m_transporter.isSome ∧ data ≠ [] ∧ t.received = true then [data] else []

def rawDataList (t : PdTransporter) (argv : List Atom) : List (List Char8) :=
  match ParameterServerClientBase.rawDataList argv with
  | .on data => t.pushData data
  | .dropped _ | .undefined => []

def sent (host : Host) (data : List Char8) : List Atom :=
  (ParameterServerClientBase.dataOut data).map (carry host)

def pushed (host : Host) (t : PdTransporter) (lists : List (List Atom)) : List (List Char8) :=
  lists.flatMap fun atoms => rawDataList t (atoms.map (carry host))

/-- What is left of a packet: the bytes without their top bit. -/
def low (data : List Char8) : List Char8 := data.filter fun c => c.toNat < 128

section
variable (host : Host)

theorem getAInt_carry_char (c : Char8) :
    getAInt (carry host (setChar c)) (-1) = c.signExtend 32 := by
  cases host with
  | max => rfl
  | pd =>
    apply (Binary32.toInt32_ofInt_iff _).mpr
    apply Binary32.short_of_small
    have small := c.isLt
    rw [setChar_value]
    split <;> omega

theorem lenientByte_char (c : Char8) :
    lenientByte (carry host (setChar c)) = if c.toNat < 128 then .keep c else .skip := by
  by_cases small : c.toNat < 128
  · rw [if_pos small, setChar_eq_setUChar small, lenientByte_carry]
  · have number : canbeInt (carry host (setChar c)) = true := by cases host <;> rfl
    have negative : ¬ (0 ≤ (c.signExtend 32).toInt ∧ (c.signExtend 32).toInt < 256) := by
      have wide := c.isLt
      rw [setChar_value, if_neg small]
      omega
    rw [if_neg small]
    simp only [lenientByte, number, getAInt_carry_char, negative, ↓reduceIte]

theorem sent_kept (data : List Char8) : BytePorts.SlipDecoder.mList (sent host data) = low data := by
  induction data with
  | nil => rfl
  | cons c data ih =>
    have first : sent host (c :: data) = carry host (setChar c) :: sent host data := rfl
    by_cases small : c.toNat < 128
    · simp [first, BytePorts.SlipDecoder.mList, lenientByte_char, small, ih, low]
    · simp [first, BytePorts.SlipDecoder.mList, lenientByte_char, small, ih, low]

theorem mList_sent (encode : Slip.Packet → List Char8) (encoder : SlipEncoder)
    (data : List Char8) : SlipEncoder.mList encode encoder (sent host data) =
      SlipEncoder.mList encode encoder (numbers host (low data)) := by
  have same : BytePorts.SlipEncoder.mListData (sent host data) =
      BytePorts.SlipEncoder.mListData (numbers host (low data)) := by
    unfold BytePorts.SlipEncoder.mListData
    rw [throughBuffer_eq, throughBuffer_eq, slipDecoder_mList_eq, slipDecoder_mList_eq, sent_kept,
      numbers_kept]
  rw [SlipEncoder.mList, same, SlipEncoder.mList]

theorem run_sent (encode : Slip.Packet → List Char8) (encoder : SlipEncoder)
    (packets : List (List Char8)) : SlipEncoder.run encode encoder (packets.map (sent host)) =
      SlipEncoder.run encode encoder ((packets.map low).map (numbers host)) := by
  induction packets generalizing encoder with
  | nil => rfl
  | cons data packets ih => simp only [List.map_cons, SlipEncoder.run, mList_sent, ih]

theorem rawByte_carry (c : Char8) : rawByte (carry host (setUChar c)) = .keep c := by
  have whole := rawByte_keeps_bytes.byte c
  have int : canbeInt (setUChar c) = true := rfl
  have value : getAInt (setUChar c) (-1) = c.setWidth 32 := rfl
  simp only [rawByte, canbeInt_carry, getAInt_carry, int, value] at whole ⊢
  exact whole

theorem rawDataList_numbers (t : PdTransporter) (data : List Char8) :
    rawDataList t (numbers host data) = t.pushData data := by
  have survive : survivors rawByte (numbers host data) = .ok data := by
    rw [numbers, List.map_map]
    exact survivors_map (rawByte_carry host) data
  have taken : ParameterServerClientBase.rawDataList (numbers host data) = .on data :=
    (throughBuffer_on_iff rawByte _ _).mpr survive
  rw [rawDataList, taken]

theorem pushed_numbers {t : PdTransporter} (ready : t = ⟨some (), true⟩)
    (packets : List (List Char8)) :
    pushed host t (packets.map BytePorts.SlipDecoder.dataOut) = packets.filter (· ≠ []) := by
  induction packets with
  | nil => rfl
  | cons data packets ih =>
    have first : pushed host t ((data :: packets).map BytePorts.SlipDecoder.dataOut) =
        rawDataList t (numbers host data) ++
          pushed host t (packets.map BytePorts.SlipDecoder.dataOut) := rfl
    rw [first, rawDataList_numbers, ih, ready]
    by_cases none : data = []
    · simp [PdTransporter.pushData, none]
    · simp [PdTransporter.pushData, none]

end

theorem low_whole (data : List Char8) : low data = data ↔ ∀ c ∈ data, c.toNat < 128 := by
  simp [low, List.filter_eq_self]

theorem all_whole (packets : List (List Char8)) :
    (packets.map low).filter (· ≠ []) = packets ↔
      ∀ m ∈ packets, m ≠ [] ∧ ∀ c ∈ m, c.toNat < 128 := by
  constructor
  · intro whole
    have full : ((packets.map low).filter (· ≠ [])).length = (packets.map low).length := by
      rw [whole, List.length_map]
    have kept := List.length_filter_eq_length_iff.mp full
    have same : packets.map low = packets := by
      rw [List.filter_eq_self.mpr kept] at whole
      exact whole
    intro m mem
    have left : low m = m := List.map_inj_left.mp (same.trans (List.map_id packets).symm) m mem
    have some_byte := kept (low m) (List.mem_map_of_mem mem)
    rw [left] at some_byte
    exact ⟨by simpa using some_byte, (low_whole m).mp left⟩
  · intro each
    have same : packets.map low = packets :=
      (List.map_congr_left fun m mem => (low_whole m).mpr (each m mem).2).trans (List.map_id packets)
    rw [same]
    exact List.filter_eq_self.mpr fun m mem => by simpa using (each m mem).1

/-- Where the packets fit the decoder's buffer without their bytes from 128 on, the other end
    gets them so, in order and however the stream is cut, less those that are left empty; so it
    gets the packets that were sent exactly when none is empty or has such a byte. An empty
    packet may or may not come out of rcp_slip. -/
theorem arrives_low {S : Type} (codec : Slip.Codec S) (rcp_slip_create : CInt → Option S)
    (fits : CInt → Slip.Packet → Prop)
    (delivers : ∀ size m_slip, rcp_slip_create size = some m_slip →
      codec.DeliversThose (fun packet => packet ≠ []) m_slip (fits size))
    (argv : List Atom) (m_slip : S) (host : Host) (encoder : SlipEncoder) (t : PdTransporter)
    (packets : List (List Char8)) (created : SlipDecoder.create rcp_slip_create argv = .ok m_slip)
    (fit : ∀ m ∈ packets, fits (SlipDecoder.bufferSize argv 1024) (low m))
    (ready : t = ⟨some (), true⟩) :
    ∃ last emitted,
      SlipEncoder.run codec.encode encoder (packets.map (sent host)) = some (last, emitted) ∧
      ∀ inputs : List SlipDecoder.Input,
        inputs.flatMap SlipDecoder.Input.atoms = emitted.flatten.map (carry host) →
        pushed host t (SlipDecoder.run codec m_slip inputs).2 =
          (packets.map low).filter (· ≠ []) ∧
        (pushed host t (SlipDecoder.run codec m_slip inputs).2 = packets ↔
          ∀ m ∈ packets, m ≠ [] ∧ ∀ c ∈ m, c.toNat < 128) := by
  have fit_low : ∀ m ∈ packets.map low, fits (SlipDecoder.bufferSize argv 1024) m :=
    List.forall_mem_map.mpr fit
  have passes := delivers _ m_slip (create_size created)
  obtain ⟨last, emitted, ran, fed⟩ :=
    through_slip codec m_slip host encoder (packets.map low)
  refine ⟨last, emitted, (run_sent host codec.encode encoder packets).trans ran, ?_⟩
  intro inputs cut
  have arrived : pushed host t (SlipDecoder.run codec m_slip inputs).2 =
      (packets.map low).filter (· ≠ []) := by
    rw [fed inputs cut, pushed_numbers host ready, codec.feed_stream_those passes _ fit_low]
  exact ⟨arrived, arrived ▸ all_whole packets⟩

theorem high_byte_missing :
    ∃ last emitted,
      SlipEncoder.run Slip.reference.encode ⟨[]⟩ ([[4, 0], [195], [195, 7]].map (sent .pd)) =
        some (last, emitted) ∧
      ∀ inputs : List SlipDecoder.Input,
        inputs.flatMap SlipDecoder.Input.atoms = emitted.flatten.map (carry .pd) →
        pushed .pd ⟨some (), true⟩ (SlipDecoder.run Slip.reference ⟨1024, [], false⟩ inputs).2 =
          ([[4, 0], [195], [195, 7]].map low).filter (· ≠ []) ∧
        (pushed .pd ⟨some (), true⟩ (SlipDecoder.run Slip.reference ⟨1024, [], false⟩ inputs).2 =
          [[4, 0], [195], [195, 7]] ↔ ∀ m ∈ ([[4, 0], [195], [195, 7]] : List (List Char8)),
            m ≠ [] ∧ ∀ c ∈ m, c.toNat < 128) :=
  arrives_low Slip.reference (fun size => some ⟨size.toNat, [], false⟩)
    (fun size packet => packet.length ≤ size.toNat)
    (fun size _ made => Option.some.inj made ▸ Slip.reference_passes size.toNat)
    [] ⟨1024, [], false⟩ .pd ⟨[]⟩ ⟨some (), true⟩ [[4, 0], [195], [195, 7]] rfl (by decide) rfl

end RawLink
