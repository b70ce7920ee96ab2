import RcpFlext.SizePrefix
import RcpFlext.SlipRoundTrip

/- The framing inlets under any cut of their input: sppp takes a buffer for each list,
   slipdecoder one byte after another, and a single number goes to `m_float` of either. -/
namespace Chunking
open Atoms BytePorts Cells SlipRoundTrip

abbrev Message := SlipRoundTrip.SlipDecoder.Input

namespace SPPParser

def mFloat (f : Binary32.Word) : List (List Char8) :=
  let data := Binary32.toInt32 f
  if data.toInt < 256 ∧ 0 ≤ data.toInt then [[toChar data]] else []

/-- The calls of `rcp_sppp_data`; nothing where the loop leaves its buffer or returns early. -/
def hands : Message → Option (List (List Char8))
  | .list argv =>
    match BytePorts.SPPParser.mList argv with
    | .on data => some [data]
    | _ => none
  | .single a => some (if canbeFloat a then mFloat (getAFloat a) else [])

def run : List Message → Option (List (List Char8))
  | [] => some []
  | message :: messages => do
    let calls ← hands message
    let later ← run messages
    return calls ++ later

end SPPParser

/-- The number an atom stands for, cut toward zero; infinities and NaN have none. -/
def truncated : Atom → Option Int
  | .int v => some v.toInt
  | .float f => if Binary32.exponent f < 255 then some (Binary32.truncate f) else none
  | _ => none

def byteOf (n : Int) : Option Char8 := if 0 ≤ n ∧ n ≤ 255 then some (BitVec.ofInt 8 n) else none

def admissible (a : Atom) : Option Char8 := (truncated a).bind byteOf

/-- The loop of sppp's `m_list` has gone through `before`. The next index is the number of
    bytes written, and it lies in the buffer while an atom is left. -/
structure Compacted (before after : List Atom) (cells : List Char8) (offset : Int) : Prop where
  stands : fill lenientByte (before ++ after) 0 0 (List.replicate (before ++ after).length 0) =
    fill lenientByte after before.length offset cells
  size : (before.length : Int) - offset = (before.filterMap admissible).length
  bytes : cells.take (before.filterMap admissible).length = before.filterMap admissible
  index : after ≠ [] → 0 ≤ (before.length : Int) - offset ∧
    (before.length : Int) - offset < (before ++ after).length

example : admissible (.float 0xBF000000) = some 0 := by decide
example : admissible (.float 0x437FE666) = some 255 := by decide

theorem byteOf_outside {n : Int} (outside : n < 0 ∨ 255 < n) : byteOf n = none := by
  rw [byteOf, if_neg]
  omega

theorem byteOf_toChar (v : CInt) :
    byteOf v.toInt = if 0 ≤ v.toInt ∧ v.toInt < 256 then some (toChar v) else none := by
  by_cases byte : 0 ≤ v.toInt ∧ v.toInt < 256
  · have inside : 0 ≤ v.toInt ∧ v.toInt ≤ 255 := by omega
    rw [byteOf, if_pos inside, if_pos byte]
    congr 1
    apply BitVec.eq_of_toNat_eq
    have small := v.isLt
    have value : v.toInt = v.toNat := by
      rw [BitVec.toInt_eq_toNat_cond] at byte ⊢
      split
      · rfl
      · rename_i high
        rw [if_neg high] at byte
        omega
    rw [toChar, value, BitVec.ofInt_natCast, BitVec.toNat_ofNat, BitVec.toNat_setWidth]
  · rw [if_neg byte, byteOf_outside]
    omega

theorem byteOf_toInt32 (f : Binary32.Word) :
    byteOf (Binary32.toInt32 f).toInt = admissible (.float f) := by
  by_cases finite : Binary32.exponent f < 255
  · have number : admissible (.float f) = byteOf (Binary32.truncate f) := by
      simp only [admissible, truncated, if_pos finite, Option.bind_some]
    rw [number]
    by_cases fits : -2 ^ 31 ≤ Binary32.truncate f ∧ Binary32.truncate f < 2 ^ 31
    · have low : -2 ^ (32 - 1) ≤ Binary32.truncate f := fits.1
      have high : Binary32.truncate f < 2 ^ (32 - 1) := fits.2
      rw [Binary32.toInt32, if_pos ⟨finite, fits⟩, BitVec.toInt_ofInt_eq_self (by decide) low high]
    · rw [Binary32.toInt32, if_neg (fun both => fits both.2), byteOf_outside (.inl (by decide)),
        byteOf_outside]
      omega
  · have nothing : admissible (.float f) = none := by
      simp only [admissible, truncated, if_neg finite, Option.bind_none]
    rw [nothing, Binary32.toInt32, if_neg (fun both => finite both.1),
      byteOf_outside (.inl (by decide))]

theorem admissible_ofInt (v : CInt) :
    admissible (.float (Binary32.ofInt v.toInt)) = admissible (.int v) := by
  have number : admissible (.float (Binary32.ofInt v.toInt)) =
      byteOf (Binary32.truncate (Binary32.ofInt v.toInt)) := by
    simp only [admissible, truncated, if_pos (Binary32.ofInt_finite v), Option.bind_some]
  have int : admissible (.int v) = byteOf v.toInt := rfl
  rw [number, int]
  rcases Binary32.truncate_ofInt_or (Binary32.log2_toInt v) with same | large
  · rw [same]
  · rw [byteOf_outside, byteOf_outside]
    · omega
    · omega

theorem lenientByte_admissible (a : Atom) : lenientByte a =
    match admissible a with
    | some c => .keep c
    | none => .skip := by
  have number (n : Bool) (v : CInt) (is_number : n = true) : (if n then
      if 0 ≤ v.toInt ∧ v.toInt < 256 then Verdict.keep (toChar v) else .skip else .skip) =
      match byteOf v.toInt with
      | some c => (.keep c : Verdict Char8 String)
      | none => .skip := by
    rw [byteOf_toChar, if_pos is_number]
    split <;> rfl
  cases a with
  | int v => exact number _ v rfl
  | float f =>
    rw [← byteOf_toInt32]
    exact number _ (Binary32.toInt32 f) rfl
  | symbol s => rfl
  | pointer => rfl

theorem unsigned_byte_iff (v : CInt) : v.toNat ≤ 255 ↔ 0 ≤ v.toInt ∧ v.toInt < 256 := by
  have small := v.isLt
  rw [BitVec.toInt_eq_toNat_cond]
  split <;> omega

theorem strictByte_admissible (a : Atom) : strictByte a =
    match admissible a with
    | some c => .keep c
    | none => .abort (if canbeInt a then "invalid data in packet" else "malformed data") := by
  have number (v : CInt) :
      (if 255 < v.toNat then Verdict.abort "invalid data in packet" else .keep (toChar v)) =
      match byteOf v.toInt with
      | some c => (.keep c : Verdict Char8 String)
      | none => .abort "invalid data in packet" := by
    rw [byteOf_toChar]
    by_cases byte : 0 ≤ v.toInt ∧ v.toInt < 256
    · have small := (unsigned_byte_iff v).mpr byte
      rw [if_pos byte, if_neg (by omega)]
    · have large : ¬ v.toNat ≤ 255 := fun small => byte ((unsigned_byte_iff v).mp small)
      rw [if_neg byte, if_pos (by omega)]
  cases a with
  | int v => exact number v
  | float f =>
    rw [← byteOf_toInt32]
    exact number (Binary32.toInt32 f)
  | symbol s => rfl
  | pointer => rfl

theorem slip_mFloat_admissible (f : Binary32.Word) :
    SlipDecoder.mFloat f = (admissible (.float f)).toList := by
  rw [← byteOf_toInt32, byteOf_toChar, SlipDecoder.mFloat]
  by_cases byte : 0 ≤ (Binary32.toInt32 f).toInt ∧ (Binary32.toInt32 f).toInt < 256
  · rw [if_pos byte, if_pos byte.symm]
    rfl
  · rw [if_neg byte, if_neg (fun both => byte both.symm)]
    rfl

theorem sppp_mFloat_flatten (f : Binary32.Word) :
    (SPPParser.mFloat f).flatten = SlipDecoder.mFloat f := by
  rw [SPPParser.mFloat, SlipDecoder.mFloat]
  split <;> rfl

theorem mList_admissible (argv : List Atom) :
    BytePorts.SlipDecoder.mList argv = argv.filterMap admissible := by
  induction argv with
  | nil => rfl
  | cons a argv ih =>
    rw [BytePorts.SlipDecoder.mList, lenientByte_admissible]
    cases byte : admissible a with
    | some c => rw [List.filterMap_cons_some byte, ← ih]
    | none => rw [List.filterMap_cons_none byte, ← ih]

theorem single_admissible (a : Atom) :
    (if canbeFloat a then SlipDecoder.mFloat (getAFloat a) else []) = (admissible a).toList := by
  cases a with
  | int v => exact (slip_mFloat_admissible _).trans (congrArg _ (admissible_ofInt v))
  | float f => exact slip_mFloat_admissible f
  | symbol s => rfl
  | pointer => rfl

theorem bytes_admissible (message : Message) :
    message.bytes = message.atoms.filterMap admissible := by
  cases message with
  | list argv => exact mList_admissible argv
  | single a =>
    rw [SlipDecoder.Input.bytes, single_admissible, SlipDecoder.Input.atoms]
    cases byte : admissible a with
    | some c => rw [List.filterMap_cons_some byte]; rfl
    | none => rw [List.filterMap_cons_none byte]; rfl

theorem hands_bytes (message : Message) :
    ∃ calls, SPPParser.hands message = some calls ∧ calls.flatten = message.bytes := by
  cases message with
  | list argv =>
    refine ⟨[BytePorts.SlipDecoder.mList argv], ?_, by simp [SlipDecoder.Input.bytes]⟩
    rw [SPPParser.hands, SizePrefix.spppList_on]
  | single a =>
    refine ⟨_, rfl, ?_⟩
    rw [SlipDecoder.Input.bytes]
    split
    · exact sppp_mFloat_flatten _
    · rfl

theorem run_bytes (messages : List Message) :
    ∃ calls, SPPParser.run messages = some calls ∧
      calls.flatten = messages.flatMap SlipDecoder.Input.bytes := by
  induction messages with
  | nil => exact ⟨[], rfl, rfl⟩
  | cons message messages ih =>
    obtain ⟨calls, now, here⟩ := hands_bytes message
    obtain ⟨later, rest, there⟩ := ih
    refine ⟨calls ++ later, ?_, ?_⟩
    · rw [SPPParser.run, now, rest]
      rfl
    · rw [List.flatten_append, here, there, List.flatMap_cons]

theorem stream_admissible (messages : List Message) :
    messages.flatMap SlipDecoder.Input.bytes =
      (messages.flatMap SlipDecoder.Input.atoms).filterMap admissible := by
  induction messages with
  | nil => rfl
  | cons message messages ih =>
    rw [List.flatMap_cons, List.flatMap_cons, List.filterMap_append, ih, bytes_admissible]

theorem compaction (before after : List Atom) :
    ∃ cells offset, Compacted before after cells offset := by
  have loop := fill_from lenientByte before 0 0 [] (List.replicate (before ++ after).length 0) rfl
    (by simp)
  rw [slipDecoder_mList_eq before, mList_admissible] at loop
  obtain ⟨left, stands⟩ := loop
  have fewer : (before.filterMap admissible).length ≤ before.length := List.length_filterMap_le _ _
  refine ⟨before.filterMap admissible ++ left,
    before.length - (before.filterMap admissible).length, ?_, ?_, by simp, ?_⟩
  · have part := fill_append stands after
    simpa using part
  · omega
  · intro some_left
    have positive : 0 < after.length := List.length_pos_iff.mpr some_left
    rw [List.length_append]
    omega

/-- However the atoms are cut into messages, both objects pass on the same bytes. -/
theorem same_bytes (messages : List Message) :
    (∃ calls, SPPParser.run messages = some calls ∧
      calls.flatten = (messages.flatMap SlipDecoder.Input.atoms).filterMap admissible) ∧
    messages.flatMap SlipDecoder.Input.bytes =
      (messages.flatMap SlipDecoder.Input.atoms).filterMap admissible ∧
    ∀ before after : List Atom, ∃ cells offset, Compacted before after cells offset := by
  have stream := stream_admissible messages
  obtain ⟨calls, ran, bytes⟩ := run_bytes messages
  exact ⟨⟨calls, ran, bytes.trans stream⟩, stream, compaction⟩

end Chunking
