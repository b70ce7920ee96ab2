import RcpFlext.BytePorts
import RcpFlext.Library.Framing

/- sizeprefix in front of sppp: each message goes out as its length and then itself, and
   one parser object takes both lists. The parser behind `rcp_sppp_data` is a parameter. -/
namespace SizePrefix
open Atoms BytePorts BigEndian Framing

namespace SizePrefixer

def sizeChars (argc : Nat) : List Char8 := store32 (BitVec.ofNat 32 argc)

/-- The lists in the order they leave: outlet 1, then outlet 0. -/
def mList (argv : List Atom) : List (List Atom) :=
  [(sizeChars argv.length).map setChar, argv]

end SizePrefixer

def packets {S : Type} (parser : Parser S) : S → List (List Atom) → List (List Char8)
  | _, [] => []
  | s, argv :: lists =>
    match SPPParser.mList argv with
    | .on data => (parser.feed s data).2 ++ packets parser (parser.feed s data).1 lists
    | _ => packets parser s lists

def lists (messages : List (List Char8)) : List (List Atom) :=
  messages.flatMap fun m => SizePrefixer.mList (m.map setUChar)

structure InSync {S : Type} (parser : Parser S) (messages : List (List Char8)) : Prop where
  whole : ∃ chunks : List (List Char8),
    (lists messages).map SPPParser.mList = chunks.map Handed.on ∧ chunks.flatten = stream messages
  delivered : packets parser parser.start (lists messages) = messages

def LowLength (m : List Char8) : Prop := ∀ c ∈ SizePrefixer.sizeChars m.length, c.toNat < 128

theorem spppList_on (argv : List Atom) : SPPParser.mList argv = .on (SlipDecoder.mList argv) :=
  (throughBuffer_on_iff lenientByte argv _).mpr (slipDecoder_mList_eq argv)

theorem unsigned_kept (data : List Char8) : SlipDecoder.mList (data.map setUChar) = data := by
  have survive := unsigned_survive lenientByte_keeps_bytes data
  rw [slipDecoder_mList_eq] at survive
  exact Except.ok.inj survive

theorem signed_kept_iff (data : List Char8) :
    SlipDecoder.mList (data.map setChar) = data ↔ ∀ c ∈ data, c.toNat < 128 := by
  have survive := signed_survive_iff lenientByte_keeps_bytes data
  rw [slipDecoder_mList_eq] at survive
  simpa using survive

theorem signed_kept_length_le (data : List Char8) :
    (SlipDecoder.mList (data.map setChar)).length ≤ data.length := by
  simpa using Cells.survivors_length_le (slipDecoder_mList_eq (data.map setChar))

/-- The parser loses a signed char exactly when it is short of a byte. -/
theorem signed_kept_full {data : List Char8}
    (full : (SlipDecoder.mList (data.map setChar)).length = data.length) :
    ∀ c ∈ data, c.toNat < 128 := by
  intro c mem
  have kept := Cells.survivors_full (slipDecoder_mList_eq (data.map setChar)) (by simpa using full)
  obtain ⟨v, verdict⟩ := kept (setChar c) (List.mem_map_of_mem mem)
  exact signed_char_kept lenientByte_keeps_bytes verdict

theorem lists_cons (m : List Char8) (messages : List (List Char8)) :
    lists (m :: messages) = (SizePrefixer.sizeChars m.length).map setChar ::
      m.map setUChar :: lists messages := by
  simp [lists, SizePrefixer.mList]

theorem packets_eq_run {S : Type} (parser : Parser S) (s : S) (argvs : List (List Atom)) :
    packets parser s argvs = parser.run s (argvs.map SlipDecoder.mList) := by
  induction argvs generalizing s with
  | nil => rfl
  | cons argv argvs ih => simp only [packets, spppList_on, ih, List.map_cons, Parser.run]

theorem handed_eq_on (argvs : List (List Atom)) :
    argvs.map SPPParser.mList = (argvs.map SlipDecoder.mList).map Handed.on := by
  simp [spppList_on]

def handed (messages : List (List Char8)) : List Char8 :=
  ((lists messages).map SlipDecoder.mList).flatten

theorem handed_cons (m : List Char8) (messages : List (List Char8)) :
    handed (m :: messages) = SlipDecoder.mList ((SizePrefixer.sizeChars m.length).map setChar) ++
      (m ++ handed messages) := by
  simp [handed, lists_cons, unsigned_kept]

theorem frame_length (m : List Char8) : (frame m).length = 4 + m.length := by
  simp [frame, store32_length]

theorem size_kept_le (m : List Char8) :
    (SlipDecoder.mList ((SizePrefixer.sizeChars m.length).map setChar)).length ≤ 4 :=
  signed_kept_length_le (SizePrefixer.sizeChars m.length)

theorem handed_length_le (messages : List (List Char8)) :
    (handed messages).length ≤ (stream messages).length := by
  induction messages with
  | nil => simp [handed, lists]
  | cons m messages ih =>
    have size := size_kept_le m
    rw [handed_cons, stream_cons]
    simp only [List.length_append, frame_length]
    omega

/-- A stream of full length has lost no byte of any prefix. -/
theorem low_of_full_length (messages : List (List Char8))
    (full : (handed messages).length = (stream messages).length) :
    ∀ m ∈ messages, LowLength m := by
  induction messages with
  | nil => simp
  | cons m messages ih =>
    have size := size_kept_le m
    have rest := handed_length_le messages
    rw [handed_cons, stream_cons] at full
    simp only [List.length_append, frame_length] at full
    intro n mem
    rcases List.mem_cons.mp mem with first | later
    · subst first
      apply signed_kept_full
      rw [SizePrefixer.sizeChars, store32_length]
      rw [SizePrefixer.sizeChars] at size full
      omega
    · exact ih (by omega) n later

theorem handed_of_low (messages : List (List Char8)) (low : ∀ m ∈ messages, LowLength m) :
    handed messages = stream messages := by
  induction messages with
  | nil => rfl
  | cons m messages ih =>
    have size := (signed_kept_iff _).mpr (low m (by simp))
    rw [handed_cons, stream_cons, size, ih fun n mem => low n (List.mem_cons_of_mem m mem)]
    simp [frame, SizePrefixer.sizeChars]

/-- The stream stays in sync exactly when no length has a byte of 128 or more. -/
theorem in_sync_iff {S : Type} (parser : Parser S) (buffer_size : CInt)
    (messages : List (List Char8)) (correct : parser.Correct buffer_size.toNat)
    (fits : ∀ m ∈ messages, m.length ≤ buffer_size.toNat) :
    InSync parser messages ↔ ∀ m ∈ messages, LowLength m := by
  constructor
  · rintro ⟨⟨chunks, same, whole⟩, _⟩
    rw [handed_eq_on] at same
    have chunks_eq := List.map_injective_iff.mpr (fun _ _ eq => Handed.on.inj eq) same
    exact low_of_full_length messages (by rw [handed, chunks_eq, whole])
  · intro low
    have whole := handed_of_low messages low
    refine ⟨⟨_, handed_eq_on _, whole⟩, ?_⟩
    rw [packets_eq_run]
    exact correct messages _ fits whole

theorem short_messages_in_sync : InSync reference [[7, 200, 0], []] :=
  (in_sync_iff reference 1024 [[7, 200, 0], []] (reference_correct (by decide))
    (by decide)).mpr (by unfold LowLength; decide)

/-- A message of 128 zero bytes reaches sppp without the last byte of its length. -/
theorem long_message_out_of_sync : ¬ InSync reference [List.replicate 128 0] := by
  rintro ⟨⟨chunks, same, whole⟩, _⟩
  rw [handed_eq_on] at same
  have chunks_eq := List.map_injective_iff.mpr (fun _ _ eq => Handed.on.inj eq) same
  have short : ((lists [List.replicate 128 0]).map SlipDecoder.mList).flatten.length = 131 := by
    decide +kernel
  rw [chunks_eq, whole] at short
  have long : (stream [List.replicate 128 0]).length = 132 := by decide +kernel
  omega

end SizePrefix
