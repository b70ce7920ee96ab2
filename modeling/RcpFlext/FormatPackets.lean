import RcpFlext.Format
import RcpFlext.Library.Prefixes

/- The packet grammar of rcp.format's comments, read back:
     6 id id type value
     4 18 id id type 0 [32 value] 33 any len label 0 0 0
   where a bang has no value and a string starts with its four-byte length. -/
namespace FormatPackets
open Atoms Cells BigEndian BytePorts Format Datatypes Prefixes Reader

inductive Value where
  | bang
  | boolean (b : Bool)
  | int32 (v : CInt)
  | float32 (v : Binary32.Word)
  | string (s : List Char8)
  deriving DecidableEq

def Value.datatype : Value → Datatype
  | .bang => .bang
  | .boolean _ => .boolean
  | .int32 _ => .int32
  | .float32 _ => .float32
  | .string _ => .string

structure Packet where
  id : BitVec 16
  value : Value
  label : Option (List Char8)
  deriving DecidableEq

def takeByte : Reader Byte Byte
  | [] => none
  | b :: rest => some (b, rest)

def takeId : Reader Byte (BitVec 16) := fixed 2 load16

def takeWord : Reader Byte (BitVec 32) := fixed 4 load32

variable (codes : DatatypeCodes)

def takeValue (type : Byte) : Reader Byte Value :=
  if type = codes.code .bang then give .bang
  else if type = codes.code .boolean then andThen takeByte fun b =>
    if b = 0 then give (.boolean false) else if b = 1 then give (.boolean true) else refuse
  else if type = codes.code .int32 then andThen takeWord fun v => give (.int32 v)
  else if type = codes.code .float32 then andThen takeWord fun v => give (.float32 v)
  else if type = codes.code .string then andThen takeWord fun n =>
    andThen (takeN n.toNat) fun s => give (.string s)
  else refuse

/-- Every value but a bang has a mark before it. -/
def takeMark (type : Byte) : Reader Byte Unit :=
  if type = codes.code .bang then give () else expect [32]

def takeLabel : Reader Byte (List Char8) :=
  andThen (expect [33, 97, 110, 121]) fun _ => andThen takeByte fun len =>
    andThen (takeN len.toNat) fun label => andThen (expect [0, 0, 0]) fun _ => give label

def takePlain : Reader Byte Packet :=
  andThen takeId fun id => andThen takeByte fun type =>
    andThen (takeValue codes type) fun value => give ⟨id, value, none⟩

def takeUpdate : Reader Byte Packet :=
  andThen (expect [18]) fun _ => andThen takeId fun id => andThen takeByte fun type =>
    andThen (expect [0]) fun _ => andThen (takeMark codes type) fun _ =>
      andThen (takeValue codes type) fun value => andThen takeLabel fun label =>
        give ⟨id, value, some label⟩

def takePacket : Reader Byte Packet :=
  andThen takeByte fun command =>
    if command = 6 then takePlain codes else if command = 4 then takeUpdate codes else refuse

def decode (bytes : List Byte) : Option Packet :=
  (takePacket codes bytes).bind fun taken => if taken.2 = [] then some taken.1 else none

def valueBytes : Value → List Byte
  | .bang => []
  | .boolean b => [if b then 1 else 0]
  | .int32 v => store32 v
  | .float32 v => store32 v
  | .string s => store32 (BitVec.ofNat 32 s.length) ++ s

/-- What `rcp_option_write` stores for a label. -/
def labelBytes (p : List Char8) : List Char8 :=
  [33, 97, 110, 121, BitVec.ofNat 8 p.length] ++ p ++ [0]

def plainBytes (id : BitVec 16) (v : Value) : List Byte :=
  [6] ++ store16 id ++ [codes.code v.datatype] ++ valueBytes v

def updateBytes (id : BitVec 16) (v : Value) (p : List Char8) : List Byte :=
  [4, 18] ++ store16 id ++ [codes.code v.datatype, 0] ++
    (if v = .bang then [] else 32 :: valueBytes v) ++ (labelBytes p ++ [0, 0])

theorem decode_eq_some {bytes : List Byte} {p : Packet} :
    decode codes bytes = some p ↔ takePacket codes bytes = some (p, []) := by
  unfold decode
  cases takePacket codes bytes with
  | none => simp
  | some taken =>
    obtain ⟨q, rest⟩ := taken
    by_cases ends : rest = [] <;> simp [ends]

/- Written and read back. -/

theorem takeByte_cons (b : Byte) (rest : List Byte) : takeByte (b :: rest) = some (b, rest) := rfl

theorem takeId_append (id : BitVec 16) (rest : List Byte) :
    takeId (store16 id ++ rest) = some (id, rest) :=
  fixed_append (store16_length id) (load16_store16 id) rest

theorem takeWord_append (v : BitVec 32) (rest : List Byte) :
    takeWord (store32 v ++ rest) = some (v, rest) :=
  fixed_append (store32_length v) (load32_store32 v) rest

theorem takeValue_valueBytes (v : Value) (rest : List Byte)
    (short : ∀ s, v = .string s → s.length < 2 ^ 32) :
    takeValue codes (codes.code v.datatype) (valueBytes v ++ rest) = some (v, rest) := by
  have apart : ∀ s t : Datatype, codes.code s = codes.code t ↔ s = t :=
    fun s t => codes.distinct.eq_iff
  cases v with
  | bang => simp [takeValue, Value.datatype, valueBytes, give]
  | boolean b =>
    cases b <;> simp [takeValue, Value.datatype, valueBytes, apart, andThen, takeByte, give]
  | int32 v | float32 v =>
    simp only [takeValue, Value.datatype, valueBytes, apart, reduceCtorEq, ↓reduceIte]
    rw [andThen_eq (takeWord_append v rest)]
    rfl
  | string s =>
    have length : (BitVec.ofNat 32 s.length).toNat = s.length := by
      have := short s rfl
      simp only [BitVec.toNat_ofNat]
      omega
    simp only [takeValue, Value.datatype, valueBytes, apart, reduceCtorEq, ↓reduceIte,
      List.append_assoc]
    rw [andThen_eq (takeWord_append _ (s ++ rest)), length, andThen_eq (takeN_append s rest)]
    rfl

theorem takeLabel_labelBytes (p : List Char8) (tiny : p.length < 256) :
    takeLabel (labelBytes p ++ [0, 0]) = some (p, []) := by
  have length : (BitVec.ofNat 8 p.length).toNat = p.length := by
    simp only [BitVec.toNat_ofNat]
    omega
  have shape : labelBytes p ++ [0, 0] =
      [33, 97, 110, 121] ++ (BitVec.ofNat 8 p.length :: (p ++ [0, 0, 0])) := by
    simp [labelBytes]
  rw [takeLabel, shape, andThen_eq (expect_append _ _), andThen_eq (takeByte_cons _ _), length,
    andThen_eq (takeN_append p [0, 0, 0])]
  rfl

theorem decode_plainBytes (id : BitVec 16) (v : Value)
    (short : ∀ s, v = .string s → s.length < 2 ^ 32) :
    decode codes (plainBytes codes id v) = some ⟨id, v, none⟩ := by
  have value := takeValue_valueBytes codes v [] short
  have shape : plainBytes codes id v =
      6 :: (store16 id ++ codes.code v.datatype :: (valueBytes v ++ [])) := by
    simp [plainBytes]
  rw [decode_eq_some, shape, takePacket, andThen_eq (takeByte_cons _ _), if_pos rfl, takePlain,
    andThen_eq (takeId_append id _), andThen_eq (takeByte_cons _ _), andThen_eq value]
  rfl

theorem decode_updateBytes (id : BitVec 16) (v : Value) (p : List Char8)
    (short : ∀ s, v = .string s → s.length < 2 ^ 32) (tiny : p.length < 256) :
    decode codes (updateBytes codes id v p) = some ⟨id, v, some p⟩ := by
  have value := takeValue_valueBytes codes v (labelBytes p ++ [0, 0]) short
  let marked := if v = .bang then [] else 32 :: valueBytes v
  have mark : takeMark codes (codes.code v.datatype) (marked ++ (labelBytes p ++ [0, 0])) =
      some ((), valueBytes v ++ (labelBytes p ++ [0, 0])) := by
    unfold takeMark
    simp only [codes.distinct.eq_iff]
    cases v <;> simp [marked, Value.datatype, valueBytes, give, expect]
  have shape : updateBytes codes id v p = 4 :: ([18] ++ (store16 id ++
      codes.code v.datatype :: ([0] ++ (marked ++ (labelBytes p ++ [0, 0]))))) := by
    simp [updateBytes, marked]
  rw [decode_eq_some, shape, takePacket, andThen_eq (takeByte_cons _ _), if_neg (by decide),
    if_pos rfl, takeUpdate, andThen_eq (expect_append _ _), andThen_eq (takeId_append id _),
    andThen_eq (takeByte_cons _ _), andThen_eq (expect_append _ _), andThen_eq mark,
    andThen_eq value, andThen_eq (takeLabel_labelBytes p tiny)]
  rfl

/- What a packet takes of a list is decided by its own bytes. -/

theorem takeByte_takesFront : TakesFront takeByte := by
  intro s b rest taken
  cases s with
  | nil => contradiction
  | cons c s =>
    cases taken
    exact ⟨[b], rfl, fun more => rfl⟩

theorem takeId_takesFront : TakesFront takeId := by
  apply fixed_takesFront 2 load16
  intro l v loaded
  match l with
  | [_, _] => rfl
  | [] | [_] | _ :: _ :: _ :: _ => contradiction

theorem takeWord_takesFront : TakesFront takeWord := by
  apply fixed_takesFront 4 load32
  intro l v loaded
  match l with
  | [_, _, _, _] => rfl
  | [] | [_] | [_, _] | [_, _, _] | _ :: _ :: _ :: _ :: _ :: _ => contradiction

theorem takeValue_takesFront (type : Byte) : TakesFront (takeValue codes type) := by
  unfold takeValue
  repeat' apply ite_takesFront
  · exact give_takesFront _
  · refine andThen_takesFront takeByte_takesFront fun b => ?_
    exact ite_takesFront (give_takesFront _) (ite_takesFront (give_takesFront _) refuse_takesFront)
  · exact andThen_takesFront takeWord_takesFront fun v => give_takesFront _
  · exact andThen_takesFront takeWord_takesFront fun v => give_takesFront _
  · exact andThen_takesFront takeWord_takesFront fun n =>
      andThen_takesFront (takeN_takesFront _) fun s => give_takesFront _
  · exact refuse_takesFront

theorem takeMark_takesFront (type : Byte) : TakesFront (takeMark codes type) :=
  ite_takesFront (give_takesFront _) (expect_takesFront _)

theorem takeLabel_takesFront : TakesFront takeLabel :=
  andThen_takesFront (expect_takesFront _) fun _ => andThen_takesFront takeByte_takesFront fun _ =>
    andThen_takesFront (takeN_takesFront _) fun _ =>
      andThen_takesFront (expect_takesFront _) fun _ => give_takesFront _

theorem takePlain_takesFront : TakesFront (takePlain codes) :=
  andThen_takesFront takeId_takesFront fun _ => andThen_takesFront takeByte_takesFront fun type =>
    andThen_takesFront (takeValue_takesFront codes type) fun _ => give_takesFront _

theorem takeUpdate_takesFront : TakesFront (takeUpdate codes) := by
  refine andThen_takesFront (expect_takesFront _) fun _ => ?_
  refine andThen_takesFront takeId_takesFront fun _ => ?_
  refine andThen_takesFront takeByte_takesFront fun type => ?_
  refine andThen_takesFront (expect_takesFront _) fun _ => ?_
  refine andThen_takesFront (takeMark_takesFront codes type) fun _ => ?_
  refine andThen_takesFront (takeValue_takesFront codes type) fun _ => ?_
  exact andThen_takesFront takeLabel_takesFront fun _ => give_takesFront _

theorem takePacket_takesFront : TakesFront (takePacket codes) :=
  andThen_takesFront takeByte_takesFront fun _ => ite_takesFront (takePlain_takesFront codes)
    (ite_takesFront (takeUpdate_takesFront codes) refuse_takesFront)

theorem takePacket_append {bytes : List Byte} {p : Packet} (decoded : decode codes bytes = some p)
    (more : List Byte) : takePacket codes (bytes ++ more) = some (p, more) :=
  read_before (takePacket_takesFront codes) ((decode_eq_some codes).mp decoded) more

/- How long its texts are. -/

theorem takeValue_string_length {type : Byte} {bytes rest : List Byte} {s : List Char8}
    (found : takeValue codes type bytes = some (.string s, rest)) : s.length ≤ bytes.length := by
  unfold takeValue at found
  split at found
  · simp [give] at found
  split at found
  · obtain ⟨b, _, _, found⟩ := andThen_eq_some.mp found
    split at found
    · simp [give] at found
    split at found
    · simp [give] at found
    · contradiction
  split at found
  · obtain ⟨_, _, _, found⟩ := andThen_eq_some.mp found
    simp [give] at found
  split at found
  · obtain ⟨_, _, _, found⟩ := andThen_eq_some.mp found
    simp [give] at found
  split at found
  · obtain ⟨n, tail, word, found⟩ := andThen_eq_some.mp found
    obtain ⟨chars, after, taken, same⟩ := andThen_eq_some.mp found
    cases same
    have size := takeN_length taken
    have shorter := takeWord_takesFront.rest_length word
    omega
  · contradiction

theorem takeLabel_length {bytes rest : List Byte} {p : List Char8}
    (found : takeLabel bytes = some (p, rest)) : p.length < 256 := by
  obtain ⟨_, _, _, found⟩ := andThen_eq_some.mp found
  obtain ⟨len, _, _, found⟩ := andThen_eq_some.mp found
  obtain ⟨label, _, taken, found⟩ := andThen_eq_some.mp found
  obtain ⟨_, _, _, same⟩ := andThen_eq_some.mp found
  cases same
  have size := takeN_length taken
  have := len.isLt
  omega

theorem decode_lengths {bytes : List Byte} {p : Packet} (found : decode codes bytes = some p) :
    (∀ s, p.value = .string s → s.length ≤ bytes.length) ∧
      ∀ label, p.label = some label → label.length < 256 := by
  obtain ⟨command, r₁, first, found⟩ := andThen_eq_some.mp ((decode_eq_some codes).mp found)
  have h₁ := takeByte_takesFront.rest_length first
  split at found
  · obtain ⟨id, r₂, id_taken, found⟩ := andThen_eq_some.mp found
    obtain ⟨type, r₃, type_taken, found⟩ := andThen_eq_some.mp found
    obtain ⟨value, r₄, value_taken, same⟩ := andThen_eq_some.mp found
    cases same
    refine ⟨fun s string => ?_, fun label none => by contradiction⟩
    have text : value = .string s := string
    subst text
    have h₂ := takeId_takesFront.rest_length id_taken
    have h₃ := takeByte_takesFront.rest_length type_taken
    have h₄ := takeValue_string_length codes value_taken
    omega
  split at found
  · obtain ⟨_, r₂, option, found⟩ := andThen_eq_some.mp found
    obtain ⟨id, r₃, id_taken, found⟩ := andThen_eq_some.mp found
    obtain ⟨type, r₄, type_taken, found⟩ := andThen_eq_some.mp found
    obtain ⟨_, r₅, zero, found⟩ := andThen_eq_some.mp found
    obtain ⟨_, r₆, mark, found⟩ := andThen_eq_some.mp found
    obtain ⟨value, r₇, value_taken, found⟩ := andThen_eq_some.mp found
    obtain ⟨label, _, label_taken, same⟩ := andThen_eq_some.mp found
    cases same
    refine ⟨fun s string => ?_, fun l same => ?_⟩
    · have text : value = .string s := string
      subst text
      have h₂ := (expect_takesFront _).rest_length option
      have h₃ := takeId_takesFront.rest_length id_taken
      have h₄ := takeByte_takesFront.rest_length type_taken
      have h₅ := (expect_takesFront _).rest_length zero
      have h₆ := (takeMark_takesFront codes type).rest_length mark
      have h₇ := takeValue_string_length codes value_taken
      omega
    · cases same
      exact takeLabel_length label_taken
  · contradiction

end FormatPackets
