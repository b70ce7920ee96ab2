import RcpFlext.FormatPackets

/- What each input of rcp.format puts out: the coerced value, and the atoms of its packet
   as the array writes leave them. -/
namespace FormatOutput
open Atoms Cells BigEndian Format FormatPackets Datatypes

def coerced (f : RcpFormat) : Input → Option Value
  | .bang =>
    match f.m_type with
    | .invalid | .bang => some .bang
    | _ => none
  | .int v =>
    match f.m_type with
    | .invalid | .int32 => some (.int32 v)
    | .boolean => some (.boolean (0 < v.toInt))
    | .float32 => some (.float32 (Binary32.ofInt v.toInt))
    | .string => some (.string (Decimal.signed v.toInt))
    | _ => none
  | .float v =>
    match f.m_type with
    | .invalid | .float32 => some (.float32 v)
    | .int32 => some (.int32 (Binary32.toInt32 v))
    | .boolean => some (.boolean (0 < (Binary32.toInt32 v).toInt))
    | .string => some (.string (Binary32.fixed v))
    | _ => none
  | .symbol v =>
    match f.m_type with
    | .invalid | .string => some (.string v.bytes)
    | _ => none

/-- A string's characters go out as plain chars, every other byte as an unsigned char. -/
def valueAtoms : Value → List Atom
  | .string s => (store32 (BitVec.ofNat 32 s.length)).map setUChar ++ s.map setChar
  | v => (valueBytes v).map setUChar

variable (codes : DatatypeCodes)

def plainHead (id : BitVec 16) (type : Datatype) : List Atom :=
  ([6] ++ store16 id ++ [codes.code type]).map setUChar

def updateHead (id : BitVec 16) (type : Datatype) : List Atom :=
  ([4, 18] ++ store16 id ++ [codes.code type, 0]).map setUChar

def packetAtoms (f : RcpFormat) (v : Value) : List Atom :=
  if f.m_label.isEmpty then plainHead codes f.m_id v.datatype ++ valueAtoms v
  else updateHead codes f.m_id v.datatype ++
    ((if v = .bang then [] else setUChar 32 :: valueAtoms v) ++ f.labelOption.map setChar)

/-- A label is there only with a written label option. -/
def Labelled (f : RcpFormat) : Prop := f.m_label.isEmpty = false → f.labelOption ≠ []

theorem vector_fill {n : Int} (atoms : List Atom) (size : n = atoms.length) :
    ((vector n).bind fun list => pokeAll list 0 atoms) = some atoms := by
  have room : 0 ≤ n := by omega
  simp only [vector, room, ↓reduceIte, Option.bind_some]
  rw [pokeAll_front _ _ (by simp [size])]
  simp [size]

theorem setupValuePacket_eq (id : BitVec 16) (type : Datatype) (list : List Atom) :
    setupValuePacket codes id type list = pokeAll list 0 (plainHead codes id type) := by
  simp [setupValuePacket, storeIdToList, plainHead, store16, pokeAll, Option.bind_assoc]

theorem setupUpdatePacket_eq (id : BitVec 16) (type : Datatype) (list : List Atom) :
    setupUpdatePacket codes id type list =
      pokeAll list 0 (updateHead codes id type ++ [setUChar 32]) := by
  simp [setupUpdatePacket, storeIdToList, updateHead, store16, pokeAll, Option.bind_assoc]

theorem plainHead_length (id : BitVec 16) (type : Datatype) :
    (plainHead codes id type).length = 4 := rfl

theorem updateHead_length (id : BitVec 16) (type : Datatype) :
    (updateHead codes id type).length = 6 := rfl

theorem plain_packet (id : BitVec 16) (type : Datatype) (value : List Atom) {n : Int}
    (size : n = 4 + value.length) :
    ((vector n).bind fun list => (setupValuePacket codes id type list).bind fun list =>
      pokeAll list 4 value) = some (plainHead codes id type ++ value) := by
  have head := plainHead_length codes id type
  calc
    _ = (vector n).bind fun list => pokeAll list 0 (plainHead codes id type ++ value) := by
      congr 1
      funext list
      rw [setupValuePacket_eq]
      exact pokeAll_next (by rw [head]; rfl)
    _ = some (plainHead codes id type ++ value) := by
      apply vector_fill
      rw [List.length_append, head]
      push_cast
      omega

theorem update_packet (id : BitVec 16) (type : Datatype) (value label : List Atom) {n o : Int}
    (offset : o = 7 + value.length) (size : n = o + label.length) :
    ((vector n).bind fun list => (setupUpdatePacket codes id type list).bind fun list =>
      (pokeAll list 7 value).bind fun list => pokeAll list o label) =
        some (updateHead codes id type ++ (setUChar 32 :: value ++ label)) := by
  have head := updateHead_length codes id type
  have shape : updateHead codes id type ++ (setUChar 32 :: value ++ label) =
      (updateHead codes id type ++ [setUChar 32] ++ value) ++ label := by simp
  calc
    _ = (vector n).bind fun list =>
        pokeAll list 0 ((updateHead codes id type ++ [setUChar 32] ++ value) ++ label) := by
      congr 1
      funext list
      rw [setupUpdatePacket_eq, pokeAll_next_then (by rw [List.length_append, head]; rfl)]
      apply pokeAll_next
      simp only [List.length_append, head, List.length_singleton]
      push_cast
      omega
    _ = some (updateHead codes id type ++ (setUChar 32 :: value ++ label)) := by
      rw [shape]
      apply vector_fill
      simp only [List.length_append, head, List.length_singleton]
      push_cast
      omega

/-- The bang packet has no value; the label overwrites the cell of its mark. -/
theorem bang_packet (id : BitVec 16) (type : Datatype) (label : List Atom) {n : Int}
    (size : n = 6 + label.length) (some_label : label ≠ []) :
    ((vector n).bind fun list => (setupUpdatePacket codes id type list).bind fun list =>
      pokeAll list 6 label) = some (updateHead codes id type ++ label) := by
  have positive := List.length_pos_iff.mpr some_label
  have room : 0 ≤ n := by omega
  have head := updateHead_length codes id type
  simp only [setupUpdatePacket_eq, vector, room, ↓reduceIte, Option.bind_some]
  rw [pokeAll_front _ _ (by
    rw [List.length_append, head, List.length_replicate, List.length_singleton]
    omega), Option.bind_some, List.append_assoc]
  have overwrite := pokeAll_inside (updateHead codes id type)
    ([setUChar 32] ++ List.drop 7 (List.replicate n.toNat .pointer)) [] label
    (by simp only [List.length_append, List.length_singleton, List.length_drop,
      List.length_replicate]; omega)
  rw [List.append_nil, List.append_nil] at overwrite
  exact overwrite

variable (f : RcpFormat)

def sent (v : Value) : Output :=
  toOutList (packetAtoms codes f v).length (some (packetAtoms codes f v))

theorem mBang_sent (labelled : Labelled f) (type : f.m_type = .invalid ∨ f.m_type = .bang) :
    mBang codes f = sent codes f .bang := by
  have body : mBang codes f = if f.m_label.isEmpty then
      toOutList 4 ((vector 4).bind fun list => setupValuePacket codes f.m_id .bang list)
    else toOutList (6 + f.labelOption.length) ((vector (6 + f.labelOption.length)).bind fun list =>
      (setupUpdatePacket codes f.m_id .bang list).bind fun list =>
        storeChars f.labelOption list 6) := by
    rcases type with t | t <;> simp only [mBang, t] <;> rfl
  rw [body, sent, packetAtoms]
  by_cases empty : f.m_label.isEmpty = true
  · simp only [empty, ↓reduceIte, setupValuePacket_eq, valueAtoms, valueBytes, Value.datatype,
      List.map_nil, List.append_nil]
    rw [vector_fill _ (plainHead_length codes f.m_id .bang ▸ rfl)]
    rfl
  · have some_label : f.labelOption.map setChar ≠ [] := by
      simpa using labelled (by simpa using empty)
    simp only [empty, Bool.false_eq_true, ↓reduceIte, List.nil_append, Value.datatype, storeChars]
    rw [bang_packet codes f.m_id .bang _ (by simp) some_label]
    simp only [List.length_append, updateHead_length, List.length_map]
    push_cast
    rfl

theorem valueAtoms_length (v : Value) : (valueAtoms v).length = (valueBytes v).length := by
  cases v <;> simp [valueAtoms, valueBytes]

theorem value_sent (v : Value) (n m : Int) (plain : n = 4 + (valueAtoms v).length)
    (update : m = 7 + (valueAtoms v).length) (bang : v ≠ .bang) :
    (if f.m_label.isEmpty then
      toOutList n ((vector n).bind fun list =>
        (setupValuePacket codes f.m_id v.datatype list).bind fun list =>
          pokeAll list 4 (valueAtoms v))
    else toOutList (m + f.labelOption.length) ((vector (m + f.labelOption.length)).bind fun list =>
      (setupUpdatePacket codes f.m_id v.datatype list).bind fun list =>
        (pokeAll list 7 (valueAtoms v)).bind fun list => storeChars f.labelOption list m)) =
      sent codes f v := by
  rw [sent, packetAtoms]
  by_cases empty : f.m_label.isEmpty = true
  · simp only [empty, ↓reduceIte]
    rw [plain_packet codes f.m_id v.datatype (valueAtoms v) plain, plain]
    simp only [List.length_append, plainHead_length]
    push_cast
    rfl
  · simp only [empty, Bool.false_eq_true, ↓reduceIte, bang, storeChars]
    rw [update_packet codes f.m_id v.datatype (valueAtoms v) _ update (by simp)]
    have size : m + (f.labelOption.length : Int) = ((updateHead codes f.m_id v.datatype ++
        (setUChar 32 :: valueAtoms v ++ f.labelOption.map setChar)).length : Int) := by
      simp only [List.length_append, updateHead_length, List.length_cons, List.length_map]
      push_cast
      omega
    rw [size]

theorem mInt_word (v : CInt) (type : f.m_type = .invalid ∨ f.m_type = .int32) :
    mInt codes f v = sent codes f (.int32 v) := by
  rw [← value_sent codes f (.int32 v) 8 11 rfl rfl (by simp)]
  rcases type with t | t <;> (rw [mInt]; split <;> simp_all) <;> rfl

theorem mFloat_word (v : CInt) (type : f.m_type = .invalid ∨ f.m_type = .float32) :
    mFloat codes f v = sent codes f (.float32 v) := by
  rw [← value_sent codes f (.float32 v) 8 11 rfl rfl (by simp)]
  rcases type with t | t <;> (rw [mFloat]; split <;> simp_all) <;> rfl

theorem mInt_boolean (v : CInt) (type : f.m_type = .boolean) :
    mInt codes f v = sent codes f (.boolean (0 < v.toInt)) := by
  rw [← value_sent codes f (.boolean (0 < v.toInt)) 5 8 rfl rfl (by simp)]
  have atom : valueAtoms (.boolean (0 < v.toInt)) = [setUChar (if 0 < v.toInt then 1 else 0)] := by
    simp [valueAtoms, valueBytes]
  rw [mInt, atom]
  split <;> simp_all [pokeAll_single, Value.datatype]

theorem mInt_float (v : CInt) (type : f.m_type = .float32) :
    mInt codes f v = mFloat codes f (Binary32.ofInt v.toInt) := by
  rw [mInt]
  split <;> simp_all

theorem mInt_string (v : CInt) (type : f.m_type = .string) :
    mInt codes f v = mSymbol codes f (.ofBytes (Decimal.signed v.toInt)) := by
  rw [mInt]
  split <;> simp_all

theorem mInt_silent (v : CInt) (none : coerced f (.int v) = none) :
    mInt codes f v = .silent := by
  rw [mInt]
  split <;> simp_all [coerced]

theorem mFloat_int (v : Binary32.Word) (type : f.m_type = .int32 ∨ f.m_type = .boolean) :
    mFloat codes f v = mInt codes f (Binary32.toInt32 v) := by
  rw [mFloat]
  split <;> simp_all

theorem mFloat_string (v : Binary32.Word) (type : f.m_type = .string) :
    mFloat codes f v = mSymbol codes f (.ofBytes (Binary32.fixed v)) := by
  rw [mFloat]
  split <;> simp_all

theorem mFloat_silent (v : Binary32.Word) (none : coerced f (.float v) = none) :
    mFloat codes f v = .silent := by
  rw [mFloat]
  split <;> simp_all [coerced]

theorem mBang_silent (none : coerced f .bang = none) : mBang codes f = .silent := by
  rw [mBang]
  split <;> simp_all [coerced]

theorem mSymbol_silent (v : CString) (none : coerced f (.symbol v) = none) :
    mSymbol codes f v = .silent := by
  rw [mSymbol]
  split <;> simp_all [coerced]

theorem mSymbol_body (v : CString) (type : f.m_type = .invalid ∨ f.m_type = .string) :
    mSymbol codes f v = if f.m_label.isEmpty then
      match intSum 8 (BitVec.ofNat 32 v.bytes.length).toInt with
      | some n => toOutList n ((vector n).bind fun list =>
        (setupValuePacket codes f.m_id .string list).bind fun list =>
          (store32ToList (BitVec.ofNat 32 v.bytes.length) list 4).bind fun list =>
            storeChars (v.bytes.take (BitVec.ofNat 32 v.bytes.length).toInt.toNat) list 8)
      | none => .broken
    else
      match intSum 11 (BitVec.ofNat 32 v.bytes.length).toInt with
      | some o => toOutList (o + f.labelOption.length)
        ((vector (o + f.labelOption.length)).bind fun list =>
          (setupUpdatePacket codes f.m_id .string list).bind fun list =>
            (store32ToList (BitVec.ofNat 32 v.bytes.length) list 7).bind fun list =>
              (storeChars (v.bytes.take (BitVec.ofNat 32 v.bytes.length).toInt.toNat) list 11).bind
                fun list => storeChars f.labelOption list o)
      | none => .broken := by
  rcases type with t | t <;> simp only [mSymbol, t] <;> rfl

theorem toOutList_long {n : Int} (x : Option (List Atom)) (long : 2 ^ 31 ≤ n) :
    toOutList n x = .broken := by
  have := Int.not_lt.mpr long
  cases x with
  | none => rfl
  | some list => rw [toOutList, if_neg this]

theorem packetAtoms_string_length (s : List Char8) :
    ((packetAtoms codes f (.string s)).length : Int) =
      if f.m_label.isEmpty then 8 + s.length else 11 + s.length + f.labelOption.length := by
  unfold packetAtoms
  split <;>
    simp only [List.length_append, plainHead_length, updateHead_length, valueAtoms_length,
      valueBytes, store32_length, List.length_map, List.length_cons, reduceCtorEq, ↓reduceIte] <;>
    omega

theorem store32_chars (w : BitVec 32) (s : List Char8) (list : List Atom) {i j : Int}
    (adjacent : j = i + 4) :
    ((store32ToList w list i).bind fun list => storeChars s list j) =
      pokeAll list i ((store32 w).map setUChar ++ s.map setChar) := by
  rw [pokeAll_append, adjacent, List.length_map, store32_length]
  rfl

theorem store32_chars_then {B : Type} (w : BitVec 32) (s : List Char8) (list : List Atom)
    {i j : Int} (adjacent : j = i + 4) (rest : List Atom → Option B) :
    ((store32ToList w list i).bind fun list => (storeChars s list j).bind rest) =
      (pokeAll list i ((store32 w).map setUChar ++ s.map setChar)).bind rest := by
  rw [← store32_chars w s list adjacent, Option.bind_assoc]

theorem intSum_some {a b : Int} (positive : 0 ≤ a + b) (small : a + b < 2 ^ 31) :
    intSum a b = some (a + b) := by
  rw [intSum, if_pos]
  omega

theorem intSum_none {a b : Int} (big : 2 ^ 31 ≤ a + b) : intSum a b = none := by
  rw [intSum, if_neg]
  omega

theorem mSymbol_sent (v : CString) (type : f.m_type = .invalid ∨ f.m_type = .string)
    (short : v.bytes.length < 2 ^ 31) : mSymbol codes f v = sent codes f (.string v.bytes) := by
  have length : (BitVec.ofNat 32 v.bytes.length).toInt = v.bytes.length := by
    rw [BitVec.toInt_eq_toNat_of_lt] <;> simp only [BitVec.toNat_ofNat] <;> omega
  have size := packetAtoms_string_length codes f v.bytes
  have value : (valueAtoms (.string v.bytes)).length = 4 + v.bytes.length := by
    simp only [valueAtoms_length, valueBytes, List.length_append, store32_length]
  rw [mSymbol_body codes f v type, length, Int.toNat_natCast, List.take_length]
  by_cases fits : (if f.m_label.isEmpty then 8 else 11) + (v.bytes.length : Int) < 2 ^ 31
  · rw [← value_sent codes f (.string v.bytes) (8 + v.bytes.length) (11 + v.bytes.length)
      (by rw [value]; push_cast; omega) (by rw [value]; push_cast; omega) (by simp)]
    split at fits
    · rename_i empty
      rw [if_pos empty, if_pos empty, intSum_some (by omega) (by omega)]
      simp only [store32_chars _ _ _ (show (8 : Int) = 4 + 4 from rfl)]
      rfl
    · rename_i empty
      rw [if_neg empty, if_neg empty, intSum_some (by omega) (by omega)]
      simp only [store32_chars_then _ _ _ (show (11 : Int) = 7 + 4 from rfl)]
      rfl
  · have long : 2 ^ 31 ≤ ((packetAtoms codes f (.string v.bytes)).length : Int) := by
      rw [size]
      split at fits <;> simp_all
      omega
    rw [sent, toOutList_long _ long]
    split at fits
    · rename_i empty
      rw [if_pos empty, intSum_none (by omega)]
    · rename_i empty
      rw [if_neg empty, intSum_none (by omega)]

theorem signed_length (v : CInt) : (Decimal.signed v.toInt).length < 2 ^ 31 := by
  have low := v.le_toInt
  have high := v.toInt_lt
  have digits : v.toInt.natAbs < 10 ^ 10 := by omega
  have := Decimal.signed_length_le digits (by decide)
  omega

theorem text_sent (text : List Char8) (type : f.m_type = .string) (plain : Decimal.Plain text)
    (short : text.length < 2 ^ 31) :
    mSymbol codes f (.ofBytes text) = sent codes f (.string text) := by
  have bytes : (CString.ofBytes text).bytes = text := by
    apply CString.ofBytes_bytes
    intro b mem zero
    have := (plain b mem).1
    simp [zero] at this
  have sent := mSymbol_sent codes f (.ofBytes text) (.inr type)
  rw [bytes] at sent
  exact sent short

theorem receive_silent {input : Input} (none : coerced f input = none) :
    receive codes f input = .silent := by
  cases input with
  | bang => exact mBang_silent codes f none
  | int v => exact mInt_silent codes f v none
  | float v => exact mFloat_silent codes f v none
  | symbol v => exact mSymbol_silent codes f v none

theorem receive_sent {input : Input} {v : Value} (value : coerced f input = some v)
    (labelled : Labelled f) (short : ∀ s, input = .symbol s → s.bytes.length < 2 ^ 31) :
    receive codes f input = sent codes f v := by
  cases input with
  | bang =>
    simp only [coerced] at value
    split at value <;> cases value
    · exact mBang_sent codes f labelled (.inl ‹_›)
    · exact mBang_sent codes f labelled (.inr ‹_›)
  | int w =>
    simp only [coerced] at value
    split at value <;> cases value
    · exact mInt_word codes f w (.inl ‹_›)
    · exact mInt_word codes f w (.inr ‹_›)
    · exact mInt_boolean codes f w ‹_›
    · rw [receive, mInt_float codes f w ‹_›]
      exact mFloat_word codes f _ (.inr ‹_›)
    · rw [receive, mInt_string codes f w ‹_›]
      exact text_sent codes f _ ‹_› (Decimal.signed_plain _) (signed_length w)
  | float w =>
    simp only [coerced] at value
    split at value <;> cases value
    · exact mFloat_word codes f w (.inl ‹_›)
    · exact mFloat_word codes f w (.inr ‹_›)
    · rw [receive, mFloat_int codes f w (.inl ‹_›)]
      exact mInt_word codes f _ (.inr ‹_›)
    · rw [receive, mFloat_int codes f w (.inr ‹_›)]
      exact mInt_boolean codes f _ ‹_›
    · rw [receive, mFloat_string codes f w ‹_›]
      have few := Binary32.fixed_length_le w
      exact text_sent codes f _ ‹_› (Binary32.fixed_plain w) (by omega)
  | symbol s =>
    simp only [coerced] at value
    split at value <;> cases value
    · exact mSymbol_sent codes f s (.inl ‹_›) (short s rfl)
    · exact mSymbol_sent codes f s (.inr ‹_›) (short s rfl)

end FormatOutput
