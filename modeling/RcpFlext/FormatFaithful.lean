import RcpFlext.FormatOutput

/- Which lists of rcp.format rcp.parse takes whole and reads back as the current id, type
   and label with the coerced input. The strings go out as plain chars, so one char from
   128 up, or a label whose length byte is one, is enough to lose the packet. -/
namespace FormatFaithful
open Atoms Cells BigEndian BytePorts Format FormatPackets FormatOutput Datatypes

/-- The label option is written as its language-tagged text, the length in one byte. -/
def Succeeds : Message → Prop
  | .label p written => written = some (labelBytes p.bytes)
  | _ => True

/-- The option kept beside a label is the one written for it. -/
def Written (f : RcpFormat) : Prop :=
  f.m_label.isEmpty = false → f.labelOption = labelBytes f.m_label.bytes ++ [0, 0]

def currentLabel (f : RcpFormat) : Option (List Char8) :=
  if f.m_label.isEmpty then none else some f.m_label.bytes

def Low (s : List Char8) : Prop := ∀ c ∈ s, c.toNat < 128

def ReadsBack (codes : DatatypeCodes) (f : RcpFormat) (input : Input) (atoms : List Atom) : Prop :=
  (∀ a ∈ atoms, IsByte a) ∧ ∃ bytes v, RcpParse.mListData atoms = .on bytes ∧
    coerced f input = some v ∧ decode codes bytes = some ⟨f.m_id, v, currentLabel f⟩

/-- Low chars only, in the label and in a symbol, and an `int` that can hold the length. -/
def Clean (f : RcpFormat) (input : Input) : Prop :=
  (f.m_label.bytes.length < 128 ∧ Low f.m_label.bytes) ∧
    ∀ s, input = .symbol s → Low s.bytes ∧ s.bytes.length < 2 ^ 31

theorem create_unlabelled {argv : List Atom} {f : RcpFormat} (created : create argv = .ok f) :
    f.m_label = .empty := by
  unfold create at created
  split at created
  · cases created
    rfl
  · split at created
    · contradiction
    · simp only at created
      split at created
      · contradiction
      split at created
      · contradiction
      split at created
      · contradiction
      cases created
      rfl

theorem create_written {argv : List Atom} {f : RcpFormat} (created : create argv = .ok f) :
    Written f := by
  intro some_label
  rw [create_unlabelled created] at some_label
  contradiction

theorem set_label (f : RcpFormat) (v : CInt) : (Message.apply f (.set v)).m_label = f.m_label ∧
    (Message.apply f (.set v)).labelOption = f.labelOption := by
  simp only [Message.apply]
  split
  · rename_i next set
    simp only [mSetId] at set
    split at set
    · contradiction
    split at set
    · contradiction
    split at set
    · contradiction
    cases set
    exact ⟨rfl, rfl⟩
  · exact ⟨rfl, rfl⟩

theorem apply_written {f : RcpFormat} {m : Message} (succeeds : Succeeds m) (written : Written f) :
    Written (m.apply f) := by
  cases m with
  | set v =>
    obtain ⟨label, option⟩ := set_label f v
    intro some_label
    rw [label] at some_label ⊢
    rw [option]
    exact written some_label
  | type sym => exact written
  | label p stored =>
    intro _
    have same : stored = some (labelBytes p.bytes) := succeeds
    rw [same]
    rfl
  | clearlabel =>
    intro some_label
    contradiction

theorem run_written {f : RcpFormat} {messages : List Message}
    (succeed : ∀ m ∈ messages, Succeeds m) (written : Written f) :
    Written (run f messages) := by
  induction messages generalizing f with
  | nil => exact written
  | cons m messages ih =>
    apply ih
    · intro next mem
      exact succeed next (List.mem_cons_of_mem m mem)
    · exact apply_written (succeed m List.mem_cons_self) written

theorem written_labelled {f : RcpFormat} (written : Written f) : Labelled f := by
  intro some_label
  rw [written some_label]
  simp [labelBytes]

theorem toOutList_list {n : Int} {x : Option (List Atom)} {atoms : List Atom}
    (emits : toOutList n x = .list atoms) : x = some atoms ∧ n < 2 ^ 31 := by
  cases x with
  | none => contradiction
  | some list =>
    simp only [toOutList] at emits
    split at emits
    · cases emits
      exact ⟨rfl, ‹_›⟩
    · contradiction

theorem vector_length {n : Int} {list : List Atom} (made : vector n = some list) :
    list.length = n.toNat := by
  unfold vector at made
  split at made
  · cases made
    exact List.length_replicate
  · contradiction

variable (codes : DatatypeCodes) {f : RcpFormat}

theorem mSymbol_size {v : CString} {atoms : List Atom} (emits : mSymbol codes f v = .list atoms) :
    atoms.length < 2 ^ 31 := by
  have type : f.m_type = .invalid ∨ f.m_type = .string := by
    by_contra other
    have silent := mSymbol_silent codes f v (by simp only [coerced]; split <;> simp_all)
    rw [silent] at emits
    contradiction
  rw [mSymbol_body codes f v type] at emits
  split at emits
  · split at emits
    · obtain ⟨built, small⟩ := toOutList_list emits
      simp only [Option.bind_eq_some_iff, setupValuePacket_eq, store32ToList, storeChars] at built
      obtain ⟨list, made, _, h1, _, h2, h3⟩ := built
      have size := vector_length made
      rw [pokeAll_length h3, pokeAll_length h2, pokeAll_length h1, size]
      omega
    · contradiction
  · split at emits
    · obtain ⟨built, small⟩ := toOutList_list emits
      simp only [Option.bind_eq_some_iff, setupUpdatePacket_eq, store32ToList, storeChars] at built
      obtain ⟨list, made, _, h1, _, h2, _, h3, h4⟩ := built
      have size := vector_length made
      rw [pokeAll_length h4, pokeAll_length h3, pokeAll_length h2, pokeAll_length h1, size]
      omega
    · contradiction

theorem receive_size {input : Input} {s : CString} {atoms : List Atom} (symbol : input = .symbol s)
    (emits : receive codes f input = .list atoms) : atoms.length < 2 ^ 31 := by
  subst symbol
  exact mSymbol_size codes emits

theorem emitted_packet {input : Input} {atoms : List Atom} (written : Written f)
    (emits : receive codes f input = .list atoms)
    (short : ∀ s, input = .symbol s → s.bytes.length < 2 ^ 31) :
    ∃ v, coerced f input = some v ∧ atoms = packetAtoms codes f v := by
  cases value : coerced f input with
  | none =>
    rw [receive_silent codes f value] at emits
    contradiction
  | some v =>
    rw [receive_sent codes f value (written_labelled written) short] at emits
    exact ⟨v, rfl, (Option.some.inj (toOutList_list emits).1).symm⟩

theorem coerced_symbol {s : CString} {v : Value} (value : coerced f (.symbol s) = some v) :
    v = .string s.bytes := by
  simp only [coerced] at value
  split at value <;> simp_all

theorem coerced_low {input : Input} {v : Value} (value : coerced f input = some v)
    (low : ∀ s, input = .symbol s → Low s.bytes) : ∀ s, v = .string s → Low s := by
  intro s string
  subst string
  have plain : ∀ text, Decimal.Plain text → Low text := fun text plain c mem => (plain c mem).2
  cases input with
  | bang => simp only [coerced] at value; split at value <;> simp_all
  | int w =>
    simp only [coerced] at value
    split at value <;> cases value
    exact plain _ (Decimal.signed_plain _)
  | float w =>
    simp only [coerced] at value
    split at value <;> cases value
    exact plain _ (Binary32.fixed_plain w)
  | symbol t =>
    cases coerced_symbol value
    exact low t rfl

theorem coerced_short {input : Input} {v : Value} (value : coerced f input = some v)
    (short : ∀ s, input = .symbol s → s.bytes.length < 2 ^ 31) :
    ∀ s, v = .string s → s.length < 2 ^ 32 := by
  intro s string
  subst string
  cases input with
  | bang => simp only [coerced] at value; split at value <;> simp_all
  | int w =>
    simp only [coerced] at value
    split at value <;> cases value
    exact Nat.lt_trans (signed_length w) (by decide)
  | float w =>
    simp only [coerced] at value
    split at value <;> cases value
    have := Binary32.fixed_length_le w
    omega
  | symbol t =>
    cases coerced_symbol value
    have := short t rfl
    omega

theorem low_atoms {s : List Char8} (low : Low s) : s.map setChar = s.map setUChar :=
  List.map_congr_left fun c mem => setChar_eq_setUChar (low c mem)

theorem valueAtoms_low {v : Value} (low : ∀ s, v = .string s → Low s) :
    valueAtoms v = (valueBytes v).map setUChar := by
  cases v with
  | string s => rw [valueAtoms, low_atoms (low s rfl), valueBytes, List.map_append]
  | _ => rfl

theorem labelBytes_low_iff (p : List Char8) :
    Low (labelBytes p) ↔ p.length % 256 < 128 ∧ Low p := by
  have length : (BitVec.ofNat 8 p.length).toNat = p.length % 256 := by simp
  constructor
  · intro low
    constructor
    · rw [← length]
      exact low _ (by simp [labelBytes])
    · intro c mem
      exact low c (by simp [labelBytes, mem])
  · rintro ⟨short, low⟩ c mem
    simp only [labelBytes, List.cons_append, List.nil_append, List.mem_cons, List.mem_append,
      List.not_mem_nil, or_false] at mem
    rcases mem with h | h | h | h | h | h | h
    · subst h; decide
    · subst h; decide
    · subst h; decide
    · subst h; decide
    · rw [h, length]; exact short
    · exact low c h
    · subst h; decide

def packetBytes (f : RcpFormat) (v : Value) : List Byte :=
  if f.m_label.isEmpty then plainBytes codes f.m_id v
  else updateBytes codes f.m_id v f.m_label.bytes

theorem packetAtoms_clean {v : Value} (written : Written f)
    (label : f.m_label.bytes.length < 128 ∧ Low f.m_label.bytes)
    (low : ∀ s, v = .string s → Low s) :
    packetAtoms codes f v = (packetBytes codes f v).map setUChar := by
  unfold packetAtoms packetBytes
  split
  · rw [valueAtoms_low low]
    simp only [plainHead, plainBytes, List.map_append]
  · rename_i some_label
    have short := label.1
    have lowLabel := (labelBytes_low_iff f.m_label.bytes).mpr ⟨by omega, label.2⟩
    have option : (f.labelOption).map setChar =
        (labelBytes f.m_label.bytes ++ [0, 0]).map setUChar := by
      rw [written (by simpa using some_label), List.map_append, low_atoms lowLabel,
        List.map_append]
      rfl
    rw [option, valueAtoms_low low]
    simp only [updateHead, updateBytes, List.map_append, List.append_assoc]
    congr 3
    split <;> rfl

theorem packetBytes_decode {v : Value} (label : f.m_label.bytes.length < 128)
    (short : ∀ s, v = .string s → s.length < 2 ^ 32) :
    decode codes (packetBytes codes f v) = some ⟨f.m_id, v, currentLabel f⟩ := by
  unfold packetBytes currentLabel
  split
  · exact decode_plainBytes codes f.m_id v short
  · exact decode_updateBytes codes f.m_id v f.m_label.bytes short (by omega)

theorem clean_reads_back {input : Input} {atoms : List Atom} (written : Written f)
    (emits : receive codes f input = .list atoms) (clean : Clean f input) :
    ReadsBack codes f input atoms := by
  have short := fun s symbol => (clean.2 s symbol).2
  obtain ⟨v, value, packet⟩ := emitted_packet codes written emits short
  have low := coerced_low value fun s symbol => (clean.2 s symbol).1
  rw [packet, packetAtoms_clean codes written clean.1 low]
  constructor
  · intro a mem
    obtain ⟨c, _, same⟩ := List.mem_map.mp mem
    exact same ▸ setUChar_isByte c
  · have taken := unsigned_survive strictByte_keeps_bytes (packetBytes codes f v)
    exact ⟨packetBytes codes f v, v, (throughBuffer_on_iff _ _ _).mpr taken, value,
      packetBytes_decode codes clean.1.1 (coerced_short value short)⟩

theorem setChar_low {s : List Char8} {atoms : List Atom} (bytes : ∀ a ∈ atoms, IsByte a)
    (inside : ∀ a ∈ s.map setChar, a ∈ atoms) : Low s := by
  intro c mem
  exact (setChar_isByte_iff c).mp (bytes _ (inside _ (List.mem_map_of_mem mem)))

theorem label_clean {v w : Value} {bytes : List Byte} (written : Written f)
    (low : ∀ a ∈ packetAtoms codes f v, IsByte a)
    (decoded : decode codes bytes = some ⟨f.m_id, w, currentLabel f⟩) :
    f.m_label.bytes.length < 128 ∧ Low f.m_label.bytes := by
  by_cases empty : f.m_label.isEmpty = true
  · have none := List.isEmpty_iff.mp empty
    rw [none]
    exact ⟨by decide, fun c mem => absurd mem (by simp)⟩
  · have option := written (by simpa using empty)
    have lowOption : Low f.labelOption := by
      apply setChar_low low
      intro a mem
      rw [packetAtoms, if_neg empty]
      exact List.mem_append_right _ (List.mem_append_right _ mem)
    have lowLabel : Low (labelBytes f.m_label.bytes) := by
      intro c mem
      exact lowOption c (option ▸ List.mem_append_left _ mem)
    obtain ⟨size, chars⟩ := (labelBytes_low_iff _).mp lowLabel
    rw [currentLabel, if_neg empty] at decoded
    have tiny := (decode_lengths codes decoded).2 _ rfl
    exact ⟨by omega, chars⟩

theorem symbol_low {s : List Char8} (low : ∀ a ∈ packetAtoms codes f (.string s), IsByte a) :
    Low s := by
  apply setChar_low low
  intro a mem
  rw [packetAtoms]
  split
  · exact List.mem_append_right _ (List.mem_append_right _ mem)
  · simp only [reduceCtorEq, ↓reduceIte, List.mem_append, List.mem_cons, valueAtoms]
    exact .inr (.inl (.inr (.inr mem)))

theorem read_back_short {s : CString} {atoms : List Atom}
    (emits : receive codes f (.symbol s) = .list atoms)
    (readsBack : ReadsBack codes f (.symbol s) atoms) : s.bytes.length < 2 ^ 31 := by
  obtain ⟨_, bytes, v, taken, value, decoded⟩ := readsBack
  rw [coerced_symbol value] at decoded
  have chars := (decode_lengths codes decoded).1 _ rfl
  have few := survivors_length_le ((throughBuffer_on_iff _ _ _).mp taken)
  have size := receive_size codes rfl emits
  omega

theorem read_back_clean {input : Input} {atoms : List Atom} (written : Written f)
    (emits : receive codes f input = .list atoms)
    (readsBack : ReadsBack codes f input atoms) : Clean f input := by
  have short : ∀ s, input = .symbol s → s.bytes.length < 2 ^ 31 := by
    intro s symbol
    subst symbol
    exact read_back_short codes emits readsBack
  obtain ⟨v, value, packet⟩ := emitted_packet codes written emits short
  obtain ⟨low, bytes, w, _, _, decoded⟩ := readsBack
  rw [packet] at low
  constructor
  · exact label_clean codes written low decoded
  · intro s symbol
    subst symbol
    rw [coerced_symbol value] at low
    exact ⟨symbol_low codes low, short s rfl⟩

/-- After any messages, an emitted list reads back as what was formatted exactly when
    the label and the symbol have no char a signed one cannot hold. -/
theorem reads_back_iff (argv : List Atom) (first : RcpFormat) (messages : List Message)
    (input : Input) (atoms : List Atom) (created : create argv = .ok first)
    (succeed : ∀ m ∈ messages, Succeeds m)
    (emits : receive codes (run first messages) input = .list atoms) :
    ReadsBack codes (run first messages) input atoms ↔ Clean (run first messages) input := by
  have written := run_written succeed (create_written created)
  constructor
  · exact read_back_clean codes written emits
  · exact clean_reads_back codes written emits

def sampleCodes : DatatypeCodes where
  code
    | .invalid => 0
    | .boolean => 16
    | .int32 => 21
    | .float32 => 25
    | .string => 33
    | .bang => 39
    | .group => 40
    | .other => 26
  distinct := by
    intro s t same
    cases s <;> cases t <;> first | rfl | exact absurd same (by decide)

def afresh : RcpFormat := ⟨1, .invalid, .empty, []⟩

theorem plain_symbol_reads_back :
    ReadsBack sampleCodes
      (run afresh [.type (.ofBytes [115]), .label (.ofBytes [104, 105]) (some
        [33, 97, 110, 121, 2, 104, 105, 0]), .set 7])
      (.symbol (.ofBytes [111, 107]))
      ([4, 18, 0, 7, 33, 0, 32, 0, 0, 0, 2, 111, 107,
        33, 97, 110, 121, 2, 104, 105, 0, 0, 0].map setUChar) := by
  apply (reads_back_iff sampleCodes [] afresh _ _ _ rfl ?succeed (by decide)).mpr
  case succeed =>
    intro m mem
    simp only [List.mem_cons, List.not_mem_nil, or_false] at mem
    rcases mem with h | h | h <;> subst h
    · trivial
    · rfl
    · trivial
  constructor
  · exact ⟨by decide, by unfold Low; decide⟩
  · intro s symbol
    cases symbol
    exact ⟨by unfold Low; decide, by decide⟩

/-- After `type s` the two bytes of an accented letter leave as -61 and -68. -/
theorem accented_symbol_lost :
    create [] = .ok afresh ∧ (∀ m ∈ [Message.type (.ofBytes [115])], Succeeds m) ∧
      receive sampleCodes (run afresh [.type (.ofBytes [115])]) (.symbol (.ofBytes [195, 188])) =
        .list ([6, 0, 1, 33, 0, 0, 0, 2].map setUChar ++ [.int (-61), .int (-68)]) ∧
      ¬ ReadsBack sampleCodes (run afresh [.type (.ofBytes [115])]) (.symbol (.ofBytes [195, 188]))
        ([6, 0, 1, 33, 0, 0, 0, 2].map setUChar ++ [.int (-61), .int (-68)]) := by
  refine ⟨rfl, ?_, by decide, ?_⟩
  · intro m mem
    rw [List.mem_singleton] at mem
    subst mem
    trivial
  · intro readsBack
    exact absurd (readsBack.1 (.int (-61)) (by simp)) (by unfold IsByte; decide)

end FormatFaithful
