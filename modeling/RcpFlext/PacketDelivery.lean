import RcpFlext.FormatStream
import RcpFlext.PacketStream

/- rcp.format in front of rcp.parse: the reports of the packets come out in order, however
   the lists are joined on the way, and also behind slipencoder and slipdecoder. -/
namespace PacketDelivery
open Atoms BytePorts BigEndian Format FormatFaithful FormatPackets FormatStream SlipRoundTrip Chunking Reports
open PacketStream (Parses Returns Spells)
open PacketStream.RcpParse (Parsed Called dispatch)

def Holds (q : PacketStream.Parameter) : Value → Prop
  | .bang => True
  | .boolean b => q.valueBool = b
  | .int32 v => q.valueInt32 = v
  | .float32 v => q.valueFloat = v
  | .string s => ∃ v, q.valueString = some v ∧ v.bytes = s

structure Carries (p : Packet) (made : PacketStream.Packet) : Prop where
  command : made.command = .commandUpdate ∨ made.command = .commandUpdatevalue
  parameter : ∃ q, made.parameter = some q ∧ q.id = p.id ∧ q.type = p.value.datatype ∧
    q.label.map CString.bytes = p.label ∧ Holds q p.value

/-- `rcp_packet_parse` takes every packet of the grammar, and what it makes carries it. -/
def Accepts (codes : DatatypeCodes) (Valid : List Char8 → PacketStream.Packet → Prop) : Prop :=
  ∀ bytes p, decode codes bytes = some p → Plain p → ∃ made, Valid bytes made ∧ Carries p made

def valueAtom : Value → List Atom
  | .bang => []
  | .boolean b => [setBool b]
  | .int32 v => [.int v]
  | .float32 v => [.float v]
  | .string s => [.symbol (.ofBytes s)]

def report (p : Packet) : List Out :=
  [.int 1 (p.id.signExtend 32),
    .list 0 ([symbol ['u', 'p', 'd', 'a', 't', 'e']] ++
      (p.label.map fun label => .symbol (.ofBytes label)).toList ++ valueAtom p.value)]

/-- The lists reach rcp.parse in groups, each joined into one, and come out as these reports;
    every packet made on the way is freed, and nothing is posted. -/
def Tells (rcp_packet_parse : List Char8 → Parsed) (host : Host) (groups : List (List (List Atom)))
    (ps : List Packet) : Prop :=
  ∃ called : List Called,
    List.Forall₂ (fun group c =>
      Returns rcp_packet_parse (group.flatten.map (carry host)) (some c)) groups called ∧
    called.flatMap Called.out = ps.flatMap report ∧
    ∀ c ∈ called, c.posted = none ∧ c.frees = List.range c.made.length

theorem ofBytes_self (s : CString) : CString.ofBytes s.bytes = s :=
  CString.ext (CString.ofBytes_bytes s.terminated)

theorem dispatch_report {p : Packet} {made : PacketStream.Packet} (carries : Carries p made) :
    dispatch made = some (report p) := by
  obtain ⟨q, parameter, id, type, label, holds⟩ := carries.parameter
  have updates : dispatch made = PacketStream.RcpParse.parameterUpdate q := by
    rcases carries.command with c | c <;> simp only [dispatch, c, parameter]
  have value : PacketStream.RcpParse.valueAtoms q = some (valueAtom p.value) := by
    unfold PacketStream.RcpParse.valueAtoms
    rw [type]
    cases eq : p.value with
    | string s =>
      rw [eq] at holds
      obtain ⟨v, found, bytes⟩ := holds
      simp only [Value.datatype, valueAtom, found, Option.map_some, ← bytes, ofBytes_self]
    | bang => rfl
    | boolean b =>
      rw [eq] at holds
      simp only [Value.datatype, valueAtom]
      rw [show q.valueBool = b from holds]
    | int32 v =>
      rw [eq] at holds
      simp only [Value.datatype, valueAtom]
      rw [show q.valueInt32 = v from holds]
    | float32 v =>
      rw [eq] at holds
      simp only [Value.datatype, valueAtom]
      rw [show q.valueFloat = v from holds]
  have named : (p.label.map fun label => Atom.symbol (.ofBytes label)) =
      q.label.map Atom.symbol := by
    rw [← label, Option.map_map]
    congr 1
    funext l
    exact congrArg Atom.symbol (ofBytes_self l)
  rw [updates, PacketStream.RcpParse.parameterUpdate, value, report, named, id]
  rfl

theorem spells_numbers (host : Host) (data : List Char8) : Spells (numbers host data) data := by
  have one (c : Char8) : admissible (carry host (setUChar c)) = some c := by
    have kept := lenientByte_carry host c
    rw [lenientByte_admissible] at kept
    split at kept
    · cases kept
      assumption
    · contradiction
  simp [Spells, numbers, one, Function.comp_def]

section
variable {codes : DatatypeCodes} {rcp_packet_parse : List Char8 → Parsed}
  {Valid : List Char8 → PacketStream.Packet → Prop} (parses : Parses rcp_packet_parse Valid)
  (accepts : Accepts codes Valid)

include accepts

theorem made_reports {ps : List Packet}
    (sound : ∀ p ∈ ps, Plain p ∧ decode codes (bytesOf codes p) = some p) :
    ∃ made : List (List Char8 × PacketStream.Packet), made.map Prod.fst = ps.map (bytesOf codes) ∧
      (∀ m ∈ made, Valid m.1 m.2) ∧ PacketStream.sent made = some (ps.flatMap report) := by
  induction ps with
  | nil => exact ⟨[], rfl, by simp, rfl⟩
  | cons p ps ih =>
    obtain ⟨plain, decoded⟩ := sound p List.mem_cons_self
    obtain ⟨q, valid, carries⟩ := accepts (bytesOf codes p) p decoded plain
    obtain ⟨made, bytes, all_valid, sends⟩ := ih fun p mem => sound p (List.mem_cons_of_mem _ mem)
    refine ⟨(bytesOf codes p, q) :: made, by rw [List.map_cons, List.map_cons, bytes], ?_, ?_⟩
    · intro m mem
      rcases List.mem_cons.mp mem with here | there
      · exact here ▸ valid
      · exact all_valid m there
    · rw [PacketStream.sent_cons, dispatch_report carries, sends]
      rfl

include parses

theorem call_reports {ps : List Packet} (host : Host)
    (sound : ∀ p ∈ ps, Plain p ∧ decode codes (bytesOf codes p) = some p) :
    ∃ c : Called, Returns rcp_packet_parse (numbers host (ps.flatMap (bytesOf codes))) (some c) ∧
      c.out = ps.flatMap report ∧ c.posted = none ∧ c.frees = List.range c.made.length := by
  obtain ⟨made, bytes, valid, sends⟩ := made_reports accepts sound
  have joined : made.flatMap Prod.fst = ps.flatMap (bytesOf codes) := by
    rw [List.flatMap, bytes, List.flatMap]
  have returns := PacketStream.returns_stream parses made valid [] (.inl rfl)
    (numbers host (ps.flatMap (bytesOf codes)))
    (by rw [List.append_nil, joined]; exact spells_numbers host _)
  rw [sends] at returns
  exact ⟨_, returns, rfl, rfl, by simp⟩

theorem groups_tell (host : Host) (groups : List (List (List Atom))) {ps : List Packet}
    (sound : ∀ p ∈ ps, Plain p ∧ decode codes (bytesOf codes p) = some p)
    (grouped : groups.flatten = ps.map fun p => (bytesOf codes p).map setUChar) :
    Tells rcp_packet_parse host groups ps := by
  induction groups generalizing ps with
  | nil =>
    have none := List.map_eq_nil_iff.mp grouped.symm
    subst none
    exact ⟨[], .nil, rfl, by simp⟩
  | cons group groups ih =>
    rw [List.flatten_cons] at grouped
    obtain ⟨now, later, split, first, rest⟩ := List.append_eq_map_iff.mp grouped
    subst split
    have joined : group.flatten.map (carry host) = numbers host (now.flatMap (bytesOf codes)) := by
      rw [← first]
      simp [numbers, List.flatMap, List.map_flatten, Function.comp_def]
    obtain ⟨c, returns, out, posted, frees⟩ := call_reports parses accepts host
      fun p mem => sound p (List.mem_append_left _ mem)
    obtain ⟨called, each, outs, quiet⟩ := ih
      (fun p mem => sound p (List.mem_append_right _ mem)) rest.symm
    refine ⟨c :: called, .cons (joined ▸ returns) each, ?_, ?_⟩
    · rw [List.flatMap_cons, out, outs, List.flatMap_append]
    · exact List.forall_mem_cons.mpr ⟨⟨posted, frees⟩, quiet⟩

end

/- A parser of this grammar alone. -/

section
variable (codes : DatatypeCodes)

def parameterOf (p : Packet) : PacketStream.Parameter where
  label := p.label.map .ofBytes
  id := p.id
  type := p.value.datatype
  valueBool := p.value = .boolean true
  valueInt32 :=
    match p.value with
    | .int32 v => v
    | _ => 0
  valueFloat :=
    match p.value with
    | .float32 v => v
    | _ => 0
  valueString :=
    match p.value with
    | .string s => some (.ofBytes s)
    | _ => none

def packetOf (p : Packet) : PacketStream.Packet where
  command := if p.label.isSome then .commandUpdate else .commandUpdatevalue
  infodata := none
  iddata := 0
  parameter := some (parameterOf p)

def parse (data : List Char8) : Parsed :=
  match takePacket codes data with
  | some (p, rest) => ⟨some (data.length - rest.length), rest.length, some (packetOf p)⟩
  | none => ⟨none, data.length, none⟩

def Alone (bytes : List Char8) (made : PacketStream.Packet) : Prop :=
  ∃ p, takePacket codes bytes = some (p, []) ∧ made = packetOf p

theorem parse_parses : Parses (parse codes) (Alone codes) where
  some_byte := by
    rintro bytes made ⟨p, read, _⟩ empty
    rw [empty] at read
    contradiction
  valid := by
    rintro bytes made rest ⟨p, read, eq⟩
    rw [parse, Prefixes.read_before (takePacket_takesFront codes) read rest, eq]
    simp
  malformed := by
    intro data bad
    unfold parse
    cases read : takePacket codes data with
    | none => exact ⟨rfl, rfl⟩
    | some found =>
      obtain ⟨taken, split, alone⟩ := Prefixes.taken_alone (takePacket_takesFront codes) read
      exact absurd split (bad taken (packetOf found.1) found.2 ⟨found.1, alone, rfl⟩)

theorem packetOf_carries {p : Packet} (plain : Plain p) : Carries p (packetOf p) := by
  refine ⟨?_, parameterOf p, rfl, rfl, rfl, ?_, ?_⟩
  · unfold packetOf
    split
    · exact .inl rfl
    · exact .inr rfl
  · cases eq : p.label with
    | none => simp [parameterOf, eq]
    | some label => simp [parameterOf, eq, CString.ofBytes_bytes (plain.label label eq)]
  · cases eq : p.value with
    | bang => trivial
    | boolean b => cases b <;> simp [Holds, parameterOf, eq]
    | int32 v => simp [Holds, parameterOf, eq]
    | float32 v => simp [Holds, parameterOf, eq]
    | string s => simp [Holds, parameterOf, eq, CString.ofBytes_bytes (plain.value s eq)]

theorem parse_accepts : Accepts codes (Alone codes) := fun _ p decoded plain =>
  ⟨packetOf p, ⟨p, (decode_eq_some codes).mp decoded, rfl⟩, packetOf_carries plain⟩

end

/-- Whatever rcp.format is sent, its lists make rcp.parse report what each input meant, in
    order and once, however the patch joins them. -/
theorem joined_reports (codes : DatatypeCodes) (rcp_packet_parse : List Char8 → Parsed)
    (Valid : List Char8 → PacketStream.Packet → Prop) (parses : Parses rcp_packet_parse Valid)
    (accepts : Accepts codes Valid) (argv : List Atom) (f : RcpFormat)
    (created : create argv = .ok f) (es : List Event)
    (careful : Runs.Steps meaning (Careful codes) f es) (host : Host)
    (groups : List (List (List Atom))) (grouped : groups.flatten = lists codes f es) :
    (∃ t, Runs.run (step codes) f es = some t) ∧
      Tells rcp_packet_parse host groups (packets f es) := by
  have kept := create_kept created
  obtain ⟨same, sends⟩ := lists_careful codes kept careful
  refine ⟨same ▸ meaning_runs f es, ?_⟩
  exact groups_tell parses accepts host groups (packets_sound codes kept careful)
    (grouped.trans sends)

theorem patch_joined : (∃ t, Runs.run (step sampleCodes) afresh patch = some t) ∧
    Tells (parse sampleCodes) .pd [lists sampleCodes afresh patch] (packets afresh patch) :=
  joined_reports sampleCodes (parse sampleCodes) (Alone sampleCodes) (parse_parses sampleCodes)
    (parse_accepts sampleCodes) [] afresh rfl patch patch_careful .pd _ (by simp)

/-- And so they do when slipencoder takes them and slipdecoder gets what that sends, cut in
    any way: the same lists arrive behind it. -/
theorem slip_reports {S : Type} (codes : DatatypeCodes) (rcp_packet_parse : List Char8 → Parsed)
    (Valid : List Char8 → PacketStream.Packet → Prop) (parses : Parses rcp_packet_parse Valid)
    (accepts : Accepts codes Valid) (codec : Slip.Codec S) (rcp_slip_create : CInt → Option S)
    (fits : CInt → Slip.Packet → Prop)
    (delivers : ∀ size m_slip, rcp_slip_create size = some m_slip →
      codec.Delivers m_slip (fits size))
    (argv : List Atom) (f : RcpFormat) (created : create argv = .ok f) (es : List Event)
    (careful : Runs.Steps meaning (Careful codes) f es) (host : Host) (encoder : SlipEncoder)
    (size : List Atom) (m_slip : S) (made : SlipDecoder.create rcp_slip_create size = .ok m_slip)
    (fit : ∀ p ∈ packets f es, fits (SlipDecoder.bufferSize size 1024) (bytesOf codes p)) :
    ∃ last encoded, SlipEncoder.run codec.encode encoder
        ((lists codes f es).map fun atoms => atoms.map (carry host)) = some (last, encoded) ∧
      ∀ inputs : List SlipDecoder.Input,
        inputs.flatMap SlipDecoder.Input.atoms = encoded.flatten.map (carry host) →
        (SlipDecoder.run codec m_slip inputs).2 = lists codes f es ∧
        ∀ groups, groups.flatten = (SlipDecoder.run codec m_slip inputs).2 →
          Tells rcp_packet_parse host groups (packets f es) := by
  have kept := create_kept created
  obtain ⟨_, sends⟩ := lists_careful codes kept careful
  have arrive : (lists codes f es).map (fun atoms => atoms.map (carry host)) =
      ((packets f es).map (bytesOf codes)).map (numbers host) := by
    rw [sends, List.map_map, List.map_map]
    rfl
  have fit_all : ∀ m ∈ (packets f es).map (bytesOf codes),
      fits (SlipDecoder.bufferSize size 1024) m := List.forall_mem_map.mpr fit
  have whole := delivers _ m_slip (create_size made)
  obtain ⟨last, encoded, sent, fed⟩ :=
    through_slip codec m_slip host encoder ((packets f es).map (bytesOf codes))
  refine ⟨last, encoded, arrive ▸ sent, fun inputs same => ?_⟩
  have delivered : (SlipDecoder.run codec m_slip inputs).2 = lists codes f es := by
    rw [fed inputs same, codec.feed_stream whole _ fit_all, sends, List.map_map]
    rfl
  refine ⟨delivered, fun groups grouped => ?_⟩
  exact groups_tell parses accepts host groups (packets_sound codes kept careful)
    (grouped.trans (delivered.trans sends))

theorem patch_slipped : ∃ last encoded,
    SlipEncoder.run Slip.reference.encode ⟨[]⟩
        ((lists sampleCodes afresh patch).map fun atoms => atoms.map (carry .max)) =
      some (last, encoded) ∧
    ∀ inputs : List SlipDecoder.Input,
      inputs.flatMap SlipDecoder.Input.atoms = encoded.flatten.map (carry .max) →
      (SlipDecoder.run Slip.reference ⟨64, [], false⟩ inputs).2 = lists sampleCodes afresh patch ∧
      ∀ groups, groups.flatten = (SlipDecoder.run Slip.reference ⟨64, [], false⟩ inputs).2 →
        Tells (parse sampleCodes) .max groups (packets afresh patch) :=
  slip_reports sampleCodes (parse sampleCodes) (Alone sampleCodes) (parse_parses sampleCodes)
    (parse_accepts sampleCodes) Slip.reference (fun size => some ⟨size.toNat, [], false⟩)
    (fun size packet => packet ≠ [] ∧ packet.length ≤ size.toNat)
    (fun size _ created => Option.some.inj created ▸ Slip.reference_delivers size.toNat)
    [] afresh rfl patch patch_careful .max ⟨[]⟩ [.int 64] ⟨64, [], false⟩ rfl (by decide)

end PacketDelivery
