import RcpFlext.Chunking
import RcpFlext.Reports

/- rcp.parse: the loop that takes a list of bytes apart into packets. `rcp_packet_parse` is
   a parameter; a packet is known by its place among those it has made. -/
namespace PacketStream
open Atoms BytePorts Datatypes Reports Chunking

inductive Command where
  | commandInvalid
  | commandInfo
  | commandInitialize
  | commandDiscover
  | commandUpdate
  | commandRemove
  | commandUpdatevalue
  | commandMax
  deriving DecidableEq

structure InfoData where
  version : Option CString
  application_id : Option CString
  deriving DecidableEq

structure Parameter where
  label : Option CString
  id : BitVec 16
  type : Datatype
  valueBool : Bool
  valueInt32 : CInt
  valueFloat : Binary32.Word
  valueString : Option CString
  deriving DecidableEq

structure Packet where
  command : Command
  infodata : Option InfoData
  iddata : BitVec 16
  parameter : Option Parameter
  deriving DecidableEq

namespace RcpParse

def outputList (str : List Char) (id : BitVec 16) : List Out :=
  [.int 1 (id.signExtend 32), .list 0 [symbol str]]

def valueAtoms (parameter : Parameter) : Option (List Atom) :=
  match parameter.type with
  | .boolean => some [setBool parameter.valueBool]
  | .int32 => some [.int parameter.valueInt32]
  | .float32 => some [.float parameter.valueFloat]
  | .string => parameter.valueString.map fun v => [.symbol v]
  | _ => some []

def parameterUpdate (parameter : Parameter) : Option (List Out) :=
  (valueAtoms parameter).map fun value =>
    [.int 1 (parameter.id.signExtend 32),
      .list 0 ([symbol ['u', 'p', 'd', 'a', 't', 'e']] ++
        (parameter.label.map Atom.symbol).toList ++ value)]

def infoList : Option InfoData → Option (List Out)
  | some info_data => info_data.version.map fun version =>
      [.list 0 ([symbol ['i', 'n', 'f', 'o'], .symbol version] ++
        (info_data.application_id.map Atom.symbol).toList)]
  | none => some [.list 0 [symbol ['i', 'n', 'f', 'o']]]

def dispatch (packet : Packet) : Option (List Out) :=
  match packet.command with
  | .commandInfo => infoList packet.infodata
  | .commandInitialize =>
    some (outputList ['i', 'n', 'i', 't', 'i', 'a', 'l', 'i', 'z', 'e'] packet.iddata)
  | .commandDiscover => some (outputList ['d', 'i', 's', 'c', 'o', 'v', 'e', 'r'] packet.iddata)
  | .commandUpdate | .commandUpdatevalue =>
    match packet.parameter with
    | some param => parameterUpdate param
    | none => some []
  | .commandRemove => some (outputList ['r', 'e', 'm', 'o', 'v', 'e'] packet.iddata)
  | .commandInvalid | .commandMax => some []

/-- What `rcp_packet_parse` does with so many bytes at `data`: the pointer it returns, as a
    distance from `data`, what it leaves in `*size`, and the packet it makes. -/
structure Parsed where
  rest : Option Nat
  size : Nat
  packet : Option Packet

/-- `made` are the packets so far, and `frees` the calls of `rcp_packet_free`. -/
structure Loop where
  data_p : Option Nat
  data_size : Nat
  packet : Option Nat
  made : List Packet
  frees : List Nat
  out : List Out

section
variable (rcp_packet_parse : List Char8 → Parsed) (data : List Char8)

/-- The size is read before it is written. -/
def Loop.parse (s : Loop) (p : Nat) : Loop :=
  let parsed := rcp_packet_parse ((data.drop p).take s.data_size)
  { s with
    data_p := parsed.rest.map (p + ·)
    data_size := parsed.size
    packet := if parsed.packet.isSome then some s.made.length else s.packet
    made := s.made ++ parsed.packet.toList }

def Loop.handle (s : Loop) : Option Loop :=
  match s.data_p, s.packet with
  | some _, some h => do
    let packet ← s.made[h]?
    let outs ← dispatch packet
    some { s with out := s.out ++ outs, frees := s.frees ++ [h], packet := none }
  | _, _ => some s

def Loop.body (s : Loop) : Option Loop :=
  match s.data_p with
  | some p => (s.parse rcp_packet_parse data p).handle
  | none => some s

def Loop.Ends (s : Loop) : Prop := s.data_p = none ∨ s.data_size = 0

instance (s : Loop) : Decidable s.Ends := inferInstanceAs (Decidable (_ ∨ _))

def loop : Nat → Loop → Option (Option Loop)
  | 0, s => if s.Ends then some (some s) else none
  | turns + 1, s =>
    if s.Ends then some (some s)
    else match s.body rcp_packet_parse data with
      | some next => loop turns next
      | none => some none

structure Called where
  posted : Option String
  out : List Out
  made : List Packet
  frees : List Nat
  deriving DecidableEq

def mList (turns : Nat) (argv : List Atom) : Option (Option Called) :=
  match BytePorts.RcpParse.mListData argv with
  | .on data =>
    (loop rcp_packet_parse data turns ⟨some 0, data.length, none, [], [], []⟩).map fun ended =>
      ended.map fun s => ⟨none, s.out, s.made, s.frees⟩
  | .dropped report => some (some ⟨report, [], [], []⟩)
  | .undefined => some none

end

end RcpParse

open RcpParse

section
variable (rcp_packet_parse : List Char8 → Parsed) (Valid : List Char8 → Packet → Prop)

/-- The call comes to an end, and does not depend on how many turns were allowed. -/
def Returns (argv : List Atom) (called : Option Called) : Prop :=
  ∃ turns, ∀ more, mList rcp_packet_parse (turns + more) argv = some called

def Malformed (data : List Char8) : Prop :=
  ∀ bytes packet rest, Valid bytes packet → data ≠ bytes ++ rest

structure Parses : Prop where
  some_byte : ∀ bytes packet, Valid bytes packet → bytes ≠ []
  valid : ∀ bytes packet rest, Valid bytes packet →
    rcp_packet_parse (bytes ++ rest) = ⟨some bytes.length, rest.length, some packet⟩
  malformed : ∀ data, Malformed Valid data →
    (rcp_packet_parse data).rest = none ∧ (rcp_packet_parse data).packet = none

end

def Spells (argv : List Atom) (bytes : List Char8) : Prop :=
  argv.map admissible = bytes.map some

instance (argv : List Atom) (bytes : List Char8) : Decidable (Spells argv bytes) :=
  inferInstanceAs (Decidable (_ = _))

theorem mListData_spells {argv : List Atom} {bytes : List Char8} (spells : Spells argv bytes) :
    BytePorts.RcpParse.mListData argv = .on bytes := by
  apply (throughBuffer_on_iff strictByte argv bytes).mpr
  apply Cells.survivors_of_kept
  unfold Spells at spells
  induction bytes generalizing argv with
  | nil =>
    rw [List.map_eq_nil_iff.mp spells]
    rfl
  | cons c bytes ih =>
    obtain ⟨a, rest, eq, first, others⟩ := List.map_eq_cons_iff.mp spells
    rw [eq, List.map_cons, List.map_cons, strictByte_admissible, first, ih others]

def sent (packets : List (List Char8 × Packet)) : Option (List Out) :=
  (packets.mapM fun p => dispatch p.2).map List.flatten

theorem sent_cons (p : List Char8 × Packet) (packets : List (List Char8 × Packet)) :
    sent (p :: packets) =
      (dispatch p.2).bind fun outs => (sent packets).map fun later => outs ++ later := by
  simp only [sent, List.mapM_cons]
  cases dispatch p.2 with
  | none => rfl
  | some outs =>
    cases packets.mapM fun p => dispatch p.2 <;> rfl

def single (p : List Char8 × Packet) : Option Called :=
  (dispatch p.2).map fun outs => ⟨none, outs, [p.2], [0]⟩

section
variable {rcp_packet_parse : List Char8 → Parsed} {Valid : List Char8 → Packet → Prop}
  (parses : Parses rcp_packet_parse Valid)

theorem loop_ended {data : List Char8} {s : Loop} (ends : s.Ends) (turns : Nat) :
    loop rcp_packet_parse data turns s = some (some s) := by
  cases turns with
  | zero => rw [loop, if_pos ends]
  | succ turns => rw [loop, if_pos ends]

theorem loop_turn {data : List Char8} {s : Loop} (goes : ¬ s.Ends) (turns : Nat) :
    loop rcp_packet_parse data (turns + 1) s =
      match s.body rcp_packet_parse data with
      | some next => loop rcp_packet_parse data turns next
      | none => some none := by
  rw [loop, if_neg goes]

/-- Before each turn the pointer stands behind the bytes consumed, the size is that of the
    rest, the variable is NULL, and every packet made has been freed. -/
structure Stands (s : Loop) (consumed rest : List Char8) : Prop where
  data_p : s.data_p = some consumed.length
  data_size : s.data_size = rest.length
  packet : s.packet = none
  frees : s.frees = List.range s.made.length

section
variable {s : Loop} {consumed rest : List Char8}

theorem stands_goes (stands : Stands s consumed rest) (some_left : rest ≠ []) : ¬ s.Ends := by
  have size : rest.length ≠ 0 := fun none => some_left (List.length_eq_zero_iff.mp none)
  simp [Loop.Ends, stands.data_p, stands.data_size, size]

theorem stands_ahead (stands : Stands s consumed rest) :
    ((consumed ++ rest).drop consumed.length).take s.data_size = rest := by
  simp [stands.data_size]

include parses

theorem body_packet {bytes : List Char8} {packet : Packet} (valid : Valid bytes packet)
    (stands : Stands s consumed (bytes ++ rest)) :
    match dispatch packet with
    | none => s.body rcp_packet_parse (consumed ++ (bytes ++ rest)) = none
    | some outs => ∃ next, s.body rcp_packet_parse (consumed ++ (bytes ++ rest)) = some next ∧
        Stands next (consumed ++ bytes) rest ∧ next.out = s.out ++ outs ∧
        next.made = s.made ++ [packet] := by
  have parsed : s.parse rcp_packet_parse (consumed ++ (bytes ++ rest)) consumed.length =
      { s with
        data_p := some (consumed.length + bytes.length)
        data_size := rest.length
        packet := some s.made.length
        made := s.made ++ [packet] } := by
    rw [Loop.parse, stands_ahead stands, parses.valid bytes packet rest valid]
    rfl
  have body : s.body rcp_packet_parse (consumed ++ (bytes ++ rest)) = (dispatch packet).bind
      fun outs => some { s with
        data_p := some (consumed.length + bytes.length)
        data_size := rest.length
        packet := none
        made := s.made ++ [packet]
        out := s.out ++ outs
        frees := s.frees ++ [s.made.length] } := by
    rw [Loop.body, stands.data_p]
    simp [parsed, Loop.handle]
  rw [body]
  cases sends : dispatch packet with
  | none => rfl
  | some outs =>
    refine ⟨_, rfl, ⟨?_, rfl, rfl, ?_⟩, rfl, rfl⟩
    · simp
    · simp [stands.frees, List.range_succ]

theorem body_malformed (bad : Malformed Valid rest) (stands : Stands s consumed rest) :
    ∃ next, s.body rcp_packet_parse (consumed ++ rest) = some next ∧ next.Ends ∧
      next.out = s.out ∧ next.made = s.made ∧ next.frees = s.frees := by
  obtain ⟨null, nothing⟩ := parses.malformed rest bad
  have parsed : (s.parse rcp_packet_parse (consumed ++ rest) consumed.length).data_p = none := by
    simp only [Loop.parse, stands_ahead stands, null, Option.map_none]
  refine ⟨s.parse rcp_packet_parse (consumed ++ rest) consumed.length, ?_, .inl parsed, rfl, ?_, rfl⟩
  · simp [Loop.body, stands.data_p, Loop.handle, parsed]
  · simp only [Loop.parse, stands_ahead stands, nothing, Option.toList_none, List.append_nil]

end

include parses

theorem loop_tail {rest : List Char8} (bad : rest = [] ∨ Malformed Valid rest) {s : Loop}
    {consumed : List Char8} (stands : Stands s consumed rest) (more : Nat) :
    ∃ last, loop rcp_packet_parse (consumed ++ rest) (more + 1) s = some (some last) ∧
      last.out = s.out ∧ last.made = s.made ∧ last.frees = s.frees := by
  by_cases empty : rest = []
  · refine ⟨s, loop_ended (.inr ?_) _, rfl, rfl, rfl⟩
    rw [stands.data_size, empty]
    rfl
  · have malformed := bad.resolve_left empty
    obtain ⟨next, body, ends, same⟩ := body_malformed parses malformed stands
    refine ⟨next, ?_, same⟩
    rw [loop_turn (stands_goes stands empty), body]
    exact loop_ended ends more

/-- The loop over a stream of packets, wherever it starts and with any turns to spare. -/
theorem loop_stream (packets : List (List Char8 × Packet))
    (valid : ∀ p ∈ packets, Valid p.1 p.2) (rest : List Char8)
    (bad : rest = [] ∨ Malformed Valid rest) (s : Loop) (consumed : List Char8)
    (stands : Stands s consumed (packets.flatMap Prod.fst ++ rest)) (more : Nat) :
    match sent packets with
    | none => loop rcp_packet_parse (consumed ++ (packets.flatMap Prod.fst ++ rest))
        (packets.length + 1 + more) s = some none
    | some outs => ∃ last, loop rcp_packet_parse (consumed ++ (packets.flatMap Prod.fst ++ rest))
        (packets.length + 1 + more) s = some (some last) ∧ last.out = s.out ++ outs ∧
        last.made = s.made ++ packets.map Prod.snd ∧ last.frees = List.range last.made.length := by
  induction packets generalizing s consumed with
  | nil =>
    simp only [List.flatMap_nil, List.nil_append] at stands ⊢
    obtain ⟨last, ran, out, made, frees⟩ := loop_tail parses bad stands more
    refine ⟨last, ?_, by simp [out], by simp [made], by rw [frees, made, stands.frees]⟩
    rw [List.length_nil, Nat.zero_add, Nat.add_comm 1 more]
    exact ran
  | cons p packets ih =>
    have here := valid p List.mem_cons_self
    have others : ∀ q ∈ packets, Valid q.1 q.2 := fun q mem =>
      valid q (List.mem_cons_of_mem _ mem)
    rw [List.flatMap_cons, List.append_assoc] at stands ⊢
    have some_left : p.1 ++ (packets.flatMap Prod.fst ++ rest) ≠ [] := by
      intro none
      exact parses.some_byte p.1 p.2 here (List.append_eq_nil_iff.mp none).1
    have turns : (p :: packets).length + 1 + more = packets.length + 1 + more + 1 := by
      simp only [List.length_cons]
      omega
    have body := body_packet parses here stands
    rw [turns, loop_turn (stands_goes stands some_left), sent_cons]
    cases sends : dispatch p.2 with
    | none =>
      rw [sends] at body
      simp only [body, Option.bind_none]
    | some outs =>
      rw [sends] at body
      obtain ⟨next, went, stands_next, out, made⟩ := body
      have later := ih others next (consumed ++ p.1) stands_next
      rw [List.append_assoc] at later
      simp only [went, Option.bind_some]
      cases rest_sends : sent packets with
      | none =>
        rw [rest_sends] at later
        exact later
      | some after =>
        rw [rest_sends] at later
        obtain ⟨last, ran, last_out, last_made, last_frees⟩ := later
        refine ⟨last, ran, ?_, ?_, last_frees⟩
        · rw [last_out, out, List.append_assoc]
        · rw [last_made, made]
          simp

theorem returns_stream (packets : List (List Char8 × Packet))
    (valid : ∀ p ∈ packets, Valid p.1 p.2) (rest : List Char8)
    (bad : rest = [] ∨ Malformed Valid rest) (argv : List Atom)
    (spells : Spells argv (packets.flatMap Prod.fst ++ rest)) :
    Returns rcp_packet_parse argv ((sent packets).map fun outs =>
      ⟨none, outs, packets.map Prod.snd, List.range packets.length⟩) := by
  refine ⟨packets.length + 1, fun more => ?_⟩
  have stands : Stands ⟨some 0, (packets.flatMap Prod.fst ++ rest).length, none, [], [], []⟩ []
    (packets.flatMap Prod.fst ++ rest) := ⟨rfl, rfl, rfl, rfl⟩
  have ran := loop_stream parses packets valid rest bad _ [] stands more
  rw [mList, mListData_spells spells]
  cases sends : sent packets with
  | none =>
    rw [sends] at ran
    simp only [List.nil_append] at ran
    simp only [ran, Option.map_some, Option.map_none]
  | some outs =>
    rw [sends] at ran
    obtain ⟨last, ended, out, made, frees⟩ := ran
    simp only [List.nil_append] at ended out made
    simp only [ended, Option.map_some, out, made, frees, List.length_map]

end

end PacketStream
