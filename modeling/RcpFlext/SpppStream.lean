import RcpFlext.Chunking
import RcpFlext.Library.Runs

/- sppp as a whole object: what it is made with, what it puts out for any messages, and
   `reset`, which brings it back into step with the frames. -/
namespace SpppStream
open Atoms BytePorts SlipRoundTrip Framing Chunking

/-- What sppp asks of rcp-c: a parser for a buffer size, and to start over. -/
structure Rcp (S : Type) where
  rcp_sppp_create : CInt → Parser S
  rcp_sppp_reset : Parser S → S → S

structure Rcp.Laws {S : Type} (rcp : Rcp S) : Prop where
  correct : ∀ size, 0 < size.toInt → (rcp.rcp_sppp_create size).Correct size.toNat
  reset : ∀ size s, rcp.rcp_sppp_reset (rcp.rcp_sppp_create size) s =
    (rcp.rcp_sppp_create size).start

inductive Event where
  | message (m : Message)
  | reset
  deriving DecidableEq

namespace SPPParser

def bufferSize (argv : List Atom) : CInt := SlipDecoder.bufferSize argv 1024

def create {S : Type} (rcp : Rcp S) (argv : List Atom) : Except String (Parser S) :=
  let buffer_size := bufferSize argv
  if buffer_size.toInt ≤ 0 then .error "please provide a valid buffersize"
  else .ok (rcp.rcp_sppp_create buffer_size)

def feeds {S : Type} (parser : Parser S) (s : S) (calls : List (List Char8)) : S :=
  calls.foldl (fun s data => (parser.feed s data).1) s

def step {S : Type} (rcp : Rcp S) (parser : Parser S) : Runs.Machine S Event (List (List Atom)) :=
  fun s e =>
    match e with
    | .message m => (Chunking.SPPParser.hands m).map fun calls =>
      (feeds parser s calls, (parser.run s calls).map BytePorts.SPPParser.dataOut)
    | .reset => some (rcp.rcp_sppp_reset parser s, [])

def outlet {S : Type} (rcp : Rcp S) (parser : Parser S) : S → List Event → List (List Atom) :=
  Runs.told (step rcp parser) fun _ _ next => next.2

end SPPParser

section
variable {S : Type} {rcp : Rcp S} {parser : Parser S}

theorem run_append (s : S) (calls later : List (List Char8)) :
    parser.run s (calls ++ later) =
      parser.run s calls ++ parser.run (SPPParser.feeds parser s calls) later := by
  induction calls generalizing s with
  | nil => rfl
  | cons data calls ih =>
    rw [List.cons_append, Parser.run, Parser.run, ih, List.append_assoc]
    rfl

theorem create_size {argv : List Atom} (created : SPPParser.create rcp argv = .ok parser) :
    0 < (SPPParser.bufferSize argv).toInt ∧
      rcp.rcp_sppp_create (SPPParser.bufferSize argv) = parser := by
  unfold SPPParser.create at created
  simp only at created
  split at created
  · cases created
  · rename_i positive
    cases created
    exact ⟨by omega, rfl⟩

theorem step_some (s : S) (e : Event) : ∃ next, SPPParser.step rcp parser s e = some next := by
  cases e with
  | message m =>
    obtain ⟨calls, handed, _⟩ := hands_bytes m
    exact ⟨_, by rw [SPPParser.step, handed]; rfl⟩
  | reset => exact ⟨_, rfl⟩

theorem runs (s : S) (es : List Event) : ∃ t, Runs.run (SPPParser.step rcp parser) s es = some t := by
  induction es generalizing s with
  | nil => exact ⟨s, rfl⟩
  | cons e es ih =>
    obtain ⟨next, stepped⟩ := @step_some S rcp parser s e
    obtain ⟨t, rest⟩ := ih next.1
    exact ⟨t, by rw [Runs.run, stepped]; exact rest⟩

/-- Between two resets only the calls count, not the messages they came in. -/
theorem outlet_messages (s : S) (messages : List Message) {calls : List (List Char8)}
    (ran : Chunking.SPPParser.run messages = some calls) :
    SPPParser.outlet rcp parser s (messages.map .message) =
      (parser.run s calls).map BytePorts.SPPParser.dataOut := by
  induction messages generalizing s calls with
  | nil =>
    cases ran
    rfl
  | cons m messages ih =>
    obtain ⟨now, handed, more⟩ := Option.bind_eq_some_iff.mp ran
    obtain ⟨later, rest, eq⟩ := Option.bind_eq_some_iff.mp more
    cases eq
    have stepped : SPPParser.step rcp parser s (.message m) =
        some (SPPParser.feeds parser s now, (parser.run s now).map BytePorts.SPPParser.dataOut) := by
      rw [SPPParser.step, handed]
      rfl
    have told := ih (SPPParser.feeds parser s now) rest
    rw [List.map_cons, SPPParser.outlet, Runs.told_cons stepped, run_append, List.map_append]
    exact congrArg _ told

end

theorem admissible_carry (host : Host) (a : Atom) : admissible (carry host a) = admissible a := by
  cases host with
  | max => rfl
  | pd =>
    cases a with
    | int v => exact admissible_ofInt v
    | float f => rfl
    | symbol s => rfl
    | pointer => rfl

theorem prefixed_stream (host : Host) {messages : List (List Char8)}
    (low : ∀ m ∈ messages, SizePrefix.LowLength m) :
    ((SizePrefix.lists messages).flatten.map (carry host)).filterMap admissible =
      stream messages := by
  have same : admissible ∘ carry host = admissible := funext (admissible_carry host)
  have each : (SizePrefix.lists messages).map (List.filterMap admissible) =
      (SizePrefix.lists messages).map BytePorts.SlipDecoder.mList :=
    List.map_congr_left fun argv _ => (mList_admissible argv).symm
  rw [List.filterMap_map, same, List.filterMap_flatten, each]
  exact SizePrefix.handed_of_low messages low

/-- Every message is taken, and whatever has come before it, behind a reset the frames from
    sizeprefix come out as the messages they hold, in order and however they are cut. -/
theorem reset_in_step {S : Type} (rcp : Rcp S) (laws : rcp.Laws) (argv : List Atom)
    (parser : Parser S) (created : SPPParser.create rcp argv = .ok parser) (before : List Event)
    (host : Host) (messages : List (List Char8)) (low : ∀ m ∈ messages, SizePrefix.LowLength m)
    (fits : ∀ m ∈ messages, m.length ≤ (SPPParser.bufferSize argv).toNat) (inputs : List Message)
    (cut : inputs.flatMap SlipDecoder.Input.atoms =
      (SizePrefix.lists messages).flatten.map (carry host)) :
    (∃ t, Runs.run (SPPParser.step rcp parser) parser.start
      (before ++ .reset :: inputs.map .message) = some t) ∧
    SPPParser.outlet rcp parser parser.start (before ++ .reset :: inputs.map .message) =
      SPPParser.outlet rcp parser parser.start before ++
        messages.map BytePorts.SPPParser.dataOut := by
  refine ⟨runs parser.start _, ?_⟩
  obtain ⟨t, ran⟩ := @runs S rcp parser parser.start before
  obtain ⟨positive, eq⟩ := create_size created
  have again : rcp.rcp_sppp_reset parser t = parser.start := eq ▸ laws.reset _ t
  have correct : parser.Correct (SPPParser.bufferSize argv).toNat :=
    eq ▸ laws.correct _ positive
  obtain ⟨calls, handed, bytes⟩ := run_bytes inputs
  have whole : calls.flatten = stream messages := by
    rw [bytes, stream_admissible, cut, prefixed_stream host low]
  have stepped : SPPParser.step rcp parser t .reset = some (parser.start, []) := by
    rw [SPPParser.step, again]
  rw [SPPParser.outlet, Runs.told_append ran, Runs.told_cons stepped]
  have told := @outlet_messages S rcp parser parser.start inputs calls handed
  rw [correct messages calls fits whole] at told
  exact congrArg _ told

def bytewise : Rcp Progress where
  rcp_sppp_create _ := reference
  rcp_sppp_reset parser _ := parser.start

theorem bytewise_laws : bytewise.Laws where
  correct size _ := reference_correct size.isLt
  reset _ _ := rfl

def pieces : List Message := [.list [.int 0, .int 0], .list [.int 0, .int 1, .int 9]]

theorem noise_reset :
    (∃ t, Runs.run (SPPParser.step bytewise reference) reference.start
      ([.message (.list [.int 7, .int 7])] ++ .reset :: pieces.map .message) = some t) ∧
    SPPParser.outlet bytewise reference reference.start
        ([.message (.list [.int 7, .int 7])] ++ .reset :: pieces.map .message) =
      SPPParser.outlet bytewise reference reference.start [.message (.list [.int 7, .int 7])] ++
        [[9]].map BytePorts.SPPParser.dataOut :=
  reset_in_step bytewise bytewise_laws [] reference rfl _ .max [[9]]
    (by unfold SizePrefix.LowLength; decide) (by decide) pieces (by decide)

end SpppStream
