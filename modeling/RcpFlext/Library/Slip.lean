import Mathlib.Data.List.Induction
import RcpFlext.Library.BigEndian

/- Packets delimited inside a byte stream. An encoder and a decoder that takes one byte at a
   time fit each other when every encoded packet comes out once, also behind earlier ones. -/
namespace Slip
open BigEndian

abbrev Packet := List Byte

structure Codec (S : Type) where
  encode : Packet → List Byte
  append : S → Byte → S × List Packet

def Codec.feed {S : Type} (codec : Codec S) : S → List Byte → S × List Packet
  | s, [] => (s, [])
  | s, b :: bytes =>
    ((codec.feed (codec.append s b).1 bytes).1,
      (codec.append s b).2 ++ (codec.feed (codec.append s b).1 bytes).2)

section Feeding
variable {S : Type} (codec : Codec S)

def Codec.stream (packets : List Packet) : List Byte := packets.flatMap codec.encode

/-- Behind any packets that fit, the bytes of one more call the callback once, with it. -/
def Codec.Delivers (start : S) (fits : Packet → Prop) : Prop :=
  ∀ earlier packet, (∀ e ∈ earlier, fits e) → fits packet →
    (codec.feed (codec.feed start (codec.stream earlier)).1 (codec.encode packet)).2 = [packet]

/-- The same of the packets that `keep` tells apart, whatever else comes out. -/
def Codec.DeliversThose (keep : Packet → Bool) (start : S) (fits : Packet → Prop) : Prop :=
  ∀ earlier packet, (∀ e ∈ earlier, fits e) → fits packet →
    (codec.feed (codec.feed start (codec.stream earlier)).1 (codec.encode packet)).2.filter keep =
      [packet].filter keep

theorem Codec.delivers_those {start : S} {fits : Packet → Prop} :
    codec.DeliversThose (fun _ => true) start fits ↔ codec.Delivers start fits := by
  have all (packets : List Packet) : packets.filter (fun _ => true) = packets :=
    List.filter_eq_self.mpr fun _ _ => rfl
  simp only [DeliversThose, Delivers, all]

theorem Codec.feed_append (s : S) (left right : List Byte) :
    codec.feed s (left ++ right) = ((codec.feed (codec.feed s left).1 right).1,
      (codec.feed s left).2 ++ (codec.feed (codec.feed s left).1 right).2) := by
  induction left generalizing s with
  | nil => simp [feed]
  | cons b left ih => simp [feed, ih]

theorem Codec.stream_concat (packets : List Packet) (packet : Packet) :
    codec.stream (packets ++ [packet]) = codec.stream packets ++ codec.encode packet := by
  simp [stream]

theorem Codec.feed_stream_those {keep : Packet → Bool} {start : S} {fits : Packet → Prop}
    (delivers : codec.DeliversThose keep start fits) (packets : List Packet)
    (fit : ∀ p ∈ packets, fits p) :
    (codec.feed start (codec.stream packets)).2.filter keep = packets.filter keep := by
  induction packets using List.reverseRecOn with
  | nil => simp [stream, feed]
  | append_singleton packets packet ih =>
    have before : ∀ p ∈ packets, fits p := fun p mem => fit p (by simp [mem])
    have last := delivers packets packet before (fit packet (by simp))
    rw [stream_concat, feed_append]
    simp only [List.filter_append, ih before, last]

theorem Codec.feed_stream {start : S} {fits : Packet → Prop}
    (delivers : codec.Delivers start fits) (packets : List Packet) (fit : ∀ p ∈ packets, fits p) :
    (codec.feed start (codec.stream packets)).2 = packets := by
  have whole := codec.feed_stream_those (codec.delivers_those.mpr delivers) packets fit
  rwa [List.filter_eq_self.mpr fun _ _ => rfl, List.filter_eq_self.mpr fun _ _ => rfl] at whole

/-- It is enough that a packet leaves the decoder where the next one may start. -/
theorem Codec.delivers_of_ready {keep : Packet → Bool} {start : S} {fits : Packet → Prop}
    (ready : S → Prop) (begins : ready start)
    (one : ∀ s packet, ready s → fits packet → ready (codec.feed s (codec.encode packet)).1 ∧
      (codec.feed s (codec.encode packet)).2.filter keep = [packet].filter keep) :
    codec.DeliversThose keep start fits := by
  have between : ∀ packets : List Packet, (∀ p ∈ packets, fits p) →
      ready (codec.feed start (codec.stream packets)).1 := by
    intro packets
    induction packets using List.reverseRecOn with
    | nil => exact fun _ => begins
    | append_singleton packets packet ih =>
      intro fit
      rw [stream_concat, feed_append]
      exact (one _ packet (ih fun p mem => fit p (by simp [mem])) (fit packet (by simp))).1
  intro earlier packet fit fits_packet
  exact (one _ packet (between earlier fit) fits_packet).2

end Feeding

/- The byte stuffing of RFC 1055, with a buffer of a fixed size behind it. -/
section Stuffing

def finish : Byte := 192
def escape : Byte := 219
def escapedFinish : Byte := 220
def escapedEscape : Byte := 221

def stuff (b : Byte) : List Byte :=
  if b = finish then [escape, escapedFinish]
  else if b = escape then [escape, escapedEscape]
  else [b]

structure Buffer where
  limit : Nat
  seen : Packet
  escaped : Bool
  deriving DecidableEq, Repr

def Buffer.push (s : Buffer) (b : Byte) : Buffer :=
  if s.seen.length < s.limit then { s with seen := s.seen ++ [b], escaped := false }
  else { s with escaped := false }

def unstuff (b : Byte) : Byte :=
  if b = escapedFinish then finish else if b = escapedEscape then escape else b

def Buffer.append (s : Buffer) (b : Byte) : Buffer × List Packet :=
  if s.escaped then (s.push (unstuff b), [])
  else if b = finish then ({ s with seen := [] }, if s.seen.isEmpty then [] else [s.seen])
  else if b = escape then ({ s with escaped := true }, [])
  else (s.push b, [])

/-- An end before the packet and one behind it; what is empty between two ends is no packet. -/
def reference : Codec Buffer where
  encode packet := finish :: packet.flatMap stuff ++ [finish]
  append := Buffer.append

theorem feed_stuff {limit : Nat} {seen : Packet} (room : seen.length < limit) (b : Byte) :
    reference.feed ⟨limit, seen, false⟩ (stuff b) = (⟨limit, seen ++ [b], false⟩, []) := by
  by_cases ends : b = finish
  · subst ends
    simp [stuff, Codec.feed, reference, Buffer.append, Buffer.push, unstuff, finish, escape,
      escapedFinish, room]
  by_cases escapes : b = escape
  · subst escapes
    simp [stuff, Codec.feed, reference, Buffer.append, Buffer.push, unstuff, finish, escape,
      escapedFinish, escapedEscape, room]
  · simp [stuff, Codec.feed, reference, Buffer.append, Buffer.push, ends, escapes, room]

theorem feed_stuffed {limit : Nat} (packet seen : Packet)
    (room : seen.length + packet.length ≤ limit) :
    reference.feed ⟨limit, seen, false⟩ (packet.flatMap stuff) =
      (⟨limit, seen ++ packet, false⟩, []) := by
  induction packet generalizing seen with
  | nil => simp [Codec.feed]
  | cons b packet ih =>
    simp only [List.length_cons] at room
    rw [List.flatMap_cons, Codec.feed_append, feed_stuff (by omega), ih _ (by simp; omega)]
    simp

theorem feed_finish (limit : Nat) (seen : Packet) :
    reference.feed ⟨limit, seen, false⟩ [finish] =
      (⟨limit, [], false⟩, if seen.isEmpty then [] else [seen]) := by
  simp [Codec.feed, reference, Buffer.append]

theorem feed_packet {limit : Nat} {packet : Packet} (fits : packet.length ≤ limit) :
    reference.feed ⟨limit, [], false⟩ (reference.encode packet) =
      (⟨limit, [], false⟩, if packet.isEmpty then [] else [packet]) := by
  have open_end := feed_finish limit []
  have body := feed_stuffed packet [] (by simpa using fits)
  have close := feed_finish limit packet
  have split : reference.encode packet =
      [finish] ++ (packet.flatMap stuff ++ [finish]) := by simp [reference]
  rw [split, Codec.feed_append, open_end, Codec.feed_append, body]
  simp [close]

theorem reference_delivers (limit : Nat) :
    reference.Delivers ⟨limit, [], false⟩ fun packet =>
      packet ≠ [] ∧ packet.length ≤ limit := by
  rw [← Codec.delivers_those]
  apply Codec.delivers_of_ready _ (fun s => s = ⟨limit, [], false⟩) rfl
  intro s packet ready fits
  subst ready
  rw [feed_packet fits.2]
  simp [fits.1]

theorem reference_passes (limit : Nat) :
    reference.DeliversThose (fun packet => packet ≠ []) ⟨limit, [], false⟩ fun packet =>
      packet.length ≤ limit := by
  apply Codec.delivers_of_ready _ (fun s => s = ⟨limit, [], false⟩) rfl
  intro s packet ready fits
  subst ready
  rw [feed_packet fits]
  cases packet <;> simp

end Stuffing

end Slip
