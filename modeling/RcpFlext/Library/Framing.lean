import RcpFlext.Library.BigEndian

/- Frames with a four-byte big-endian length in front. A parser keeps its state between
   chunks; what it must deliver depends on the stream only, not on where chunks end. -/
namespace Framing
open BigEndian

def frame (payload : List Byte) : List Byte :=
  store32 (BitVec.ofNat 32 payload.length) ++ payload

def stream (payloads : List (List Byte)) : List Byte := payloads.flatMap frame

structure Parser (S : Type) where
  start : S
  feed : S → List Byte → S × List (List Byte)

def Parser.run {S : Type} (p : Parser S) : S → List (List Byte) → List (List Byte)
  | _, [] => []
  | s, chunk :: chunks => (p.feed s chunk).2 ++ p.run (p.feed s chunk).1 chunks

/-- On every chunking of frames within the limit, the payloads come out in order. -/
def Parser.Correct {S : Type} (p : Parser S) (limit : Nat) : Prop :=
  ∀ payloads chunks, (∀ m ∈ payloads, m.length ≤ limit) →
    chunks.flatten = stream payloads → p.run p.start chunks = payloads

theorem stream_cons (payload : List Byte) (payloads : List (List Byte)) :
    stream (payload :: payloads) = frame payload ++ stream payloads := by
  simp [stream]

/-- A byte-at-a-time parser: inside a length, or with bytes of a payload still missing. -/
inductive Progress where
  | header (seen : List Byte)
  | body (missing : Nat) (seen : List Byte)
  deriving DecidableEq, Repr

def step : Progress → Byte → Progress × List (List Byte)
  | .header seen, b =>
    match load32 (seen ++ [b]) with
    | none => (.header (seen ++ [b]), [])
    | some n => if n.toNat = 0 then (.header [], [[]]) else (.body n.toNat [], [])
  | .body missing seen, b =>
    if missing ≤ 1 then (.header [], [seen ++ [b]]) else (.body (missing - 1) (seen ++ [b]), [])

def steps : Progress → List Byte → Progress × List (List Byte)
  | s, [] => (s, [])
  | s, b :: bs => ((steps (step s b).1 bs).1, (step s b).2 ++ (steps (step s b).1 bs).2)

def reference : Parser Progress := ⟨.header [], steps⟩

theorem steps_append (s : Progress) (left right : List Byte) :
    steps s (left ++ right) = ((steps (steps s left).1 right).1,
      (steps s left).2 ++ (steps (steps s left).1 right).2) := by
  induction left generalizing s with
  | nil => simp [steps]
  | cons b left ih => simp [steps, ih]

theorem reference_run (s : Progress) (chunks : List (List Byte)) :
    reference.run s chunks = (steps s chunks.flatten).2 := by
  induction chunks generalizing s with
  | nil => rfl
  | cons chunk chunks ih =>
    rw [List.flatten_cons, steps_append, Parser.run, ih]
    rfl

theorem steps_body (seen rest : List Byte) (some_missing : rest ≠ []) :
    steps (.body rest.length seen) rest = (.header [], [seen ++ rest]) := by
  induction rest generalizing seen with
  | nil => contradiction
  | cons b rest ih =>
    by_cases last : rest = []
    · subst last
      simp [steps, step]
    · have more : ¬ rest.length + 1 ≤ 1 := by
        have := List.length_pos_iff.mpr last
        omega
      have next := ih (seen ++ [b]) last
      simp only [steps, step, List.length_cons, more, ↓reduceIte, Nat.add_sub_cancel, next]
      simp

theorem steps_header (n : BitVec 32) :
    steps (.header []) (store32 n) =
      if n.toNat = 0 then (.header [], [[]]) else (.body n.toNat [], []) := by
  have whole := load32_store32 n
  have one : ∀ a : Byte, load32 [a] = none := fun a => load32_short (by simp)
  have two : ∀ a b : Byte, load32 [a, b] = none := fun a b => load32_short (by simp)
  have three : ∀ a b c : Byte, load32 [a, b, c] = none := fun a b c => load32_short (by simp)
  simp only [store32] at whole ⊢
  simp only [steps, step, List.nil_append, List.cons_append, one, two, three, whole]
  split <;> simp

theorem steps_frame (payload : List Byte) (fits : payload.length < 2 ^ 32) :
    steps (.header []) (frame payload) = (.header [], [payload]) := by
  have length : (BitVec.ofNat 32 payload.length).toNat = payload.length := by
    simp only [BitVec.toNat_ofNat]
    omega
  rw [frame, steps_append, steps_header, length]
  by_cases empty : payload = []
  · subst empty
    rfl
  · have some_bytes : payload.length ≠ 0 := fun none => empty (List.length_eq_zero_iff.mp none)
    simp only [some_bytes, ↓reduceIte, steps_body [] payload empty]
    simp

theorem steps_stream (payloads : List (List Byte)) (fits : ∀ m ∈ payloads, m.length < 2 ^ 32) :
    steps (.header []) (stream payloads) = (.header [], payloads) := by
  induction payloads with
  | nil => rfl
  | cons payload payloads ih =>
    rw [stream_cons, steps_append, steps_frame payload (fits payload (by simp)),
      ih fun m mem => fits m (List.mem_cons_of_mem payload mem)]
    rfl

theorem reference_correct {limit : Nat} (small : limit < 2 ^ 32) : reference.Correct limit := by
  intro payloads chunks fits same
  have run := reference_run (.header []) chunks
  rw [same, steps_stream payloads fun m mem => Nat.lt_of_le_of_lt (fits m mem) small] at run
  exact run

end Framing
