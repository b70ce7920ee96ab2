import Mathlib.Data.List.Basic

/- Readers that take a value off the front of a list and leave the rest. What such a reader
   takes decides alone what it reads, so values written one behind the other can be told apart. -/
namespace Prefixes

abbrev Reader (B V : Type) := List B → Option (V × List B)

variable {B V W : Type}

/-- What was taken reads the same in front of anything else. -/
def TakesFront (read : Reader B V) : Prop :=
  ∀ s v rest, read s = some (v, rest) →
    ∃ taken, s = taken ++ rest ∧ ∀ more, read (taken ++ more) = some (v, more)

namespace Reader

def give (v : V) : Reader B V := fun s => some (v, s)

def refuse : Reader B V := fun _ => none

def andThen (first : Reader B V) (second : V → Reader B W) : Reader B W := fun s =>
  (first s).bind fun r => second r.1 r.2

def expect [DecidableEq B] (head : List B) : Reader B Unit := fun s =>
  if s.take head.length = head then some ((), s.drop head.length) else none

def takeN (n : Nat) : Reader B (List B) := fun s =>
  if n ≤ s.length then some (s.take n, s.drop n) else none

def fixed (n : Nat) (f : List B → Option V) : Reader B V := fun s =>
  (f (s.take n)).map fun v => (v, s.drop n)

end Reader

open Reader

theorem andThen_eq {first : Reader B V} {second : V → Reader B W} {s rest : List B} {v : V}
    (read : first s = some (v, rest)) : first.andThen second s = second v rest := by
  rw [andThen, read]
  rfl

theorem andThen_eq_some {first : Reader B V} {second : V → Reader B W} {s : List B}
    {r : W × List B} : first.andThen second s = some r ↔
      ∃ v rest, first s = some (v, rest) ∧ second v rest = some r := by
  simp [andThen, Option.bind_eq_some_iff]

theorem give_takesFront (v : V) : TakesFront (give v : Reader B V) := by
  intro s w rest read
  cases read
  exact ⟨[], rfl, fun more => rfl⟩

theorem refuse_takesFront : TakesFront (refuse : Reader B V) := by
  intro s w rest read
  contradiction

theorem andThen_takesFront {first : Reader B V} {second : V → Reader B W}
    (one : TakesFront first) (other : ∀ v, TakesFront (second v)) :
    TakesFront (first.andThen second) := by
  intro s w rest read
  obtain ⟨⟨v, middle⟩, here, there⟩ := Option.bind_eq_some_iff.mp read
  obtain ⟨front, split, again⟩ := one s v middle here
  obtain ⟨back, split', again'⟩ := other v middle w rest there
  refine ⟨front ++ back, ?_, fun more => ?_⟩
  · rw [split, split', List.append_assoc]
  · rw [List.append_assoc, andThen_eq (again (back ++ more)), again' more]

theorem ite_takesFront {c : Prop} [Decidable c] {yes no : Reader B V} (one : TakesFront yes)
    (other : TakesFront no) : TakesFront (if c then yes else no) := by
  split
  · exact one
  · exact other

theorem expect_append [DecidableEq B] (head rest : List B) :
    expect head (head ++ rest) = some ((), rest) := by
  simp [expect]

theorem expect_takesFront [DecidableEq B] (head : List B) : TakesFront (expect head) := by
  intro s v rest read
  unfold expect at read
  split at read
  · rename_i starts
    cases read
    refine ⟨head, ?_, fun more => expect_append head more⟩
    calc s = s.take head.length ++ s.drop head.length := (List.take_append_drop ..).symm
      _ = head ++ s.drop head.length := by rw [starts]
  · contradiction

theorem takeN_append (s rest : List B) : takeN s.length (s ++ rest) = some (s, rest) := by
  simp [takeN]

theorem takeN_length {n : Nat} {s taken rest : List B} (read : takeN n s = some (taken, rest)) :
    taken.length = n ∧ n ≤ s.length := by
  unfold takeN at read
  split at read
  · cases read
    exact ⟨List.length_take_of_le ‹_›, ‹_›⟩
  · contradiction

theorem takeN_takesFront (n : Nat) : TakesFront (takeN n : Reader B (List B)) := by
  intro s v rest read
  unfold takeN at read
  split at read
  · rename_i enough
    cases read
    have size : (s.take n).length = n := List.length_take_of_le enough
    refine ⟨s.take n, (List.take_append_drop n s).symm, fun more => ?_⟩
    have again := takeN_append (s.take n) more
    rwa [size] at again
  · contradiction

theorem fixed_append {n : Nat} {f : List B → Option V} {l : List B} {v : V} (size : l.length = n)
    (worth : f l = some v) (rest : List B) : fixed n f (l ++ rest) = some (v, rest) := by
  rw [fixed, List.take_left' size, List.drop_left' size, worth]
  rfl

theorem fixed_takesFront (n : Nat) (f : List B → Option V)
    (size : ∀ l v, f l = some v → l.length = n) : TakesFront (fixed n f) := by
  intro s w rest read
  obtain ⟨v, here, eq⟩ := Option.map_eq_some_iff.mp read
  cases eq
  have whole := size (s.take n) w here
  exact ⟨s.take n, (List.take_append_drop n s).symm, fixed_append whole here⟩

theorem TakesFront.rest_length {read : Reader B V} (front : TakesFront read) {s rest : List B}
    {v : V} (found : read s = some (v, rest)) : rest.length ≤ s.length := by
  obtain ⟨taken, split, _⟩ := front s v rest found
  rw [split, List.length_append]
  omega

theorem taken_alone {read : Reader B V} (front : TakesFront read) {s rest : List B} {v : V}
    (found : read s = some (v, rest)) :
    ∃ taken, s = taken ++ rest ∧ read taken = some (v, []) := by
  obtain ⟨taken, split, again⟩ := front s v rest found
  have alone := again []
  rw [List.append_nil] at alone
  exact ⟨taken, split, alone⟩

theorem read_before {read : Reader B V} (front : TakesFront read) {s : List B} {v : V}
    (alone : read s = some (v, [])) (more : List B) : read (s ++ more) = some (v, more) := by
  obtain ⟨taken, split, again⟩ := front s v [] alone
  rw [List.append_nil] at split
  rw [split]
  exact again more

/-- Where a reader takes each written value and nothing of an empty list, values written one
    behind the other are the only ones their letters could be. -/
theorem stream_unique (read : Reader B V) (write : V → List B) (good : V → Prop)
    (nothing : read [] = none)
    (takes : ∀ v, good v → ∀ more, read (write v ++ more) = some (v, more)) {vs ws : List V}
    (some_good : ∀ v ∈ vs, good v) (other_good : ∀ w ∈ ws, good w)
    (same : vs.flatMap write = ws.flatMap write) : vs = ws := by
  have begins (v : V) (vs : List V) (good_v : good v) : (v :: vs).flatMap write ≠ [] := by
    intro empty
    have read_v := takes v good_v (vs.flatMap write)
    rw [← List.flatMap_cons, empty, nothing] at read_v
    contradiction
  induction vs generalizing ws with
  | nil =>
    cases ws with
    | nil => rfl
    | cons w ws => exact absurd same.symm (begins w ws (other_good w List.mem_cons_self))
  | cons v vs ih =>
    have good_v := some_good v List.mem_cons_self
    cases ws with
    | nil => exact absurd same (begins v vs good_v)
    | cons w ws =>
      have one := takes v good_v (vs.flatMap write)
      have other := takes w (other_good w List.mem_cons_self) (ws.flatMap write)
      rw [← List.flatMap_cons] at one other
      rw [same, other] at one
      simp only [Option.some.injEq, Prod.mk.injEq] at one
      rw [one.1, ih (fun u mem => some_good u (List.mem_cons_of_mem _ mem))
        (fun u mem => other_good u (List.mem_cons_of_mem _ mem)) one.2.symm]

end Prefixes
