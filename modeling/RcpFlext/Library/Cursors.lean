import RcpFlext.Library.Cells

/- A list of fixed length filled from the front with a running index. However the writes are
   spread over loops and branches, they are one run of writes. -/
namespace Cursors
open Cells

structure Cursor (V : Type) where
  cells : List V
  i : Int
  deriving DecidableEq

variable {V : Type}

namespace Cursor

def put (c : Cursor V) (v : V) : Option (Cursor V) :=
  (poke c.cells c.i v).map fun cells => ⟨cells, c.i + 1⟩

def puts : Cursor V → List V → Option (Cursor V)
  | c, [] => some c
  | c, v :: vs => (c.put v).bind fun next => next.puts vs

def written (c : Cursor V) : List V := c.cells.take c.i.toNat

theorem put_eq (c : Cursor V) (v : V) : c.put v = c.puts [v] := by
  simp [puts]

theorem puts_nil (c : Cursor V) : c.puts [] = some c := rfl

theorem puts_puts (c : Cursor V) (vs ws : List V) :
    ((c.puts vs).bind fun next => next.puts ws) = c.puts (vs ++ ws) := by
  induction vs generalizing c with
  | nil => rfl
  | cons v vs ih => simp only [List.cons_append, puts, Option.bind_assoc, ih]

theorem puts_bind {W : Type} (c : Cursor V) (vs ws : List V) (rest : Cursor V → Option W) :
    ((c.puts vs).bind fun next => (next.puts ws).bind rest) = (c.puts (vs ++ ws)).bind rest := by
  rw [← puts_puts, Option.bind_assoc]

theorem ite_puts (c : Cursor V) (b : Prop) [Decidable b] (vs : List V) :
    (if b then c.puts vs else some c) = c.puts (if b then vs else []) := by
  split <;> rfl

theorem puts_pokeAll (c : Cursor V) (vs : List V) :
    c.puts vs = (pokeAll c.cells c.i vs).map fun cells => ⟨cells, c.i + vs.length⟩ := by
  induction vs generalizing c with
  | nil => simp [puts, pokeAll]
  | cons v vs ih =>
    simp only [puts, put, pokeAll, Option.bind_map, Option.map_bind, Function.comp_def]
    congr 1
    funext cells
    rw [ih]
    congr 1
    funext last
    simp only [List.length_cons, Cursor.mk.injEq, true_and]
    push_cast
    omega

/-- From the first cell on, as many writes as there are cells stay inside and are all there. -/
theorem puts_front (cells vs : List V) (fits : vs.length ≤ cells.length) :
    ∃ c, puts ⟨cells, 0⟩ vs = some c ∧ c.written = vs := by
  rw [puts_pokeAll, pokeAll_front cells vs fits]
  exact ⟨_, rfl, by simp [written]⟩

end Cursor

end Cursors
