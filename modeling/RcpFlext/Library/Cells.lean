import Mathlib.Data.List.Basic

/- Checked array cells. Indices are integers, as in code that computes them; a write
   outside the array is the absent result and every other cell stays as it was. -/
namespace Cells
variable {A V E : Type}

def poke (cells : List V) (i : Int) (v : V) : Option (List V) :=
  if 0 ≤ i ∧ i < cells.length then some (cells.set i.toNat v) else none

def pokeAll (cells : List V) (i : Int) : List V → Option (List V)
  | [] => some cells
  | v :: vs => (poke cells i v).bind fun next => pokeAll next (i + 1) vs

theorem poke_inside (before after : List V) (old v : V) :
    poke (before ++ old :: after) before.length v = some (before ++ v :: after) := by
  have inside : (0 : Int) ≤ before.length ∧
      (before.length : Int) < ((before ++ old :: after).length : Nat) := by
    simp only [List.length_append, List.length_cons]
    omega
  unfold poke
  rw [if_pos inside]
  simp

theorem poke_at {before after : List V} {i : Int} (old v : V) (at_end : i = before.length) :
    poke (before ++ old :: after) i v = some (before ++ v :: after) := by
  subst at_end
  exact poke_inside before after old v

theorem pokeAll_inside (before old after vs : List V) (same : old.length = vs.length) :
    pokeAll (before ++ (old ++ after)) before.length vs = some (before ++ (vs ++ after)) := by
  induction vs generalizing before old with
  | nil =>
    have empty : old = [] := List.length_eq_zero_iff.mp same
    subst empty
    rfl
  | cons v vs ih =>
    cases old with
    | nil => simp at same
    | cons o old =>
      have tail : old.length = vs.length := by simpa using same
      have next := ih (before ++ [v]) old tail
      simp only [List.length_append, List.length_singleton, List.append_assoc,
        List.singleton_append] at next
      simp only [pokeAll, List.cons_append, poke_inside, Option.bind_some]
      exact_mod_cast next

theorem pokeAll_single (cells : List V) (i : Int) (v : V) : pokeAll cells i [v] = poke cells i v := by
  simp [pokeAll]

theorem poke_length {cells next : List V} {i : Int} {v : V} (done : poke cells i v = some next) :
    next.length = cells.length := by
  unfold poke at done
  split at done
  · simp [← Option.some.inj done]
  · cases done

theorem pokeAll_length {cells next : List V} {i : Int} {vs : List V}
    (done : pokeAll cells i vs = some next) : next.length = cells.length := by
  induction vs generalizing cells i with
  | nil => rw [← Option.some.inj done]
  | cons v vs ih =>
    obtain ⟨middle, first, rest⟩ := Option.bind_eq_some_iff.mp done
    exact (ih rest).trans (poke_length first)

theorem pokeAll_append (cells : List V) (i : Int) (vs ws : List V) :
    pokeAll cells i (vs ++ ws) =
      (pokeAll cells i vs).bind fun next => pokeAll next (i + vs.length) ws := by
  induction vs generalizing cells i with
  | nil => simp [pokeAll]
  | cons v vs ih =>
    simp only [List.cons_append, pokeAll, Option.bind_assoc, List.length_cons]
    congr 1
    funext next
    rw [ih next (i + 1)]
    congr 1
    funext later
    congr 1
    push_cast
    omega

theorem pokeAll_next {cells : List V} {vs ws : List V} {o : Int} (adjacent : o = vs.length) :
    ((pokeAll cells 0 vs).bind fun next => pokeAll next o ws) = pokeAll cells 0 (vs ++ ws) := by
  rw [pokeAll_append, adjacent]
  simp

theorem pokeAll_next_then {B : Type} {cells vs ws : List V} {o : Int} (adjacent : o = vs.length)
    (rest : List V → Option B) :
    ((pokeAll cells 0 vs).bind fun next => (pokeAll next o ws).bind rest) =
      (pokeAll cells 0 (vs ++ ws)).bind rest := by
  rw [← pokeAll_next adjacent, Option.bind_assoc]

theorem pokeAll_front (cells vs : List V) (fits : vs.length ≤ cells.length) :
    pokeAll cells 0 vs = some (vs ++ cells.drop vs.length) := by
  have run := pokeAll_inside [] (cells.take vs.length) (cells.drop vs.length) vs (by simp [fits])
  simpa using run

/-- What a filling loop decides about one entry of its input. -/
inductive Verdict (V E : Type) where
  | keep (v : V)
  | skip
  | abort (why : E)
  deriving DecidableEq, Repr

inductive Filled (V E : Type) where
  | outside
  | aborted (why : E)
  | done (cells : List V) (offset : Int)
  deriving DecidableEq, Repr

/-- The loop `cells[i - offset] = v`, with `offset++` on a skipped entry and an early
    return on an aborting one. -/
def fill (judge : A → Verdict V E) : List A → Int → Int → List V → Filled V E
  | [], _, offset, cells => .done cells offset
  | a :: as, i, offset, cells =>
    match judge a with
    | .keep v =>
      match poke cells (i - offset) v with
      | some next => fill judge as (i + 1) offset next
      | none => .outside
    | .skip => fill judge as (i + 1) (offset + 1) cells
    | .abort why => .aborted why

theorem fill_append {judge : A → Verdict V E} {before : List A} {i offset behind : Int}
    {cells filled : List V} (part : fill judge before i offset cells = .done filled behind)
    (after : List A) : fill judge (before ++ after) i offset cells =
      fill judge after (i + before.length) behind filled := by
  induction before generalizing i offset cells with
  | nil =>
    simp only [fill, Filled.done.injEq] at part
    simp [part]
  | cons a before ih =>
    have length : i + 1 + before.length = i + (a :: before).length := by
      simp only [List.length_cons]
      omega
    rw [List.cons_append, fill]
    rw [fill] at part
    cases verdict : judge a with
    | keep v =>
      simp only [verdict] at part ⊢
      cases done : poke cells (i - offset) v with
      | none =>
        rw [done] at part
        cases part
      | some next =>
        simp only [done] at part ⊢
        rw [ih part, length]
    | skip =>
      simp only [verdict] at part ⊢
      rw [ih part, length]
    | abort why =>
      rw [verdict] at part
      cases part

def survivors (judge : A → Verdict V E) : List A → Except E (List V)
  | [] => .ok []
  | a :: as =>
    match judge a with
    | .keep v => (survivors judge as).map (v :: ·)
    | .skip => survivors judge as
    | .abort why => .error why

theorem survivors_keep {judge : A → Verdict V E} {a : A} {v : V} (as : List A)
    (kept : judge a = .keep v) :
    survivors judge (a :: as) = (survivors judge as).map (v :: ·) := by
  simp only [survivors, kept]

theorem survivors_skip {judge : A → Verdict V E} {a : A} (as : List A)
    (skipped : judge a = .skip) : survivors judge (a :: as) = survivors judge as := by
  simp only [survivors, skipped]

theorem survivors_abort {judge : A → Verdict V E} {a : A} {why : E} (as : List A)
    (aborted : judge a = .abort why) : survivors judge (a :: as) = .error why := by
  simp only [survivors, aborted]

theorem survivors_keep_ok {judge : A → Verdict V E} {a : A} {v : V} {as : List A} {vs : List V}
    (kept : judge a = .keep v) (found : survivors judge (a :: as) = .ok vs) :
    ∃ tail, survivors judge as = .ok tail ∧ vs = v :: tail := by
  rw [survivors_keep as kept] at found
  cases rest : survivors judge as with
  | error why =>
    rw [rest] at found
    cases found
  | ok tail =>
    rw [rest] at found
    exact ⟨tail, rfl, (Except.ok.inj found).symm⟩

theorem survivors_of_kept {judge : A → Verdict V E} {as : List A} {vs : List V}
    (kept : as.map judge = vs.map Verdict.keep) : survivors judge as = .ok vs := by
  induction vs generalizing as with
  | nil =>
    rw [List.map_eq_nil_iff.mp kept]
    rfl
  | cons v vs ih =>
    obtain ⟨a, rest, eq, first, others⟩ := List.map_eq_cons_iff.mp kept
    rw [eq, survivors_keep rest first, ih others]
    rfl

theorem survivors_map {judge : A → Verdict V E} {entry : V → A}
    (kept : ∀ v, judge (entry v) = .keep v) (vs : List V) :
    survivors judge (vs.map entry) = .ok vs := by
  apply survivors_of_kept
  simp [kept]

theorem survivors_length_le {judge : A → Verdict V E} {as : List A} {vs : List V}
    (found : survivors judge as = .ok vs) : vs.length ≤ as.length := by
  induction as generalizing vs with
  | nil =>
    have empty := Except.ok.inj found
    simp [← empty]
  | cons a as ih =>
    simp only [List.length_cons]
    cases verdict : judge a with
    | abort why =>
      rw [survivors_abort as verdict] at found
      cases found
    | skip =>
      rw [survivors_skip as verdict] at found
      have := ih found
      omega
    | keep v =>
      obtain ⟨tail, rest, eq⟩ := survivors_keep_ok verdict found
      have := ih rest
      simp only [eq, List.length_cons]
      omega

theorem survivors_full {judge : A → Verdict V E} {as : List A} {vs : List V}
    (found : survivors judge as = .ok vs) (full : vs.length = as.length) :
    ∀ a ∈ as, ∃ v, judge a = .keep v := by
  induction as generalizing vs with
  | nil => simp
  | cons a as ih =>
    cases verdict : judge a with
    | abort why =>
      rw [survivors_abort as verdict] at found
      cases found
    | skip =>
      rw [survivors_skip as verdict] at found
      have := survivors_length_le found
      simp only [List.length_cons] at full
      omega
    | keep v =>
      obtain ⟨tail, rest, eq⟩ := survivors_keep_ok verdict found
      intro b mem
      rcases List.mem_cons.mp mem with same | later
      · exact ⟨v, same ▸ verdict⟩
      · exact ih rest (by simpa [eq] using full) b later

/-- The loop invariant: the written cells come first, there are `i - offset` of them, and
    at least as many unwritten cells remain as there are entries left. -/
theorem fill_from (judge : A → Verdict V E) (as : List A) (i offset : Int)
    (written rest : List V) (index : i - offset = written.length)
    (room : as.length ≤ rest.length) :
    match survivors judge as with
    | .error why => fill judge as i offset (written ++ rest) = .aborted why
    | .ok vs => ∃ left, fill judge as i offset (written ++ rest) =
        .done (written ++ vs ++ left) (i + as.length - written.length - vs.length) := by
  induction as generalizing i offset written rest with
  | nil =>
    refine ⟨rest, ?_⟩
    simp only [fill, List.append_nil, List.length_nil]
    congr 1
    omega
  | cons a as ih =>
    cases rest with
    | nil => simp at room
    | cons r rest =>
      have tailRoom : as.length ≤ rest.length := by simpa using room
      cases verdict : judge a with
      | abort why =>
        rw [survivors_abort as verdict]
        simp only [fill, verdict]
      | skip =>
        rw [survivors_skip as verdict]
        have next := ih (i + 1) (offset + 1) written (r :: rest) (by omega)
          (by simp only [List.length_cons]; omega)
        simp only [fill, verdict]
        cases kept : survivors judge as with
        | error why =>
          rw [kept] at next
          exact next
        | ok vs =>
          rw [kept] at next
          obtain ⟨left, run⟩ := next
          refine ⟨left, ?_⟩
          rw [run]
          congr 1
          simp only [List.length_cons]
          omega
      | keep v =>
        rw [survivors_keep as verdict]
        have next := ih (i + 1) offset (written ++ [v]) rest
          (by simp only [List.length_append, List.length_singleton]; omega) tailRoom
        simp only [fill, verdict, poke_at r v index]
        cases kept : survivors judge as with
        | error why =>
          rw [kept] at next
          simp only [List.append_assoc, List.singleton_append] at next
          exact next
        | ok vs =>
          rw [kept] at next
          obtain ⟨left, run⟩ := next
          refine ⟨left, ?_⟩
          simp only [List.append_assoc, List.singleton_append] at run
          rw [run]
          simp only [List.append_assoc, List.cons_append, List.length_append,
            List.length_cons, List.length_nil]
          congr 1
          push_cast
          omega

/-- A loop over a buffer as long as its input never writes outside it, and the cells
    before `argc - offset` are the kept entries in order. -/
theorem fill_exact (judge : A → Verdict V E) (as : List A) (blank : V) :
    match survivors judge as with
    | .error why => fill judge as 0 0 (List.replicate as.length blank) = .aborted why
    | .ok vs => ∃ cells, fill judge as 0 0 (List.replicate as.length blank) =
        .done cells (as.length - vs.length) ∧ cells.take vs.length = vs := by
  have run := fill_from judge as 0 0 [] (List.replicate as.length blank) (by simp) (by simp)
  cases kept : survivors judge as with
  | error why =>
    rw [kept] at run
    simpa using run
  | ok vs =>
    rw [kept] at run
    obtain ⟨left, eq⟩ := run
    refine ⟨vs ++ left, ?_, by simp⟩
    simpa using eq

end Cells
