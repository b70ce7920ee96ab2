import Mathlib.Data.List.Basic

/- Nodes that lie under other nodes or at the root. A rank falls from each node to the one
   above it, so going up never comes round again. -/
namespace Forests

structure Forest (A : Type) where
  place : A → Option A → Prop
  single : ∀ {a : A} {x y : Option A}, place a x → place a y → x = y
  rank : A → Nat
  falls : ∀ {a b : A}, place a (some b) → rank b < rank a

variable {A : Type} {F : Forest A} {g : Option A} {a b : A}

/-- `a` is `n` levels below `g`, where `none` is the root. -/
inductive Below (F : Forest A) (g : Option A) : Nat → A → Prop
  | child {a : A} : F.place a g → Below F g 1 a
  | under {n : Nat} {a b : A} : Below F g n b → F.place a (some b) → Below F g (n + 1) a

theorem below_rank (below : Below F (some b) n a) : F.rank b < F.rank a := by
  induction below with
  | child placed => exact F.falls placed
  | under _ placed ih => exact Nat.lt_trans ih (F.falls placed)

theorem not_below_self : ¬ Below F (some a) n a := by
  intro below
  exact Nat.lt_irrefl _ (below_rank below)

theorem depth_unique (first : Below F g n a) (second : Below F g m a) : n = m := by
  induction first generalizing m with
  | child placed =>
    cases second with
    | child _ => rfl
    | under above placed' =>
      have same := F.single placed placed'
      subst same
      exact absurd above not_below_self
  | under above placed ih =>
    cases second with
    | child placed' =>
      have same := F.single placed' placed
      subst same
      exact absurd above not_below_self
    | under above' placed' =>
      have same := Option.some.inj (F.single placed placed')
      subst same
      rw [ih above']

theorem top_unique (first : Below F g n a) (second : Below F h n a) : g = h := by
  induction first generalizing h with
  | child placed =>
    cases second with
    | child placed' => exact F.single placed placed'
    | under above _ => cases above
  | under above placed ih =>
    cases second with
    | child _ => cases above
    | under above' placed' =>
      have same := Option.some.inj (F.single placed placed')
      subst same
      exact ih above'

end Forests
