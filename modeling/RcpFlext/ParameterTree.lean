import RcpFlext.Datatypes
import RcpFlext.Library.Forest

/- The parameters a manager keeps, and the calls of rcp-c that read and change them. The
   library is not here: its calls are the fields of `Rcp`, and what is relied on of each is
   a law of its own. -/
namespace ParameterTree
open Atoms Datatypes

/-- What the objects read of an `rcp_parameter`; `ptr` is its address. -/
structure Parameter where
  ptr : Nat
  id : BitVec 16
  type : Datatype
  label : Option CString
  parent : Option Nat
  deriving DecidableEq

def Parameter.isGroup (p : Parameter) : Bool := p.type = .group

def Parameter.isValue (p : Parameter) : Bool := p.type ≠ .group ∧ p.type ≠ .bang

inductive Value where
  | boolean (b : Bool)
  | int32 (v : CInt)
  | float32 (w : Binary32.Word)
  | string (s : CString)
  deriving DecidableEq

inductive Call where
  | setValue (ptr : Nat) (v : Value)
  | setMin (ptr : Nat) (v : Value)
  | setMax (ptr : Nat) (v : Value)
  | setOrder (ptr : Nat) (order : CInt)
  | setReadonly (ptr : Nat) (readonly : Bool)
  | setValueUpdatedCb (ptr : Nat)
  | setBangCb (ptr : Nat)
  | setDirty (ptr : Nat)
  | managerUpdate
  | serverUpdate
  | post (format : String) (args : List CString)
  | error (format : String) (args : List CString)
  deriving DecidableEq

structure Rcp (S : Type) where
  parameters : S → List Parameter
  managerFindParameter : S → CString → Option Nat → Option Parameter
  managerGetParameter : S → BitVec 16 → Option Parameter
  serverFindGroup : S → CString → Option Nat → Option Parameter
  serverCreateGroup : S → CString → Option Nat → S × Option Nat
  serverExpose : S → Datatype → CString → Option Nat → S × Option Nat
  serverRemoveParameterId : S → BitVec 16 → S × Bool

def IsChild (ps : List Parameter) (l : CString) (g : Option Nat) (p : Parameter) : Prop :=
  p ∈ ps ∧ p.label = some l ∧ p.parent = g

/-- No two children of one group, or at the root, have one label. -/
def UniqueSiblings (ps : List Parameter) : Prop :=
  ps.Pairwise fun p q => p.parent = q.parent → p.label ≠ q.label

/-- The labels from below `g` down to a parameter, through groups. -/
inductive LabelPath (ps : List Parameter) (g : Option Nat) : List CString → Parameter → Prop
  | child {l : CString} {p : Parameter} : IsChild ps l g p → LabelPath ps g [l] p
  | under {ls : List CString} {l : CString} {r p : Parameter} : LabelPath ps g ls r →
      r.isGroup = true → IsChild ps l (some r.ptr) p → LabelPath ps g (ls ++ [l]) p

/-- Addresses are distinct, and no group is inside itself. -/
structure Tree (ps : List Parameter) : Prop where
  distinct : (ps.map (·.ptr)).Nodup
  ranked : ∃ rank : Nat → Nat, ∀ p ∈ ps, ∀ g, p.parent = some g → rank g < rank p.ptr

/-- One parameter more, at an address nothing refers to yet. -/
structure Grown (ps : List Parameter) (new : Parameter) (ps' : List Parameter) : Prop where
  inserted : ∃ before after, ps = before ++ after ∧ ps' = before ++ new :: after
  fresh : ∀ p ∈ ps, p.ptr ≠ new.ptr ∧ p.parent ≠ some new.ptr
  proper : new.parent ≠ some new.ptr

inductive Growth : List Parameter → List Parameter → Prop
  | same (ps : List Parameter) : Growth ps ps
  | more {ps qs rs : List Parameter} {new : Parameter} :
      Grown ps new qs → Growth qs rs → Growth ps rs

section
variable {S : Type}

def Rcp.FindsChild (rcp : Rcp S) : Prop :=
  ∀ s l g p, rcp.managerFindParameter s l g = some p → IsChild (rcp.parameters s) l g p

structure Rcp.Finds (rcp : Rcp S) : Prop where
  child : rcp.FindsChild
  every : ∀ s l g p, IsChild (rcp.parameters s) l g p → rcp.managerFindParameter s l g ≠ none
  group : ∀ s l g p, rcp.serverFindGroup s l g = some p →
    IsChild (rcp.parameters s) l g p ∧ p.isGroup = true
  every_group : ∀ s l g p, IsChild (rcp.parameters s) l g p → p.isGroup = true →
    rcp.serverFindGroup s l g ≠ none

/-- Both find the first such child in the manager's order. -/
structure Rcp.FindsFirst (rcp : Rcp S) : Prop where
  parameter : ∀ s l g, rcp.managerFindParameter s l g =
    (rcp.parameters s).find? fun p => p.label = some l ∧ p.parent = g
  group : ∀ s l g, rcp.serverFindGroup s l g =
    (rcp.parameters s).find? fun p => (p.label = some l ∧ p.parent = g) ∧ p.isGroup = true

/-- `rcp_server_create_group` and `rcp_server_expose_*` add one child with the given label
    under the given parent, or return NULL. -/
structure Rcp.Creates (rcp : Rcp S) : Prop where
  group : ∀ s l g s' ptr, rcp.serverCreateGroup s l g = (s', some ptr) →
    ∃ id, Grown (rcp.parameters s) ⟨ptr, id, .group, some l, g⟩ (rcp.parameters s')
  no_group : ∀ s l g s', rcp.serverCreateGroup s l g = (s', none) →
    rcp.parameters s' = rcp.parameters s
  expose : ∀ s type l g s' ptr, rcp.serverExpose s type l g = (s', some ptr) →
    ∃ id, Grown (rcp.parameters s) ⟨ptr, id, type, some l, g⟩ (rcp.parameters s')
  no_expose : ∀ s type l g s', rcp.serverExpose s type l g = (s', none) →
    rcp.parameters s' = rcp.parameters s

def Rcp.Removes (rcp : Rcp S) : Prop :=
  ∀ s id, (rcp.parameters (rcp.serverRemoveParameterId s id).1).Sublist (rcp.parameters s)

theorem finds_of_first {rcp : Rcp S} (first : rcp.FindsFirst) : rcp.Finds where
  child s l g p found := by
    rw [first.parameter] at found
    have child := List.find?_some found
    exact ⟨List.mem_of_find?_eq_some found, by simpa using child⟩
  every s l g p child := by
    rw [first.parameter]
    intro none
    exact absurd child.2 (by simpa using List.find?_eq_none.mp none p child.1)
  group s l g p found := by
    rw [first.group] at found
    have child := List.find?_some found
    simp only [decide_eq_true_eq] at child
    exact ⟨⟨List.mem_of_find?_eq_some found, child.1⟩, child.2⟩
  every_group s l g p child group := by
    rw [first.group]
    intro none
    have refused := List.find?_eq_none.mp none p child.1
    simp only [decide_eq_true_eq] at refused
    exact refused ⟨child.2, group⟩

end

section
variable {ps qs : List Parameter} {new p q : Parameter} {g : Option Nat} {ls ms : List CString}

theorem same_of_ptr (tree : Tree ps) (hp : p ∈ ps) (hq : q ∈ ps) (same : p.ptr = q.ptr) :
    p = q :=
  List.inj_on_of_nodup_map tree.distinct hp hq same

theorem same_of_label (unique : UniqueSiblings ps) (hp : IsChild ps l g p) (hq : IsChild ps l g q) :
    p = q := by
  by_contra apart
  have symmetric : Std.Symm fun x y : Parameter => x.parent = y.parent → x.label ≠ y.label :=
    ⟨fun x y distinct parent label => distinct parent.symm label.symm⟩
  have distinct := unique.forall hp.1 hq.1 apart
  exact distinct (hp.2.2.trans hq.2.2.symm) (hp.2.1.trans hq.2.1.symm)

theorem labelPath_inside (path : LabelPath ps g ls p) : p ∈ ps := by
  cases path with
  | child child => exact child.1
  | under _ _ child => exact child.1

theorem labelPath_ne_nil (path : LabelPath ps g ls p) : ls ≠ [] := by
  cases path with
  | child _ => simp
  | under _ _ _ => simp

theorem labelPath_cons (top : IsChild ps l g q) (group : q.isGroup = true)
    (path : LabelPath ps (some q.ptr) ls p) : LabelPath ps g (l :: ls) p := by
  induction path with
  | child child => exact .under (.child top) group child
  | under _ deeper child ih => exact .under ih deeper child

theorem labelPath_below (tree : Tree ps) : ∃ F : Forests.Forest Nat,
    ∀ {g ls p}, LabelPath ps g ls p → Forests.Below F g ls.length p.ptr := by
  obtain ⟨rank, falls⟩ := tree.ranked
  let F : Forests.Forest Nat :=
    { place := fun a x => ∃ p ∈ ps, p.ptr = a ∧ p.parent = x
      single := by
        rintro a x y ⟨p, hp, pa, px⟩ ⟨q, hq, qa, qy⟩
        have same := same_of_ptr tree hp hq (pa.trans qa.symm)
        rw [← px, ← qy, same]
      rank := rank
      falls := by
        rintro a b ⟨p, hp, pa, pb⟩
        exact pa ▸ falls p hp b pb }
  refine ⟨F, ?_⟩
  intro g ls p path
  induction path with
  | child child => exact .child ⟨_, child.1, rfl, child.2.2⟩
  | under _ _ child ih =>
    rw [List.length_append]
    exact .under ih ⟨_, child.1, rfl, child.2.2⟩

theorem labelPath_length (tree : Tree ps) (path : LabelPath ps g ls p)
    (other : LabelPath ps g ms p) : ls.length = ms.length := by
  obtain ⟨F, below⟩ := labelPath_below tree
  exact Forests.depth_unique (below path) (below other)

theorem labelPath_top (tree : Tree ps) (path : LabelPath ps g ls p) (other : LabelPath ps h ms p)
    (length : ls.length = ms.length) : g = h := by
  obtain ⟨F, below⟩ := labelPath_below tree
  exact Forests.top_unique (length ▸ below path) (below other)

theorem grown_mem (grown : Grown ps new qs) : p ∈ qs ↔ p = new ∨ p ∈ ps := by
  obtain ⟨before, after, was, now⟩ := grown.inserted
  rw [was, now]
  simp only [List.mem_append, List.mem_cons]
  constructor
  · rintro (h | h | h)
    · exact .inr (.inl h)
    · exact .inl h
    · exact .inr (.inr h)
  · rintro (h | h | h)
    · exact .inr (.inl h)
    · exact .inl h
    · exact .inr (.inr h)

theorem grown_length (grown : Grown ps new qs) : qs.length = ps.length + 1 := by
  obtain ⟨before, after, was, now⟩ := grown.inserted
  rw [was, now, List.length_append, List.length_append, List.length_cons]
  omega

theorem grown_sublist (grown : Grown ps new qs) : ps.Sublist qs := by
  obtain ⟨before, after, was, now⟩ := grown.inserted
  rw [was, now]
  exact (List.Sublist.refl before).append (List.sublist_cons_self new after)

theorem grown_tree (grown : Grown ps new qs) (tree : Tree ps) : Tree qs where
  distinct := by
    obtain ⟨before, after, was, now⟩ := grown.inserted
    have apart : new.ptr ∉ (before ++ after).map (·.ptr) := by
      intro mem
      obtain ⟨p, inside, same⟩ := List.mem_map.mp mem
      exact (grown.fresh p (was ▸ inside)).1 same
    have distinct := tree.distinct
    rw [was] at distinct
    rw [now, List.map_append, List.map_cons, List.nodup_middle, List.nodup_cons,
      ← List.map_append]
    exact ⟨apart, distinct⟩
  ranked := by
    obtain ⟨rank, falls⟩ := tree.ranked
    let next : Nat → Nat := fun a =>
      if a = new.ptr then (new.parent.map rank).getD 0 + 1 else rank a
    refine ⟨next, ?_⟩
    intro p inside g parent
    rcases (grown_mem grown).mp inside with h | h
    · subst h
      have apart : g ≠ p.ptr := fun same => grown.proper (same ▸ parent)
      simp [next, apart, parent]
    · have fresh := grown.fresh p h
      have apart : g ≠ new.ptr := fun same => fresh.2 (same ▸ parent)
      simp only [next, apart, fresh.1, ↓reduceIte]
      exact falls p h g parent

theorem growth_trans {rs : List Parameter} (first : Growth ps qs) (second : Growth qs rs) :
    Growth ps rs := by
  induction first with
  | same _ => exact second
  | more grown _ ih => exact .more grown (ih second)

theorem growth_sublist (growth : Growth ps qs) : ps.Sublist qs := by
  induction growth with
  | same _ => exact List.Sublist.refl _
  | more grown _ ih => exact (grown_sublist grown).trans ih

theorem growth_tree (growth : Growth ps qs) (tree : Tree ps) : Tree qs := by
  induction growth with
  | same _ => exact tree
  | more grown _ ih => exact ih (grown_tree grown tree)

theorem growth_find (growth : Growth ps qs) (pred : Parameter → Bool)
    (old : ∀ p ∈ qs, p ∈ ps ∨ pred p = false) : qs.find? pred = ps.find? pred := by
  induction growth with
  | same _ => rfl
  | @more ps qs rs new grown later ih =>
    have now := (growth_sublist later).subset
    have refused : pred new = false := by
      rcases old new (now ((grown_mem grown).mpr (.inl rfl))) with inside | refused
      · exact absurd rfl (grown.fresh new inside).1
      · exact refused
    obtain ⟨before, after, was, is⟩ := grown.inserted
    have step : qs.find? pred = ps.find? pred := by
      rw [was, is, List.find?_append, List.find?_append, List.find?_cons_of_neg (by simp [refused])]
    rw [← step]
    apply ih
    intro p inside
    rcases old p inside with h | h
    · exact .inl ((grown_mem grown).mpr (.inr h))
    · exact .inr h

theorem tree_of_addresses (distinct : (ps.map (·.ptr)).Nodup)
    (grow : ∀ p ∈ ps, p.parent.all (· < p.ptr) = true) : Tree ps where
  distinct := distinct
  ranked := by
    refine ⟨id, ?_⟩
    intro p inside g parent
    have above := grow p inside
    rw [parent] at above
    simpa using above

theorem empty_tree : Tree [] := tree_of_addresses List.nodup_nil (by simp)

theorem sublist_tree (fewer : qs.Sublist ps) (tree : Tree ps) : Tree qs where
  distinct := tree.distinct.sublist (fewer.map _)
  ranked := by
    obtain ⟨rank, falls⟩ := tree.ranked
    exact ⟨rank, fun p inside => falls p (fewer.subset inside)⟩

end

end ParameterTree
