/-
**Which nodes are placed inside which.**

A node is placed inside its parent if it has one, if the parent is there, and if the way up from the
node does not come back to it.  To find that out, the way up is followed for as many steps as there
are nodes.  That is enough: a way that comes back for the first time has met no node twice.

A node whose way up leads into a cycle, without being on it, is still placed inside its parent.

Main definitions:

* `TextDiagram.Grid.LinksTo` — a node names a parent;
* `TextDiagram.Grid.IsTop` — a node is placed inside no other.

Main results:

* `TextDiagram.Grid.isOnCycle_iff` — **the bounded walk finds the cycles**;
* `TextDiagram.Grid.mem_topLevel_iff`, `TextDiagram.Grid.mem_children_iff` — which nodes are placed
  inside no other, and which inside a given one;
* `TextDiagram.Grid.not_isInsideItself` — no node is placed inside itself, however deep;
* `TextDiagram.Grid.induction_children` — so what is handed down inside holds everywhere.
-/

import Mathlib.Data.Fintype.EquivFin
import Mathlib.Dynamics.PeriodicPts.Defs
import Mathlib.Logic.Relation
import TextDiagram.Placement.Grid

set_option relaxedAutoImplicit false
set_option autoImplicit false

namespace TextDiagram.Grid

open Relation (TransGen)

variable {nodes : List Node} {id parent : Id}

/-! ### Nodes by their ids -/

theorem isKnown_iff : isKnown nodes id = true ↔ id ∈ nodes.map Node.id := by
  simp [isKnown, find?]

/-- With distinct ids, a node is found by its id. -/
theorem find?_eq_some_iff (hnodup : (nodes.map Node.id).Nodup) {n : Node} :
    find? nodes id = some n ↔ n ∈ nodes ∧ n.id = id := by
  constructor
  · intro h
    exact ⟨List.mem_reverse.1 (List.mem_of_find?_eq_some h), by simpa using List.find?_some h⟩
  · rintro ⟨hmem, rfl⟩
    cases hfound : find? nodes n.id with
    | none =>
        have hknown := isKnown_iff.2 (List.mem_map_of_mem (f := Node.id) hmem)
        rw [isKnown, hfound] at hknown
        exact absurd hknown (by decide)
    | some m =>
        have hm : m ∈ nodes := List.mem_reverse.1 (List.mem_of_find?_eq_some hfound)
        have heq : m.id = n.id := by simpa using List.find?_some hfound
        rw [List.inj_on_of_nodup_map hnodup hm hmem heq]

/-! ### The way up -/

/-- A node of an id names a parent. -/
def LinksTo (nodes : List Node) (child parent : Id) : Prop :=
  ∃ n ∈ nodes, n.id = child ∧ n.parent = some parent

theorem LinksTo.mem (h : LinksTo nodes id parent) : id ∈ nodes.map Node.id := by
  obtain ⟨n, hn, rfl, -⟩ := h
  exact List.mem_map_of_mem (f := Node.id) hn

/-- A known parent is one that a node names and that there is a node for. -/
theorem parent?_eq_some_iff (hnodup : (nodes.map Node.id).Nodup) :
    parent? nodes id = some parent ↔ LinksTo nodes id parent ∧ parent ∈ nodes.map Node.id := by
  simp only [parent?, Option.filter_eq_some_iff, Option.bind_eq_some_iff, find?_eq_some_iff hnodup,
    isKnown_iff, LinksTo]
  constructor
  · rintro ⟨⟨n, ⟨hn, hid⟩, hparent⟩, hknown⟩
    exact ⟨⟨n, hn, hid, hparent⟩, hknown⟩
  · rintro ⟨⟨n, hn, hid, hparent⟩, hknown⟩
    exact ⟨⟨n, ⟨hn, hid⟩, hparent⟩, hknown⟩

/-- One step up, as long as there is a known parent. -/
def up (nodes : List Node) (here : Option Id) : Option Id := here.bind (parent? nodes)

@[simp] theorem up_some (nodes : List Node) (id : Id) : up nodes (some id) = parent? nodes id := rfl

/-- Beyond the last known parent there is nothing. -/
theorem up_iterate_none (nodes : List Node) (k : Nat) : (up nodes)^[k] none = none := by
  induction k with
  | zero => rfl
  | succ k ih =>
      rw [Function.iterate_succ_apply]
      exact ih

/-- A bounded walk meets its goal after one of the steps that it is given. -/
theorem leadsTo_iff {goal : Id} : ∀ {steps : Nat} {id : Id}, leadsTo nodes goal steps id = true ↔
    ∃ k, 1 ≤ k ∧ k ≤ steps ∧ (up nodes)^[k] (some id) = some goal := by
  intro steps
  induction steps with
  | zero =>
      intro id
      simp only [leadsTo, Bool.false_eq_true, false_iff]
      rintro ⟨k, hpos, hle, -⟩
      omega
  | succ steps ih =>
      intro id
      cases hparent : parent? nodes id with
      | none =>
          simp only [leadsTo, hparent, Bool.false_eq_true, false_iff]
          rintro ⟨k, hpos, -, hk⟩
          obtain ⟨k, rfl⟩ := Nat.exists_eq_add_of_le' hpos
          rw [Function.iterate_succ_apply, up_some, hparent, up_iterate_none] at hk
          exact nomatch hk
      | some parent =>
          simp only [leadsTo, hparent, Bool.or_eq_true, decide_eq_true_eq, ih]
          constructor
          · rintro (rfl | ⟨k, hpos, hle, hk⟩)
            · exact ⟨1, Nat.le_refl 1, by omega, hparent⟩
            · refine ⟨k + 1, by omega, by omega, ?_⟩
              rw [Function.iterate_succ_apply, up_some, hparent, hk]
          · rintro ⟨k, hpos, hle, hk⟩
            obtain ⟨k, rfl⟩ := Nat.exists_eq_add_of_le' hpos
            rw [Function.iterate_succ_apply, up_some, hparent] at hk
            cases k with
            | zero => exact .inl (Option.some.inj hk)
            | succ k => exact .inr ⟨k + 1, by omega, by omega, hk⟩

/-! ### Cycles -/

section

variable (hnodup : (nodes.map Node.id).Nodup)

include hnodup

/-- Steps up follow links. -/
theorem transGen_of_iterate {goal : Id} : ∀ {k : Nat} {id : Id},
    (up nodes)^[k + 1] (some id) = some goal → TransGen (LinksTo nodes) id goal := by
  intro k
  induction k with
  | zero =>
      intro id h
      exact .single ((parent?_eq_some_iff hnodup).1 h).1
  | succ k ih =>
      intro id h
      rw [Function.iterate_succ_apply, up_some] at h
      cases hparent : parent? nodes id with
      | none =>
          rw [hparent, up_iterate_none] at h
          exact nomatch h
      | some parent =>
          rw [hparent] at h
          exact .head ((parent?_eq_some_iff hnodup).1 hparent).1 (ih h)

/-- Links to a node that is there are steps up. -/
theorem exists_iterate_of_transGen {goal : Id} (hgoal : goal ∈ nodes.map Node.id)
    (h : TransGen (LinksTo nodes) id goal) : ∃ k, (up nodes)^[k + 1] (some id) = some goal := by
  induction h using TransGen.head_induction_on with
  | single hlink => exact ⟨0, (parent?_eq_some_iff hnodup).2 ⟨hlink, hgoal⟩⟩
  | @head id parent hlink hrest ih =>
      obtain ⟨k, hk⟩ := ih
      have hknown : parent ∈ nodes.map Node.id := by
        obtain ⟨_, hlink', -⟩ := TransGen.head'_iff.1 hrest
        exact hlink'.mem
      refine ⟨k + 1, ?_⟩
      rw [Function.iterate_succ_apply, up_some, (parent?_eq_some_iff hnodup).2 ⟨hlink, hknown⟩, hk]

/-- A way up that comes back does so within as many steps as there are nodes: until then it meets
every node at most once. -/
theorem minimalPeriod_up_le {k : Nat} (hk : (up nodes)^[k + 1] (some id) = some id) :
    Function.minimalPeriod (up nodes) (some id) ≤ nodes.length := by
  have hperiodic : Function.IsPeriodicPt (up nodes) (k + 1) (some id) := hk
  have hreturns := Function.isPeriodicPt_minimalPeriod (up nodes) (some id)
  have hpos := hperiodic.minimalPeriod_pos (Nat.succ_pos k)
  generalize hp : Function.minimalPeriod (up nodes) (some id) = p at hreturns hpos
  have horbit : ((List.range p).map fun i => (up nodes)^[i] (some id)).Nodup := by
    have hnd := Function.nodup_periodicOrbit (f := up nodes) (x := some id)
    rwa [Function.periodicOrbit, hp, Cycle.nodup_coe_iff] at hnd
  have hsubset : ((List.range p).map fun i => (up nodes)^[i] (some id)) ⊆
      (nodes.map Node.id).map some := by
    intro here hhere
    obtain ⟨i, hi, rfl⟩ := List.mem_map.1 hhere
    have hi : i < p := List.mem_range.1 hi
    cases hstep : (up nodes)^[i] (some id) with
    | none =>
        -- the way would have ended before it came back
        have hend : (up nodes)^[p - i + i] (some id) = none := by
          rw [Function.iterate_add_apply, hstep, up_iterate_none]
        rw [Nat.sub_add_cancel (Nat.le_of_lt hi)] at hend
        exact nomatch hend.symm.trans hreturns
    | some here =>
        refine List.mem_map.2 ⟨here, ?_, rfl⟩
        -- the way goes on from here, so there is a node here
        obtain ⟨j, hj⟩ : ∃ j, p - i = j + 1 := ⟨p - i - 1, by omega⟩
        have hrest : (up nodes)^[j + 1] (some here) = some id := by
          rw [← hj, ← hstep, ← Function.iterate_add_apply, Nat.sub_add_cancel (Nat.le_of_lt hi)]
          exact hreturns
        obtain ⟨_, hlink, -⟩ := TransGen.head'_iff.1 (transGen_of_iterate hnodup hrest)
        exact hlink.mem
  simpa using (List.subperm_of_subset horbit hsubset).length_le

/-- **The bounded walk finds the cycles**: it comes back exactly from the nodes on a cycle of parent
links. -/
theorem isOnCycle_iff : isOnCycle nodes id = true ↔ TransGen (LinksTo nodes) id id := by
  rw [isOnCycle, leadsTo_iff]
  constructor
  · rintro ⟨k, hpos, -, hk⟩
    obtain ⟨k, rfl⟩ := Nat.exists_eq_add_of_le' hpos
    exact transGen_of_iterate hnodup hk
  · intro h
    have hknown : id ∈ nodes.map Node.id := by
      obtain ⟨_, hlink, -⟩ := TransGen.head'_iff.1 h
      exact hlink.mem
    obtain ⟨k, hk⟩ := exists_iterate_of_transGen hnodup hknown h
    have hperiodic : Function.IsPeriodicPt (up nodes) (k + 1) (some id) := hk
    exact ⟨_, hperiodic.minimalPeriod_pos (Nat.succ_pos k), minimalPeriod_up_le hnodup hk,
      Function.isPeriodicPt_minimalPeriod (up nodes) (some id)⟩

/-! ### Inside and outside -/

omit hnodup in
/-- A node is placed inside no other: it names no parent, or one that is not there, or it is on a
cycle of parent links. -/
def IsTop (nodes : List Node) (n : Node) : Prop :=
  n.parent = none ∨ (∃ parent, n.parent = some parent ∧ parent ∉ nodes.map Node.id) ∨
    TransGen (LinksTo nodes) n.id n.id

/-- The parent inside which a node is placed is the one that it names, unless the node is placed
inside no other. -/
theorem usableParent?_eq_some_iff_not_isTop {n : Node} :
    usableParent? nodes n = some parent ↔ n.parent = some parent ∧ ¬ IsTop nodes n := by
  rw [usableParent?_eq_some_iff, ← Bool.not_eq_true, isOnCycle_iff hnodup, isKnown_iff]
  constructor
  · rintro ⟨hparent, hknown, hcycle⟩
    refine ⟨hparent, ?_⟩
    rintro (hnone | ⟨other, hother, hunknown⟩ | hcycle')
    · exact nomatch hparent.symm.trans hnone
    · obtain rfl := Option.some.inj (hparent.symm.trans hother)
      exact hunknown hknown
    · exact hcycle hcycle'
  · rintro ⟨hparent, htop⟩
    refine ⟨hparent, ?_, fun hcycle => htop (.inr (.inr hcycle))⟩
    by_contra hunknown
    exact htop (.inr (.inl ⟨parent, hparent, hunknown⟩))

theorem usableParent?_eq_none_iff {n : Node} : usableParent? nodes n = none ↔ IsTop nodes n := by
  rw [Option.eq_none_iff_forall_ne_some]
  constructor
  · intro h
    by_contra htop
    cases hparent : n.parent with
    | none => exact htop (.inl hparent)
    | some parent => exact h parent ((usableParent?_eq_some_iff_not_isTop hnodup).2 ⟨hparent, htop⟩)
  · intro htop parent hparent
    exact ((usableParent?_eq_some_iff_not_isTop hnodup).1 hparent).2 htop

/-- Which nodes are placed inside no other. -/
theorem mem_topLevel_iff {n : Node} (hn : n ∈ nodes) :
    n.id ∈ topLevel nodes true ++ topLevel nodes false ↔ IsTop nodes n := by
  simp only [topLevel, List.mem_append, List.mem_map, List.mem_filter, Bool.and_eq_true,
    Option.isNone_iff_eq_none, usableParent?_eq_none_iff hnodup, beq_iff_eq]
  constructor
  · rintro (⟨m, ⟨hm, htop, -⟩, hid⟩ | ⟨m, ⟨hm, htop, -⟩, hid⟩)
    · rwa [← List.inj_on_of_nodup_map hnodup hm hn hid]
    · rwa [← List.inj_on_of_nodup_map hnodup hm hn hid]
  · intro htop
    cases hgroup : n.isGroup with
    | true => exact .inl ⟨n, ⟨hn, htop, hgroup⟩, rfl⟩
    | false => exact .inr ⟨n, ⟨hn, htop, hgroup⟩, rfl⟩

/-- Which nodes are placed inside a given one. -/
theorem mem_children_iff {n : Node} (hn : n ∈ nodes) :
    n.id ∈ children nodes parent ↔ n.parent = some parent ∧ ¬ IsTop nodes n := by
  simp only [children, List.mem_map, List.mem_filter, decide_eq_true_eq,
    usableParent?_eq_some_iff_not_isTop hnodup]
  constructor
  · rintro ⟨m, ⟨hm, hinside⟩, hid⟩
    rwa [← List.inj_on_of_nodup_map hnodup hm hn hid]
  · intro hinside
    exact ⟨n, ⟨hn, hinside⟩, rfl⟩

omit hnodup in
/-- The nodes inside another one stand in the order of all nodes. -/
theorem children_sublist (nodes : List Node) (parent : Id) :
    (children nodes parent).Sublist (nodes.map Node.id) := List.filter_sublist.map _

/-- A node is placed inside at most one other. -/
theorem eq_of_mem_children {other : Id} (h : id ∈ children nodes parent)
    (h' : id ∈ children nodes other) : parent = other := by
  obtain ⟨n, hn, rfl⟩ := List.mem_map.1 ((children_sublist nodes parent).subset h)
  exact Option.some.inj
    (((mem_children_iff hnodup hn).1 h).1.symm.trans ((mem_children_iff hnodup hn).1 h').1)

/-- No node is placed inside itself, however deep. -/
theorem not_isInsideItself (id : Id) :
    ¬ TransGen (fun child parent => child ∈ children nodes parent) id id := by
  intro h
  have hlinks : TransGen (LinksTo nodes) id id := by
    refine TransGen.mono (fun child parent hchild => ?_) id id h
    obtain ⟨n, hn, rfl⟩ := List.mem_map.1 ((children_sublist nodes parent).subset hchild)
    exact ⟨n, hn, rfl, ((mem_children_iff hnodup hn).1 hchild).1⟩
  obtain ⟨parent, hinside, -⟩ := TransGen.head'_iff.1 h
  obtain ⟨n, hn, rfl⟩ := List.mem_map.1 ((children_sublist nodes parent).subset hinside)
  exact ((mem_children_iff hnodup hn).1 hinside).2 (.inr (.inr hlinks))

omit hnodup in
/-- There is a node for every parent that a node is placed inside. -/
theorem mem_of_mem_children (h : id ∈ children nodes parent) : parent ∈ nodes.map Node.id := by
  obtain ⟨n, hn, -⟩ := List.mem_map.1 h
  have hinside : usableParent? nodes n = some parent :=
    of_decide_eq_true (List.mem_filter.1 hn).2
  exact isKnown_iff.1 (usableParent?_eq_some_iff.1 hinside).2.1

/-- What holds of a node as soon as it holds of the one that it is placed inside holds of all nodes:
there are finitely many, and none is inside itself. -/
theorem induction_children {motive : Id → Prop}
    (inside : ∀ id ∈ nodes.map Node.id,
      (∀ parent, id ∈ children nodes parent → motive parent) → motive id)
    (hid : id ∈ nodes.map Node.id) : motive id := by
  let Above (a b : {id // id ∈ nodes.map Node.id}) : Prop :=
    TransGen (fun child parent => child ∈ children nodes parent) b.1 a.1
  have htrans : IsTrans _ Above := ⟨fun _ _ _ hab hbc => hbc.trans hab⟩
  have hirrefl : Std.Irrefl Above := ⟨fun a => not_isInsideItself hnodup a.1⟩
  have hfounded : WellFounded Above := Finite.wellFounded_of_trans_of_irrefl Above
  refine hfounded.induction (C := fun a => motive a.1) ⟨id, hid⟩ ?_
  intro a ih
  refine inside a.1 a.2 ?_
  intro parent hparent
  exact ih ⟨parent, mem_of_mem_children hparent⟩ (.single hparent)

end

end TextDiagram.Grid
