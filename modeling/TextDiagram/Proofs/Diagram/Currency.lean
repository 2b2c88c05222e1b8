/-
**When the routes of a diagram are current.**

The routes are current if they are those that would be drawn anew.  Edits draw them anew when they
are made, and so leave them current, whatever they were before.  Only a node that is inserted leaves
them as they are.  That loses nothing where its id is new, as no edge ends there, nor where it
replaces a node of the same outline.  But where it replaces a node by one that looks otherwise, the
edges still lead to where the old one was, until another edit is made.

So the routes stay current throughout a run of edits exactly if every node comes in unnoticed by the
edges.  In any case each edge has exactly one route, current or not.

Main definitions:

* `TextDiagram.Diagram.IsCurrent` — the routes are current;
* `TextDiagram.Diagram.Edit`, `TextDiagram.Diagram.edit?`, `TextDiagram.Diagram.edited` — the edits
  as data, and what they do to a diagram;
* `TextDiagram.Diagram.run` — what a run of edits leads to, from nothing;
* `TextDiagram.Diagram.IsUnnoticed` — a node comes in without changing any route;
* `TextDiagram.Diagram.IsRouted` — the edges join nodes and have one route each.

Main results:

* `TextDiagram.Diagram.isCurrent_of_edit?` — every edit but the insertion of a node leaves the
  routes current;
* `TextDiagram.Diagram.IsCurrent.withNode_iff` — when the insertion of a node does;
* `TextDiagram.Diagram.IsRouted.run` — every edge has exactly one route;
* `TextDiagram.Diagram.forall_prefix_isCurrent_iff`,
  `TextDiagram.Diagram.forall_isCurrent_iff_isUnnoticed` — **what keeps the routes current**
  throughout a run of edits.
-/

import Mathlib.Data.List.Induction
import TextDiagram.Proofs.Diagram.Locality

set_option relaxedAutoImplicit false
set_option autoImplicit false

namespace TextDiagram

open Diagram (Node Edge)

/-- Functions filter a catalog alike exactly if they agree on its entries. -/
theorem Catalog.filterMap_eq_filterMap_iff {α β : Type} {c : Catalog α} {f g : Id → α → Option β} :
    c.filterMap f = c.filterMap g ↔ ∀ id a, (id, a) ∈ c.entries → f id a = g id a := by
  refine ⟨fun h id a hmem => ?_, filterMap_congr⟩
  have hget := congrArg (fun c => c.get? id) h
  simpa only [get?_filterMap, get?_eq_some_iff.2 hmem, Option.bind_some] using hget

namespace Diagram

variable {d d' : Diagram Float32} {id : Id} {n : Node Float32}

/-! ### Edits -/

/-- An edit, with everything that it is told. -/
inductive Edit where
  | insertNode (id : Id) (n : Node Float32)
  | insertEdge (id : Id) (e : Edge)
  | move (id : Id) (position : Point Float32)
  | measure (id : Id) (size : Size Float32) (handles : List (Handle Float32))
  | place (positions : Catalog (Point Float32))
  | reconnect (id source target : Id)
  | inherit (previous : Diagram Float32)

/-- The diagram after an edit, if the edit is made. -/
def edit? (d : Diagram Float32) : Edit → Option (Diagram Float32)
  | .insertNode id n => some (d.withNode id n)
  | .insertEdge id e => d.withEdge? id e
  | .move id position => d.moved? id position
  | .measure id size handles => d.measured? id size handles
  | .place positions => some (d.placed positions)
  | .reconnect id source target => d.reconnected? id source target
  | .inherit previous => some (d.inheriting previous)

/-- The diagram after an edit.  If the edit is not made, nothing changes. -/
def edited (d : Diagram Float32) (edit : Edit) : Diagram Float32 := (d.edit? edit).getD d

/-- The diagram that a run of edits leads to, from nothing. -/
def run (edits : List Edit) : Diagram Float32 := edits.foldl edited {}

theorem run_append_singleton (edits : List Edit) (edit : Edit) :
    run (edits ++ [edit]) = (run edits).edited edit := by
  rw [run, List.foldl_append]
  rfl

/-- What every edit keeps holds after every run. -/
theorem run_induction {p : Diagram Float32 → Prop} (hempty : p {})
    (hedit : ∀ d edit d', p d → d.edit? edit = some d' → p d') (edits : List Edit) :
    p (run edits) := by
  induction edits using List.reverseRecOn with
  | nil => exact hempty
  | append_singleton edits edit ih =>
      rw [run_append_singleton, edited]
      cases hd : (run edits).edit? edit with
      | none => exact ih
      | some d' => exact hedit _ _ _ ih hd

/-! ### Current routes -/

/-- The routes are those that would be drawn anew. -/
def IsCurrent (d : Diagram Float32) : Prop := d.routes = TextDiagram.routes d.nodes d.edges

theorem isCurrent_rerouted (d : Diagram Float32) : d.rerouted.IsCurrent := rfl

/-- To draw current routes anew changes nothing. -/
theorem IsCurrent.rerouted_eq (h : d.IsCurrent) : d.rerouted = d := by
  rw [rerouted, ← show d.routes = TextDiagram.routes d.nodes d.edges from h]

/-- An edit that is made under a condition, and then draws the routes anew, leaves them current. -/
theorem isCurrent_of_guarded {c : Prop} [Decidable c] {changed : Diagram Float32}
    (hd : (if c then some changed.rerouted else none) = some d') : d'.IsCurrent := by
  obtain ⟨-, hd⟩ := Option.ite_none_right_eq_some.1 hd
  obtain rfl := Option.some.inj hd
  exact changed.isCurrent_rerouted

/-- Every edit but the insertion of a node leaves the routes current. -/
theorem isCurrent_of_edit? {edit : Edit} (hedit : ∀ id n, edit ≠ .insertNode id n)
    (hd : d.edit? edit = some d') : d'.IsCurrent := by
  cases edit with
  | insertNode id n => exact absurd rfl (hedit id n)
  | insertEdge id e => exact isCurrent_of_guarded hd
  | move id position => exact isCurrent_of_guarded hd
  | measure id size handles => exact isCurrent_of_guarded hd
  | place positions =>
      obtain rfl := Option.some.inj hd
      exact isCurrent_rerouted _
  | reconnect id source target => exact isCurrent_of_guarded hd
  | inherit previous =>
      obtain rfl := Option.some.inj hd
      exact isCurrent_rerouted _

/-! ### Nodes that come in unnoticed -/

/-- All edges that end at an id are drawn to a node under that id as they were drawn before. -/
def IsUnnoticed (d : Diagram Float32) (id : Id) (n : Node Float32) : Prop :=
  ∀ key e, (key, e) ∈ d.edges.entries → e.source = id ∨ e.target = id →
    routeOf? (d.nodes.insert id n) d.edges key e = routeOf? d.nodes d.edges key e

/-- The insertion of a node leaves the routes current exactly if the edges do not notice it. -/
theorem IsCurrent.withNode_iff (h : d.IsCurrent) :
    (d.withNode id n).IsCurrent ↔ d.IsUnnoticed id n := by
  have hiff : (d.withNode id n).IsCurrent ↔
      TextDiagram.routes (d.nodes.insert id n) d.edges = TextDiagram.routes d.nodes d.edges := by
    rw [← show d.routes = TextDiagram.routes d.nodes d.edges from h]
    exact eq_comm
  rw [hiff, TextDiagram.routes, TextDiagram.routes, Catalog.filterMap_eq_filterMap_iff]
  refine forall₃_congr fun key e _ => ⟨fun heq _ => heq, fun heq => ?_⟩
  by_cases hend : e.source = id ∨ e.target = id
  · exact heq hend
  · obtain ⟨hsource, htarget⟩ := not_or.1 hend
    exact routeOf?_insert hsource htarget n

/-- Current routes stay current with every edit but the insertion of a node that edges notice. -/
theorem IsCurrent.edited_iff (h : d.IsCurrent) (edit : Edit) :
    (d.edited edit).IsCurrent ↔ ∀ id n, edit = .insertNode id n → d.IsUnnoticed id n := by
  by_cases hedit : ∃ id n, edit = .insertNode id n
  · obtain ⟨id, n, rfl⟩ := hedit
    refine h.withNode_iff.trans ⟨?_, fun hall => hall id n rfl⟩
    rintro hunnoticed _ _ ⟨⟩
    exact hunnoticed
  · have hother : ∀ id n, edit ≠ .insertNode id n := fun id n heq => hedit ⟨id, n, heq⟩
    refine iff_of_true ?_ fun id n heq => absurd heq (hother id n)
    rw [edited]
    cases hd : d.edit? edit with
    | none => exact h
    | some d' => exact isCurrent_of_edit? hother hd

/-- A node of the same outline as the one that it replaces comes in unnoticed. -/
theorem isUnnoticed_of_outline? (h : d.outline? id = some n.outline) : d.IsUnnoticed id n := by
  intro key e _ _
  have houtline : ∀ other, (d.withNode id n).outline? other = d.outline? other := by
    intro other
    rcases eq_or_ne other id with rfl | hne
    · rw [h, outline?, withNode, Catalog.get?_insert_self, Option.map_some]
    · rw [outline?, withNode, Catalog.get?_insert_of_ne _ hne, outline?]
  have hagrees : (d.withNode id n).AgreesAt d e.source e.target :=
    ⟨houtline _, houtline _, fun _ _ _ => Iff.rfl⟩
  exact hagrees.routeOf?_eq rfl rfl

/-! ### One route for each edge -/

/-- The edges join nodes, and each of them has exactly one route. -/
structure IsRouted (d : Diagram Float32) : Prop where
  /-- Edges join nodes. -/
  joined : ∀ id e, (id, e) ∈ d.edges.entries → e.source ∈ d.nodes.ids ∧ e.target ∈ d.nodes.ids
  /-- The routes are those of the edges, in their order. -/
  routes_ids : d.routes.ids = d.edges.ids

namespace IsRouted

theorem of_joined
    (h : ∀ id e, (id, e) ∈ d.edges.entries → e.source ∈ d.nodes.ids ∧ e.target ∈ d.nodes.ids) :
    d.rerouted.IsRouted := ⟨h, ids_routes h⟩

/-- Changing nodes keeps the ends of the edges. -/
theorem mapNodes (h : d.IsRouted) (f : Id → Node Float32 → Node Float32) :
    (rerouted { d with nodes := d.nodes.map f }).IsRouted := by
  refine of_joined ?_
  rw [Catalog.ids_map]
  exact h.joined

theorem withNode (h : d.IsRouted) (id : Id) (n : Node Float32) : (d.withNode id n).IsRouted where
  joined := by
    intro key e hmem
    obtain ⟨hsource, htarget⟩ := h.joined key e hmem
    exact ⟨Catalog.mem_ids_insert.2 (.inl hsource), Catalog.mem_ids_insert.2 (.inl htarget)⟩
  routes_ids := h.routes_ids

theorem edit? (h : d.IsRouted) {edit : Edit} (hd : d.edit? edit = some d') : d'.IsRouted := by
  cases edit with
  | insertNode id n =>
      obtain rfl := Option.some.inj hd
      exact h.withNode id n
  | insertEdge id e =>
      obtain ⟨hjoins, hd⟩ := Option.ite_none_right_eq_some.1 hd
      obtain rfl := Option.some.inj hd
      refine of_joined fun key f hmem => ?_
      rcases Catalog.mem_entries_insert hmem with hold | rfl
      · exact h.joined key f hold
      · exact joins_iff.1 hjoins
  | move id position =>
      obtain ⟨-, hd⟩ := Option.ite_none_right_eq_some.1 hd
      obtain rfl := Option.some.inj hd
      exact h.mapNodes _
  | measure id size handles =>
      obtain ⟨-, hd⟩ := Option.ite_none_right_eq_some.1 hd
      obtain rfl := Option.some.inj hd
      exact h.mapNodes _
  | place positions =>
      obtain rfl := Option.some.inj hd
      exact h.mapNodes _
  | reconnect id source target =>
      obtain ⟨hguard, hd⟩ := Option.ite_none_right_eq_some.1 hd
      obtain rfl := Option.some.inj hd
      obtain ⟨hjoins, -⟩ := Bool.and_eq_true_iff.1 hguard
      refine of_joined fun key e hmem => ?_
      rcases Catalog.mem_entries_modify hmem with hold | ⟨old, -, rfl⟩
      · exact h.joined key e hold
      · exact joins_iff.1 hjoins
  | inherit previous =>
      obtain rfl := Option.some.inj hd
      exact h.mapNodes _

/-- Every edge has exactly one route, whatever edits are made. -/
theorem run (edits : List Edit) : (run edits).IsRouted :=
  run_induction ⟨fun _ _ h => absurd h List.not_mem_nil, rfl⟩ (fun _ _ _ h hd => h.edit? hd) edits

/-- A node under a new id comes in unnoticed: no edge ends there. -/
theorem isUnnoticed (h : d.IsRouted) (hid : id ∉ d.nodes.ids) (n : Node Float32) :
    d.IsUnnoticed id n := by
  intro key e hmem hend
  obtain ⟨hsource, htarget⟩ := h.joined key e hmem
  rcases hend with rfl | rfl
  · exact absurd hsource hid
  · exact absurd htarget hid

end IsRouted

/-! ### Runs of edits -/

/-- The routes are current throughout a run exactly if the edges notice no insertion of a node. -/
theorem forall_prefix_isCurrent_iff {edits : List Edit} :
    (∀ before, before <+: edits → (run before).IsCurrent) ↔
      ∀ before id n, before ++ [.insertNode id n] <+: edits → (run before).IsUnnoticed id n := by
  constructor
  · intro hcurrent before id n hprefix
    have hbefore := hcurrent before ((List.prefix_append _ _).trans hprefix)
    have hafter := hcurrent _ hprefix
    rw [run_append_singleton] at hafter
    exact (hbefore.edited_iff _).1 hafter id n rfl
  · intro hunnoticed before hprefix
    induction before using List.reverseRecOn with
    | nil => rfl
    | append_singleton before edit ih =>
        have hbefore := ih ((List.prefix_append _ _).trans hprefix)
        rw [run_append_singleton, hbefore.edited_iff]
        rintro id n rfl
        exact hunnoticed before id n hprefix

/-- **What keeps the routes current.**  After every edit of a run the routes are current exactly if
the edges notice no insertion of a node.  They do not notice it where the id is new, or where the
outline is that of the node that is replaced.  In any case there is exactly one route for each edge,
and every other edit that is made leaves the routes current, whatever they were before. -/
theorem forall_isCurrent_iff_isUnnoticed (edits : List Edit) :
    (run edits).routes.ids = (run edits).edges.ids ∧
    ((∀ before, before <+: edits → (run before).IsCurrent) ↔
      ∀ before id n, before ++ [.insertNode id n] <+: edits → (run before).IsUnnoticed id n) ∧
    (∀ id n, id ∉ (run edits).nodes.ids ∨ (run edits).outline? id = some n.outline →
      (run edits).IsUnnoticed id n) ∧
    ∀ edit d', (run edits).edit? edit = some d' →
      d'.IsCurrent ∨ ∃ id n, edit = .insertNode id n := by
  have hrouted := IsRouted.run edits
  refine ⟨hrouted.routes_ids, forall_prefix_isCurrent_iff, ?_, ?_⟩
  · rintro id n (hid | houtline)
    · exact hrouted.isUnnoticed hid n
    · exact isUnnoticed_of_outline? houtline
  · intro edit d' hd
    by_cases hedit : ∃ id n, edit = .insertNode id n
    · exact .inr hedit
    · exact .inl (isCurrent_of_edit? (fun id n heq => hedit ⟨id, n, heq⟩) hd)

/-! ### Two runs -/

/-- A node without extent. -/
def dot (label : String) (position : Point Float32) : Node Float32 where
  kind := .default
  position := position
  size := ⟨0, 0⟩
  label := label
  origin := .diagram

/-- Two nodes and an edge between them. -/
def linking : List Edit :=
  [.insertNode "A" (dot "A" ⟨0, 0⟩), .insertNode "B" (dot "B" ⟨300, 0⟩),
    .insertEdge "e" { source := "A", target := "B", kind := .arrow, origin := .diagram }]

/-- Two nodes and an edge between them, and then the first node anew. -/
def reinsertion (n : Node Float32) : List Edit := linking ++ [.insertNode "A" n]

/-- With another label, but in its old place, the node comes in unnoticed. -/
theorem forall_isCurrent_of_relabelling :
    (∀ before, before <+: reinsertion (dot "Start" ⟨0, 0⟩) → (run before).IsCurrent) ∧
      (run (reinsertion (dot "Start" ⟨0, 0⟩))).routes.ids = ["e"] ∧
      (run (reinsertion (dot "Start" ⟨0, 0⟩))).nodes.get? "A" = some (dot "Start" ⟨0, 0⟩) := by
  obtain ⟨hids, hiff, -⟩ := forall_isCurrent_iff_isUnnoticed (reinsertion (dot "Start" ⟨0, 0⟩))
  refine ⟨hiff.2 ?_, hids, rfl⟩
  intro before id n hprefix
  obtain ⟨-, -, hunnoticed, -⟩ := forall_isCurrent_iff_isUnnoticed before
  refine hunnoticed id n ?_
  -- which of the edits inserts the node
  rcases before with _ | ⟨_, _ | ⟨_, _ | ⟨_, _ | ⟨_, _⟩⟩⟩⟩ <;>
    simp only [reinsertion, linking, List.nil_append, List.cons_append,
      List.cons_prefix_cons] at hprefix
  case nil =>
    obtain ⟨⟨⟩, -⟩ := hprefix
    exact .inl (by decide)
  case cons.nil =>
    obtain ⟨rfl, ⟨⟩, -⟩ := hprefix
    exact .inl (by decide)
  case cons.cons.nil =>
    obtain ⟨rfl, rfl, h, -⟩ := hprefix
    exact nomatch h
  case cons.cons.cons.nil =>
    obtain ⟨rfl, rfl, rfl, ⟨⟩, -⟩ := hprefix
    exact .inr rfl
  case cons.cons.cons.cons =>
    obtain ⟨-, -, -, -, h⟩ := hprefix
    exact absurd h (by simp)

/-- In another place it does not: the edge still leads to where the node was. -/
theorem not_isCurrent_of_replacement :
    ¬ ∀ edits, (run edits).routes.ids = (run edits).edges.ids ∧ (run edits).IsCurrent := by
  intro h
  obtain ⟨-, hcurrent⟩ := h (reinsertion (dot "A" ⟨0, 400⟩))
  have hlabel := congrArg (fun routes => (routes.get? "e").map Route.labelAt) hcurrent
  have hstill : ((run (reinsertion (dot "A" ⟨0, 400⟩))).routes.get? "e").map Route.labelAt =
      some ⟨150, 0⟩ := by
    decide +kernel
  have hanew : ((TextDiagram.routes (run (reinsertion (dot "A" ⟨0, 400⟩))).nodes
      (run (reinsertion (dot "A" ⟨0, 400⟩))).edges).get? "e").map Route.labelAt =
      some ⟨150, 200⟩ := by
    decide +kernel
  exact absurd (hstill.symm.trans (hlabel.trans hanew)) (by decide +kernel)

end Diagram

end TextDiagram
