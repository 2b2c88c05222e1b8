/-
**What an answer does to a diagram.**

An answer of a layout service is merged with positions before it is applied: with those of the grid
where a diagram is placed for the first time, and with those shown where it is there already.  Both
come to the same.  A node that the answer has a finite position for sits there, every other node
stays where it is, and nothing else happens but that the routes are drawn anew.

Main definitions:

* `TextDiagram.Diagram.Follows` — a diagram is another one with the positions of an answer.

Main results:

* `TextDiagram.Diagram.placed_merged_positions` — an answer that is merged with the positions shown
  changes the positions of the nodes;
* `TextDiagram.Diagram.follows_placed` — **the nodes follow the answer**, and the rest stays;
* `TextDiagram.Diagram.placed_placed_merged` — **placing on the grid first makes no difference**,
  as the grid has a position for every node.
-/

import TextDiagram.Placement.Service
import TextDiagram.Proofs.Diagram.Edit

set_option relaxedAutoImplicit false
set_option autoImplicit false

namespace TextDiagram

/-! ### Positions of an answer -/

section improved

variable {placed : Catalog (Point Float32)} {id : Id} {p : Point Float32}

theorem improved_of_isFinite (h : placed.get? id = some p) (hp : p.isFinite = true)
    (position : Point Float32) : improved placed id position = p := by
  simp only [improved, h, hp, if_true]

theorem improved_of_forall_not_isFinite (h : ∀ p, placed.get? id = some p → p.isFinite = false)
    (position : Point Float32) : improved placed id position = position := by
  cases hplaced : placed.get? id with
  | none => simp only [improved, hplaced]
  | some p => simp only [improved, hplaced, h p hplaced, Bool.false_eq_true, if_false]

/-- An answer has a finite position for an id, or none that counts. -/
theorem exists_isFinite_or_forall (placed : Catalog (Point Float32)) (id : Id) :
    (∃ p, placed.get? id = some p ∧ p.isFinite = true) ∨
      ∀ p, placed.get? id = some p → p.isFinite = false := by
  cases hplaced : placed.get? id with
  | none => exact Or.inr fun p hp => nomatch hp
  | some p =>
      cases hp : p.isFinite with
      | true => exact Or.inl ⟨p, rfl, hp⟩
      | false =>
          refine Or.inr ?_
          rintro q hq
          obtain rfl := Option.some.inj hq
          exact hp

end improved

namespace Diagram

/-! ### Single nodes -/

namespace Node

theorem placedAt_of_isFinite {n : Node Float32} {p : Point Float32} (hp : p.isFinite = true) :
    n.placedAt p = { n with position := p } := by
  rw [placedAt, if_pos hp]

/-- To be placed where it is does nothing to a node. -/
theorem placedAt_position (n : Node Float32) : n.placedAt n.position = n := by
  rw [placedAt]
  split <;> rfl

/-- What its own place improves to is taken over, even where it is not finite. -/
theorem placedAt_improved (n : Node Float32) (placed : Catalog (Point Float32)) (id : Id) :
    n.placedAt (improved placed id n.position) =
      { n with position := improved placed id n.position } := by
  rcases exists_isFinite_or_forall placed id with ⟨p, hplaced, hp⟩ | hnone
  · rw [improved_of_isFinite hplaced hp, placedAt_of_isFinite hp]
  · rw [improved_of_forall_not_isFinite hnone, placedAt_position]

/-- A place that an answer improves on need not be taken before. -/
theorem placedAt_placedAt_improved (n : Node Float32) (placed : Catalog (Point Float32)) (id : Id)
    (p : Point Float32) :
    (n.placedAt p).placedAt (improved placed id (n.placedAt p).position) =
      n.placedAt (improved placed id p) := by
  have hposition : ∀ q : Point Float32, { n.placedAt p with position := q } =
      { n with position := q } := by
    intro q
    obtain ⟨p', hp'⟩ := n.exists_placedAt_eq p
    rw [hp']
  rcases exists_isFinite_or_forall placed id with ⟨q, hplaced, hq⟩ | hnone
  · rw [improved_of_isFinite hplaced hq, improved_of_isFinite hplaced hq, placedAt_of_isFinite hq,
      placedAt_of_isFinite hq, hposition]
  · rw [improved_of_forall_not_isFinite hnone, improved_of_forall_not_isFinite hnone,
      placedAt_position]

end Node

/-! ### Answers merged with the positions shown -/

variable {d : Diagram Float32}

theorem get?_positions (d : Diagram Float32) (id : Id) :
    d.positions.get? id = (d.nodes.get? id).map Node.position :=
  Catalog.get?_map d.nodes _ id

/-- An answer that is merged with the positions shown changes the positions of the nodes. -/
theorem placed_merged_positions (d : Diagram Float32) (placed : Catalog (Point Float32)) :
    d.placed (merged d.positions (.ok placed)) = rerouted { d with
      nodes := d.nodes.map fun id n => { n with position := improved placed id n.position } } := by
  have hnodes : (d.nodes.map fun id n =>
        n.placedBy ((merged d.positions (.ok placed)).get? id)) =
      d.nodes.map fun id n => { n with position := improved placed id n.position } := by
    refine Catalog.map_congr ?_
    intro id n hmem
    rw [get?_merged_ok, get?_positions, Catalog.get?_eq_some_iff.2 hmem]
    exact n.placedAt_improved placed id
  rw [Diagram.placed, hnodes]

/-- A diagram is another one whose nodes sit where an answer says, as far as it says something. -/
structure Follows (d' d : Diagram Float32) (placed : Catalog (Point Float32)) : Prop where
  /-- A node with a finite position in the answer sits there. -/
  moved : ∀ id n p, d.nodes.get? id = some n → placed.get? id = some p → p.isFinite = true →
    d'.nodes.get? id = some { n with position := p }
  /-- Every other node is as it was. -/
  kept : ∀ id n, d.nodes.get? id = some n → (∀ p, placed.get? id = some p → p.isFinite = false) →
    d'.nodes.get? id = some n
  /-- There are no other nodes, whatever ids the answer knows. -/
  node_ids : d'.nodes.ids = d.nodes.ids
  /-- The routes are those between the nodes where they sit. -/
  routed : d'.routes = TextDiagram.routes d'.nodes d'.edges
  /-- Nothing else changes. -/
  rest : d' = { d with nodes := d'.nodes, routes := d'.routes }

/-- **The nodes follow an answer** that is merged with the positions shown, and the rest stays. -/
theorem follows_placed (d : Diagram Float32) (placed : Catalog (Point Float32)) :
    (d.placed (merged d.positions (.ok placed))).Follows d placed := by
  rw [placed_merged_positions]
  constructor
  case moved =>
    intro id n p hn hplaced hp
    rw [rerouted_nodes, Catalog.get?_map, hn, Option.map_some, improved_of_isFinite hplaced hp]
  case kept =>
    intro id n hn hnone
    rw [rerouted_nodes, Catalog.get?_map, hn, Option.map_some,
      improved_of_forall_not_isFinite hnone]
  case node_ids => exact Catalog.ids_map d.nodes _
  case routed => rfl
  case rest => rfl

/-! ### Answers merged with the positions of the grid -/

/-- **Placing on other positions first makes no difference**, where those are positions of all
nodes. -/
theorem placed_placed_merged {base : Catalog (Point Float32)}
    (h : ∀ id ∈ d.nodes.ids, id ∈ base.ids) (placed : Catalog (Point Float32)) :
    (d.placed base).placed (merged (d.placed base).positions (.ok placed)) =
      d.placed (merged base (.ok placed)) := by
  have hnodes : ((d.nodes.map fun id n => n.placedBy (base.get? id)).map fun id n =>
        { n with position := improved placed id n.position }) =
      d.nodes.map fun id n => n.placedBy ((merged base (.ok placed)).get? id) := by
    rw [Catalog.map_map]
    refine Catalog.map_congr ?_
    intro id n hmem
    obtain ⟨p, hp⟩ := Catalog.mem_ids_iff.1 (h id (List.mem_map_of_mem (f := Prod.fst) hmem))
    rw [get?_merged_ok, hp, Option.map_some, Node.placedBy, Node.placedBy, Option.elim_some,
      Option.elim_some, ← Node.placedAt_improved]
    exact n.placedAt_placedAt_improved placed id p
  rw [placed_merged_positions, Diagram.placed, Diagram.placed, ← hnodes]
  rfl

end Diagram

end TextDiagram
