/-
**The labels of a diagram.**

Nodes are labelled when they are made, and no edit changes a label: moving, measuring and placing
nodes keeps the labels, edges have none that matter here, and a new node adds its own.

Main definitions:

* `TextDiagram.Diagram.labels` — the labels of the nodes of a diagram, in order.

Main results:

* `TextDiagram.Diagram.labels_placed` and its companions — the edits of what is there keep the
  labels;
* `TextDiagram.Diagram.labels_withNode` — a new node adds its label;
* `TextDiagram.Diagram.labels_ofDocument` — the labels of the diagram of a document.
-/

import TextDiagram.Proofs.Diagram.Document

set_option relaxedAutoImplicit false
set_option autoImplicit false

namespace TextDiagram.Diagram

variable {d d' : Diagram Float32} {id : Id}

/-- The labels of the nodes of a diagram. -/
def labels (d : Diagram Float32) : List String := d.nodes.values.map Node.label

theorem mem_labels_of_get? {n : Node Float32} (h : d.nodes.get? id = some n) :
    n.label ∈ d.labels := by
  have hmem : (id, n) ∈ d.nodes.entries := Catalog.get?_eq_some_iff.1 h
  exact List.mem_map_of_mem (List.mem_map_of_mem hmem)

/-! ### Edits of what is there -/

/-- Changing nodes, but not their labels, keeps the labels. -/
theorem labels_mapNodes (d : Diagram Float32) {f : Id → Node Float32 → Node Float32}
    (hf : ∀ id n, (f id n).label = n.label) :
    labels { d with nodes := d.nodes.map f } = d.labels := by
  simp only [labels, Catalog.values, Catalog.map, List.map_map]
  refine List.map_congr_left ?_
  rintro ⟨id, n⟩ -
  exact hf id n

theorem labels_placed (d : Diagram Float32) (positions : Catalog (Point Float32)) :
    (d.placed positions).labels = d.labels := by
  refine labels_mapNodes d ?_
  intro id n
  obtain ⟨p, hp⟩ := n.exists_placedBy_eq (positions.get? id)
  rw [hp]

theorem labels_inheriting (d previous : Diagram Float32) :
    (d.inheriting previous).labels = d.labels := by
  refine labels_mapNodes d ?_
  intro id n
  cases previous.nodes.get? id <;> rfl

/-- Changing one node, but not its label, keeps the labels. -/
theorem labels_modifyNode (d : Diagram Float32) (id : Id) {f : Node Float32 → Node Float32}
    (hf : ∀ n, (f n).label = n.label) :
    labels { d with nodes := d.nodes.modify id f } = d.labels := by
  refine labels_mapNodes d ?_
  intro key n
  split
  · exact hf n
  · rfl

theorem labels_of_moved? {position : Point Float32} (h : d.moved? id position = some d') :
    d'.labels = d.labels := by
  obtain ⟨-, h⟩ := Option.ite_none_right_eq_some.1 h
  obtain rfl := Option.some.inj h
  exact labels_modifyNode d id fun _ => rfl

theorem labels_of_measured? {size : Size Float32} {handles : List (Handle Float32)}
    (h : d.measured? id size handles = some d') : d'.labels = d.labels := by
  obtain ⟨-, h⟩ := Option.ite_none_right_eq_some.1 h
  obtain rfl := Option.some.inj h
  exact labels_modifyNode d id fun _ => rfl

theorem labels_of_reconnected? {source target : Id}
    (h : d.reconnected? id source target = some d') : d'.labels = d.labels := by
  obtain ⟨-, h⟩ := Option.ite_none_right_eq_some.1 h
  obtain rfl := Option.some.inj h
  rfl

/-! ### Additions -/

theorem labels_of_withEdge? {e : Edge} (h : d.withEdge? id e = some d') :
    d'.labels = d.labels := by
  obtain ⟨-, h⟩ := Option.ite_none_right_eq_some.1 h
  obtain rfl := Option.some.inj h
  rfl

/-- A new node comes in at the end. -/
theorem entries_nodes_withNode (hid : id ∉ d.ids) (n : Node Float32) :
    (d.withNode id n).nodes.entries = d.nodes.entries ++ [(id, n)] :=
  Catalog.entries_insert_of_notMem (fun h => hid (mem_ids_iff.2 (Or.inl h))) n

/-- A new node adds its label. -/
theorem labels_withNode (hid : id ∉ d.ids) (n : Node Float32) :
    (d.withNode id n).labels = d.labels ++ [n.label] := by
  simp only [labels, Catalog.values, entries_nodes_withNode hid, List.map_append, List.map_cons,
    List.map_nil]

/-! ### Documents -/

theorem labels_ofDocument {names : List Id} {document : Document} (style : Style)
    (h : document.IsSound names) :
    (ofDocument style document).labels = document.nodes.map Document.Node.label := by
  simp only [labels, Catalog.values, entries_nodes_ofDocument style h, List.map_map]
  rfl

end TextDiagram.Diagram
