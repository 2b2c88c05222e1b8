/-
**The diagram of a document.**

The diagram of a sound document is closed, and what the source map of the document relates to lines
is in the diagram, with a line as its origin.  This is not lost when the diagram is edited, as edits
neither remove anything nor change where it comes from.  And what comes from lines stays what the
document has, as nothing that is drawn comes from a line.

Main definitions:

* `TextDiagram.Diagram.IsMappedBy` — the nodes and edges that a source map knows are in the diagram;
* `TextDiagram.Diagram.IsReadFrom` — what comes from lines is in a document.

Main results:

* `TextDiagram.Diagram.isClosed_ofDocument`, `TextDiagram.Diagram.isMappedBy_ofDocument` — **the
  diagram of a sound document** is closed and has what the source map knows;
* `TextDiagram.Diagram.IsMappedBy.of_isExtensionOf` — so do its extensions;
* `TextDiagram.Diagram.isReadFrom_ofDocument`, `TextDiagram.Diagram.IsReadFrom.of_isPatchOf`,
  `TextDiagram.Diagram.IsReadFrom.withNode`, `TextDiagram.Diagram.IsReadFrom.withEdge` — no edit
  adds anything that comes from a line.
-/

import TextDiagram.Diagram.Measure
import TextDiagram.Proofs.Diagram.Edit
import TextDiagram.Proofs.Document.Reader

set_option relaxedAutoImplicit false
set_option autoImplicit false

namespace TextDiagram.Diagram

/-! ### Diagrams and source maps -/

/-- The nodes and edges that a source map relates to lines are in the diagram, and come from lines
themselves. -/
structure IsMappedBy (d : Diagram Float32) (map : SourceMap) : Prop where
  /-- Nodes that are related to lines come from lines. -/
  node : ∀ line id, (line, ⟨.node, id⟩) ∈ map.entries → ∃ l, d.nodeOrigin? id = some (.line l)
  /-- Edges that are related to lines come from lines. -/
  edge : ∀ line id, (line, ⟨.edge, id⟩) ∈ map.entries → ∃ l, d.edgeOrigin? id = some (.line l)

variable {d d' : Diagram Float32} {id : Id}

theorem mem_nodes_of_nodeOrigin? {o : Origin} (h : d.nodeOrigin? id = some o) :
    id ∈ d.nodes.ids := by
  obtain ⟨n, hn, -⟩ := Option.map_eq_some_iff.1 h
  exact Catalog.mem_ids_iff.2 ⟨n, hn⟩

theorem mem_edges_of_edgeOrigin? {o : Origin} (h : d.edgeOrigin? id = some o) :
    id ∈ d.edges.ids := by
  obtain ⟨e, he, -⟩ := Option.map_eq_some_iff.1 h
  exact Catalog.mem_ids_iff.2 ⟨e, he⟩

/-- An extension has what the source map knows, too. -/
theorem IsMappedBy.of_isExtensionOf {map : SourceMap} (h : d.IsMappedBy map)
    (hext : d'.IsExtensionOf d) : d'.IsMappedBy map where
  node := by
    intro line id hentry
    obtain ⟨l, hl⟩ := h.node line id hentry
    exact ⟨l, (hext.node id (mem_nodes_of_nodeOrigin? hl)).trans hl⟩
  edge := by
    intro line id hentry
    obtain ⟨l, hl⟩ := h.edge line id hentry
    exact ⟨l, (hext.edge id (mem_edges_of_edgeOrigin? hl)).trans hl⟩

/-! ### What comes from lines -/

/-- The nodes and edges that come from lines are those of a document. -/
structure IsReadFrom (d : Diagram Float32) (document : Document) : Prop where
  /-- Nodes that come from lines are in the document. -/
  node : ∀ id line, d.nodeOrigin? id = some (.line line) → id ∈ document.nodes.map Document.Node.id
  /-- Edges that come from lines are in the document. -/
  edge : ∀ id line, d.edgeOrigin? id = some (.line line) → id ∈ document.edges.map Document.Edge.id

namespace IsReadFrom

variable {document : Document}

theorem of_isPatchOf (h : d.IsReadFrom document) (hpatch : d'.IsPatchOf d) :
    d'.IsReadFrom document where
  node := fun id line hid => h.node id line (hpatch.nodeOrigin id ▸ hid)
  edge := fun id line hid => h.edge id line (hpatch.edgeOrigin id ▸ hid)

/-- A node that is drawn comes from no line. -/
theorem withNode (h : d.IsReadFrom document) (id : Id) {n : Node Float32}
    (hn : n.origin = .diagram) : (d.withNode id n).IsReadFrom document where
  node := by
    intro key line hkey
    by_cases heq : key = id
    · rw [heq, nodeOrigin?, Diagram.withNode, Catalog.get?_insert_self, Option.map_some, hn] at hkey
      cases hkey
    · rw [nodeOrigin?, Diagram.withNode, Catalog.get?_insert_of_ne _ heq] at hkey
      exact h.node key line hkey
  edge := h.edge

/-- An edge that is drawn comes from no line. -/
theorem withEdge (h : d.IsReadFrom document) {id : Id} {e : Edge} (he : e.origin = .diagram)
    (hd : d.withEdge? id e = some d') : d'.IsReadFrom document := by
  obtain ⟨-, hd⟩ := Option.ite_none_right_eq_some.1 hd
  obtain rfl := Option.some.inj hd
  refine ⟨h.node, ?_⟩
  intro key line hkey
  by_cases heq : key = id
  · rw [heq, edgeOrigin?, rerouted_edges, Catalog.get?_insert_self, Option.map_some, he] at hkey
    cases hkey
  · rw [edgeOrigin?, rerouted_edges, Catalog.get?_insert_of_ne _ heq] at hkey
    exact h.edge key line hkey

end IsReadFrom

/-! ### The diagram of a document -/

section ofDocument

variable {names : List Id} {document : Document} (style : Style)

theorem entries_nodes_ofDocument (h : document.IsSound names) :
    (ofDocument style document).nodes.entries =
      document.nodes.map fun n => (n.id, Node.ofDocument style document.appearance n) := by
  refine Catalog.entries_ofList ?_
  rw [List.map_map]
  exact h.nodes_distinct

theorem entries_edges_ofDocument (h : document.IsSound names) :
    (ofDocument style document).edges.entries =
      document.edges.map fun e => (e.id, Edge.ofDocument e) := by
  refine Catalog.entries_ofList ?_
  rw [List.map_map]
  exact h.edges_distinct

theorem ids_nodes_ofDocument (h : document.IsSound names) :
    (ofDocument style document).nodes.ids = document.nodes.map Document.Node.id := by
  rw [Catalog.ids, entries_nodes_ofDocument style h, List.map_map]
  rfl

theorem ids_edges_ofDocument (h : document.IsSound names) :
    (ofDocument style document).edges.ids = document.edges.map Document.Edge.id := by
  rw [Catalog.ids, entries_edges_ofDocument style h, List.map_map]
  rfl

/-- The nodes of the diagram are those of the document. -/
theorem get?_nodes_ofDocument_iff (h : document.IsSound names) {id : Id} {n : Node Float32} :
    (ofDocument style document).nodes.get? id = some n ↔
      ∃ m ∈ document.nodes, m.id = id ∧ Node.ofDocument style document.appearance m = n := by
  rw [Catalog.get?_eq_some_iff, entries_nodes_ofDocument style h, List.mem_map]
  simp only [Prod.mk.injEq]

/-- The diagram of a sound document is closed. -/
theorem isClosed_ofDocument (h : document.IsSound names) :
    (ofDocument style document).IsClosed where
  joined := by
    intro id e hmem
    rw [entries_edges_ofDocument style h] at hmem
    obtain ⟨edge, hedge, heq⟩ := List.mem_map.1 hmem
    obtain ⟨rfl, rfl⟩ := Prod.mk.inj heq
    rw [ids_nodes_ofDocument style h]
    exact h.joined edge hedge
  apart := by
    intro id hnode hedge
    rw [ids_nodes_ofDocument style h] at hnode
    rw [ids_edges_ofDocument style h] at hedge
    have hnd := (List.nodup_append.1 h.nodup_ids).1
    exact (List.nodup_append.1 hnd).2.2 id hnode id hedge rfl

/-- The diagram of a sound document has what the source map of the document knows. -/
theorem isMappedBy_ofDocument (h : document.IsSound names) :
    (ofDocument style document).IsMappedBy document.sourceMap where
  node := by
    intro line id hentry
    obtain ⟨n, hn, rfl⟩ := List.mem_map.1 (h.entry_node line id hentry)
    obtain ⟨l, hl⟩ := h.nodes_onLine n hn
    have hmem : (n.id, Node.ofDocument style document.appearance n) ∈
        (ofDocument style document).nodes.entries := by
      rw [entries_nodes_ofDocument style h]
      exact List.mem_map_of_mem hn
    exact ⟨l, by rw [nodeOrigin?, Catalog.get?_eq_some_iff.2 hmem, Option.map_some, ← hl]; rfl⟩
  edge := by
    intro line id hentry
    obtain ⟨e, he, rfl⟩ := List.mem_map.1 (h.entry_edge line id hentry)
    obtain ⟨l, hl, -⟩ := h.edges_onLine e he
    have hmem : (e.id, Edge.ofDocument e) ∈ (ofDocument style document).edges.entries := by
      rw [entries_edges_ofDocument style h]
      exact List.mem_map_of_mem he
    exact ⟨l, by rw [edgeOrigin?, Catalog.get?_eq_some_iff.2 hmem, Option.map_some, ← hl]; rfl⟩

/-- The diagram of a sound document is read from it. -/
theorem isReadFrom_ofDocument (h : document.IsSound names) :
    (ofDocument style document).IsReadFrom document where
  node := fun _ _ hid => ids_nodes_ofDocument style h ▸ mem_nodes_of_nodeOrigin? hid
  edge := fun _ _ hid => ids_edges_ofDocument style h ▸ mem_edges_of_edgeOrigin? hid

end ofDocument

end TextDiagram.Diagram
