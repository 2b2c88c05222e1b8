/-
**What every edit of a diagram keeps.**

In a sound diagram the edges join nodes, no id is that of a node and of an edge, and the routes are
those that would be drawn anew.  Edits keep a diagram sound.  For most of them that is because they
draw the routes anew; a new node is added without that, and there it is because no edge can end at
an id that is new.

Edits of what is there also keep which ids there are and where each of them comes from; additions
keep it for what was there before.

Main definitions:

* `TextDiagram.Diagram.IsClosed`, `TextDiagram.Diagram.IsSound` — the invariant of diagrams, without
  and with the routes;
* `TextDiagram.Diagram.ends?` — the nodes that an edge joins;
* `TextDiagram.Diagram.nodeOrigin?`, `TextDiagram.Diagram.edgeOrigin?` — where an id comes from;
* `TextDiagram.Diagram.IsPatchOf`, `TextDiagram.Diagram.IsExtensionOf` — the same ids, or more, from
  the same origins.

Main results:

* `TextDiagram.Diagram.IsSound.routes_ids` — **every edge has a route**, in the order of the edges;
* `TextDiagram.Diagram.IsSound.withNode`, `TextDiagram.Diagram.IsSound.withEdge` — new nodes and
  edges keep a diagram sound;
* `TextDiagram.Diagram.IsClosed.placed`, `TextDiagram.Diagram.IsClosed.moved`,
  `TextDiagram.Diagram.IsClosed.measured`, `TextDiagram.Diagram.IsClosed.reconnected` — the edits of
  what is there are patches, and draw the routes anew.
-/

import TextDiagram.Diagram.Edit
import TextDiagram.Proofs.Catalog

set_option relaxedAutoImplicit false
set_option autoImplicit false

namespace TextDiagram

open Diagram (Node Edge)

/-! ### Routes -/

/-- An edge between nodes has a route. -/
theorem routeOf?_isSome {nodes : Catalog (Node Float32)} {edges : Catalog Edge} {id : Id} {e : Edge}
    (hsource : e.source ∈ nodes.ids) (htarget : e.target ∈ nodes.ids) :
    (routeOf? nodes edges id e).isSome = true := by
  obtain ⟨source, hsource⟩ := Catalog.mem_ids_iff.1 hsource
  obtain ⟨target, htarget⟩ := Catalog.mem_ids_iff.1 htarget
  simp only [routeOf?, hsource, htarget, Option.bind_eq_bind, Option.bind_some]
  split
  · rfl
  · split <;> rfl

/-- A node has no influence on the route of an edge that does not end at it. -/
theorem routeOf?_insert {nodes : Catalog (Node Float32)} {edges : Catalog Edge} {id key : Id}
    {e : Edge} (hsource : e.source ≠ id) (htarget : e.target ≠ id) (n : Node Float32) :
    routeOf? (nodes.insert id n) edges key e = routeOf? nodes edges key e := by
  rw [routeOf?, routeOf?, Catalog.get?_insert_of_ne _ hsource, Catalog.get?_insert_of_ne _ htarget]

/-- A new node that no edge ends at has no influence on the routes. -/
theorem routes_insert {nodes : Catalog (Node Float32)} {edges : Catalog Edge} {id : Id}
    (hfree : ∀ key e, (key, e) ∈ edges.entries → e.source ≠ id ∧ e.target ≠ id) (n : Node Float32) :
    routes (nodes.insert id n) edges = routes nodes edges := by
  refine Catalog.filterMap_congr ?_
  intro key e hmem
  obtain ⟨hsource, htarget⟩ := hfree key e hmem
  exact routeOf?_insert hsource htarget n

/-- Edges that join nodes have one route each, in their order. -/
theorem ids_routes {nodes : Catalog (Node Float32)} {edges : Catalog Edge}
    (h : ∀ id e, (id, e) ∈ edges.entries → e.source ∈ nodes.ids ∧ e.target ∈ nodes.ids) :
    (routes nodes edges).ids = edges.ids :=
  Catalog.ids_filterMap fun id e hmem => routeOf?_isSome (h id e hmem).1 (h id e hmem).2

namespace Diagram

variable {d d' : Diagram Float32} {id : Id}

/-! ### Places -/

/-- To be placed changes the place of a node, and nothing else. -/
theorem Node.exists_placedAt_eq (n : Node Float32) (position : Point Float32) :
    ∃ p, n.placedAt position = { n with position := p } := by
  rw [placedAt]
  split
  · exact ⟨position, rfl⟩
  · exact ⟨n.position, rfl⟩

/-- To be placed, or not, changes the place of a node, and nothing else. -/
theorem Node.exists_placedBy_eq (n : Node Float32) (position : Option (Point Float32)) :
    ∃ p, n.placedBy position = { n with position := p } := by
  cases position with
  | none => exact ⟨n.position, rfl⟩
  | some position => exact n.exists_placedAt_eq position

/-! ### The ends of edges -/

/-- The source and the target of an edge. -/
def Edge.ends (e : Edge) : Id × Id := (e.source, e.target)

/-- The source and the target of the edge of an id. -/
def ends? (d : Diagram Float32) (id : Id) : Option (Id × Id) := (d.edges.get? id).map Edge.ends

theorem ends?_eq_some_iff {ends : Id × Id} :
    d.ends? id = some ends ↔ ∃ e, (id, e) ∈ d.edges.entries ∧ e.ends = ends := by
  simp only [ends?, Option.map_eq_some_iff, Catalog.get?_eq_some_iff]

/-! ### Origins -/

/-- Where the node of an id comes from. -/
def nodeOrigin? (d : Diagram Float32) (id : Id) : Option Origin := (d.nodes.get? id).map Node.origin

/-- Where the edge of an id comes from. -/
def edgeOrigin? (d : Diagram Float32) (id : Id) : Option Origin := (d.edges.get? id).map Edge.origin

/-- A diagram with the ids of another one, from the same origins. -/
structure IsPatchOf (d' d : Diagram Float32) : Prop where
  /-- The nodes are the same, in the same order. -/
  node_ids : d'.nodes.ids = d.nodes.ids
  /-- The edges are the same, in the same order. -/
  edge_ids : d'.edges.ids = d.edges.ids
  /-- The nodes come from where they came from. -/
  nodeOrigin : ∀ id, d'.nodeOrigin? id = d.nodeOrigin? id
  /-- The edges come from where they came from. -/
  edgeOrigin : ∀ id, d'.edgeOrigin? id = d.edgeOrigin? id

/-- A diagram with everything that another one has, from the same origins, and perhaps with more. -/
structure IsExtensionOf (d' d : Diagram Float32) : Prop where
  /-- The nodes that are there come from where they came from. -/
  node : ∀ id ∈ d.nodes.ids, d'.nodeOrigin? id = d.nodeOrigin? id
  /-- The edges that are there come from where they came from. -/
  edge : ∀ id ∈ d.edges.ids, d'.edgeOrigin? id = d.edgeOrigin? id

namespace IsPatchOf

theorem isExtensionOf (h : d'.IsPatchOf d) : d'.IsExtensionOf d :=
  ⟨fun id _ => h.nodeOrigin id, fun id _ => h.edgeOrigin id⟩

theorem refl (d : Diagram Float32) : d.IsPatchOf d := ⟨rfl, rfl, fun _ => rfl, fun _ => rfl⟩

theorem rerouted (h : d'.IsPatchOf d) : d'.rerouted.IsPatchOf d :=
  ⟨h.node_ids, h.edge_ids, h.nodeOrigin, h.edgeOrigin⟩

/-- A patch has the identity of the diagram that it patches. -/
theorem identity_eq (h : d'.IsPatchOf d) : d'.identity = d.identity := by
  rw [identity, identity, h.node_ids, h.edge_ids]

/-- Changing nodes, but not where they come from, is a patch. -/
theorem mapNodes (d : Diagram Float32) {f : Id → Node Float32 → Node Float32}
    (hf : ∀ id n, (f id n).origin = n.origin) : IsPatchOf { d with nodes := d.nodes.map f } d where
  node_ids := Catalog.ids_map d.nodes f
  edge_ids := rfl
  nodeOrigin := by
    intro id
    simp only [nodeOrigin?, Catalog.get?_map, Option.map_map]
    congr 1
    exact funext (hf id)
  edgeOrigin := fun _ => rfl

/-- Changing edges, but not where they come from, is a patch. -/
theorem mapEdges (d : Diagram Float32) {f : Id → Edge → Edge}
    (hf : ∀ id e, (f id e).origin = e.origin) : IsPatchOf { d with edges := d.edges.map f } d where
  node_ids := rfl
  edge_ids := Catalog.ids_map d.edges f
  nodeOrigin := fun _ => rfl
  edgeOrigin := by
    intro id
    simp only [edgeOrigin?, Catalog.get?_map, Option.map_map]
    congr 1
    exact funext (hf id)

end IsPatchOf

/-! ### Sound diagrams -/

/-- The edges join nodes, and no id is used twice. -/
structure IsClosed (d : Diagram Float32) : Prop where
  /-- Edges join nodes. -/
  joined : ∀ id e, (id, e) ∈ d.edges.entries → e.source ∈ d.nodes.ids ∧ e.target ∈ d.nodes.ids
  /-- No id is that of a node and of an edge. -/
  apart : ∀ id ∈ d.nodes.ids, id ∉ d.edges.ids

/-- A closed diagram whose routes are current. -/
structure IsSound (d : Diagram Float32) : Prop extends IsClosed d where
  /-- The routes are those that would be drawn anew. -/
  routed : d.routes = TextDiagram.routes d.nodes d.edges

theorem joins_iff {source target : Id} :
    d.joins source target = true ↔ source ∈ d.nodes.ids ∧ target ∈ d.nodes.ids := by
  rw [joins, Bool.and_eq_true, Catalog.contains_iff, Catalog.contains_iff]

theorem mem_ids_iff : id ∈ d.ids ↔ id ∈ d.nodes.ids ∨ id ∈ d.edges.ids := List.mem_append

theorem isSound_empty : IsSound {} where
  joined := fun _ _ h => absurd h List.not_mem_nil
  apart := fun _ h => absurd h List.not_mem_nil
  routed := rfl

/-! ### Edits of what is there -/

namespace IsClosed

theorem isSound_rerouted (h : d.IsClosed) : d.rerouted.IsSound := ⟨⟨h.joined, h.apart⟩, rfl⟩

/-- A patch of a closed diagram is closed, as long as its edges join nodes. -/
theorem of_isPatchOf (h : d.IsClosed) (hpatch : d'.IsPatchOf d)
    (hjoined : ∀ id e, (id, e) ∈ d'.edges.entries →
      e.source ∈ d.nodes.ids ∧ e.target ∈ d.nodes.ids) :
    d'.IsClosed where
  joined := by simpa only [hpatch.node_ids] using hjoined
  apart := by simpa only [hpatch.node_ids, hpatch.edge_ids] using h.apart

/-- Changing nodes and drawing the routes anew makes a closed diagram sound. -/
theorem mapNodes (h : d.IsClosed) {f : Id → Node Float32 → Node Float32}
    (hf : ∀ id n, (f id n).origin = n.origin) :
    (rerouted { d with nodes := d.nodes.map f }).IsSound ∧
      (rerouted { d with nodes := d.nodes.map f }).IsPatchOf d := by
  have hpatch := IsPatchOf.mapNodes d hf
  exact ⟨(h.of_isPatchOf hpatch h.joined).isSound_rerouted, hpatch.rerouted⟩

theorem placed (h : d.IsClosed) (positions : Catalog (Point Float32)) :
    (d.placed positions).IsSound ∧ (d.placed positions).IsPatchOf d := by
  refine h.mapNodes ?_
  intro id n
  obtain ⟨p, hp⟩ := n.exists_placedBy_eq (positions.get? id)
  rw [hp]

theorem inheriting (h : d.IsClosed) (previous : Diagram Float32) :
    (d.inheriting previous).IsSound ∧ (d.inheriting previous).IsPatchOf d := by
  refine h.mapNodes ?_
  intro id n
  cases previous.nodes.get? id <;> rfl

/-- Changing one node and drawing the routes anew makes a closed diagram sound. -/
theorem modifyNode (h : d.IsClosed) (id : Id) {f : Node Float32 → Node Float32}
    (hf : ∀ n, (f n).origin = n.origin) :
    (rerouted { d with nodes := d.nodes.modify id f }).IsSound ∧
      (rerouted { d with nodes := d.nodes.modify id f }).IsPatchOf d := by
  refine h.mapNodes ?_
  intro key n
  split
  · exact hf n
  · rfl

theorem moved (h : d.IsClosed) {position : Point Float32} (hd : d.moved? id position = some d') :
    d'.IsSound ∧ d'.IsPatchOf d := by
  obtain ⟨-, hd⟩ := Option.ite_none_right_eq_some.1 hd
  obtain rfl := Option.some.inj hd
  exact h.modifyNode id fun _ => rfl

theorem measured (h : d.IsClosed) {size : Size Float32} {handles : List (Handle Float32)}
    (hd : d.measured? id size handles = some d') : d'.IsSound ∧ d'.IsPatchOf d := by
  obtain ⟨-, hd⟩ := Option.ite_none_right_eq_some.1 hd
  obtain rfl := Option.some.inj hd
  exact h.modifyNode id fun _ => rfl

theorem reconnected (h : d.IsClosed) {source target : Id}
    (hd : d.reconnected? id source target = some d') : d'.IsSound ∧ d'.IsPatchOf d := by
  obtain ⟨hguard, hd⟩ := Option.ite_none_right_eq_some.1 hd
  obtain rfl := Option.some.inj hd
  obtain ⟨hjoins, -⟩ := Bool.and_eq_true_iff.1 hguard
  have hpatch := IsPatchOf.mapEdges d
    (f := fun key e => if key = id then { e with source, target } else e)
    (fun key e => by split <;> rfl)
  refine ⟨(h.of_isPatchOf hpatch ?_).isSound_rerouted, hpatch.rerouted⟩
  intro key e hmem
  rcases Catalog.mem_entries_modify hmem with hold | ⟨old, -, rfl⟩
  · exact h.joined key e hold
  · exact joins_iff.1 hjoins

end IsClosed

/-! ### Additions -/

namespace IsSound

/-- **Every edge has a route**, in the order of the edges. -/
theorem routes_ids (h : d.IsSound) : d.routes.ids = d.edges.ids := by
  rw [h.routed]
  exact ids_routes h.joined

/-- A new node keeps a diagram sound: no edge ends at it. -/
theorem withNode (h : d.IsSound) (hid : id ∉ d.ids) (n : Node Float32) :
    (d.withNode id n).IsSound := by
  rw [mem_ids_iff, not_or] at hid
  have hids : (d.withNode id n).nodes.ids = d.nodes.ids ++ [id] :=
    Catalog.ids_insert_of_notMem hid.1 n
  refine ⟨⟨?_, ?_⟩, ?_⟩
  · intro key e hmem
    obtain ⟨hsource, htarget⟩ := h.joined key e hmem
    rw [hids]
    exact ⟨List.mem_append_left _ hsource, List.mem_append_left _ htarget⟩
  · intro key hkey
    rw [hids] at hkey
    rcases List.mem_append.1 hkey with hkey | hkey
    · exact h.apart key hkey
    · rw [List.mem_singleton.1 hkey]
      exact hid.2
  · -- the routes are not drawn anew, but no edge ends at the new node
    refine h.routed.trans (routes_insert ?_ n).symm
    intro key e hmem
    obtain ⟨hsource, htarget⟩ := h.joined key e hmem
    exact ⟨fun heq => hid.1 (heq ▸ hsource), fun heq => hid.1 (heq ▸ htarget)⟩

/-- A new edge between nodes keeps a diagram sound. -/
theorem withEdge (h : d.IsSound) (hid : id ∉ d.ids) {e : Edge} (hd : d.withEdge? id e = some d') :
    d'.IsSound := by
  obtain ⟨hjoins, hd⟩ := Option.ite_none_right_eq_some.1 hd
  obtain rfl := Option.some.inj hd
  rw [mem_ids_iff, not_or] at hid
  refine ⟨⟨?_, ?_⟩, rfl⟩
  · intro key f hmem
    simp only [rerouted_edges, Catalog.entries_insert_of_notMem hid.2, List.mem_append,
      List.mem_singleton, Prod.mk.injEq] at hmem
    rcases hmem with hmem | ⟨rfl, rfl⟩
    · exact h.joined key f hmem
    · exact joins_iff.1 hjoins
  · intro key hkey
    simp only [rerouted_edges, Catalog.ids_insert_of_notMem hid.2, List.mem_append,
      List.mem_singleton, not_or]
    refine ⟨h.apart key hkey, ?_⟩
    rintro rfl
    exact hid.1 hkey

end IsSound

/-! ### Extensions -/

namespace IsExtensionOf

theorem refl (d : Diagram Float32) : d.IsExtensionOf d := ⟨fun _ _ => rfl, fun _ _ => rfl⟩

/-- A new node leaves the origins of what is there. -/
theorem withNode (hid : id ∉ d.ids) (n : Node Float32) : (d.withNode id n).IsExtensionOf d where
  node := by
    intro key hkey
    have hne : key ≠ id := by
      rintro rfl
      exact hid (mem_ids_iff.2 (Or.inl hkey))
    rw [nodeOrigin?, Diagram.withNode, Catalog.get?_insert_of_ne _ hne, nodeOrigin?]
  edge := fun _ _ => rfl

/-- A new edge leaves the origins of what is there. -/
theorem withEdge (hid : id ∉ d.ids) {e : Edge} (hd : d.withEdge? id e = some d') :
    d'.IsExtensionOf d := by
  obtain ⟨-, hd⟩ := Option.ite_none_right_eq_some.1 hd
  obtain rfl := Option.some.inj hd
  refine ⟨fun _ _ => rfl, ?_⟩
  intro key hkey
  have hne : key ≠ id := by
    rintro rfl
    exact hid (mem_ids_iff.2 (Or.inr hkey))
  rw [edgeOrigin?, rerouted_edges, Catalog.get?_insert_of_ne _ hne, edgeOrigin?]

end IsExtensionOf

end Diagram

end TextDiagram
