/-
**Nothing is lost or doubled from a text to its picture.**

On the way from a text to its picture, nodes and edges are kept under their ids three times, and an
edge is drawn only if it has a route.  Nothing gets lost on this way.  The ids of a document are
distinct, so no node or edge takes the place of another one; the edges join nodes, so every edge has
a route; and placing the nodes neither adds nor takes away anything.

So what is drawn can be told from the statements of the text alone: a node for every name that is
mentioned, a path for every edge statement, and a label for every edge statement that has one.

Main definitions:

* `TextDiagram.edgeStatements` — the edge statements of a text with their lines;
* `TextDiagram.DeclaresGroup` — statements declare a name as a group;
* `TextDiagram.DrawsOnce` — figures are those of statements, each once and layer by layer.

Main results:

* `TextDiagram.Document.IsDescribedBy.exists_group_iff` — which nodes are groups;
* `TextDiagram.Diagram.drawsOnce_figures` — **a document on the plane has what is stated**;
* `TextDiagram.Configuration.exists_picture_drawsOnce` — **nothing is lost or doubled** from a text
  to its picture.
-/

import TextDiagram.Compilation
import TextDiagram.Proofs.Diagram.Document
import TextDiagram.Proofs.Document.Description
import TextDiagram.Proofs.Picture.Figures
import TextDiagram.Proofs.Session.Compilation

set_option relaxedAutoImplicit false
set_option autoImplicit false

namespace TextDiagram

/-! ### What statements ask to be drawn -/

/-- The edge statements among statements, with their lines. -/
def edgeStatements (given : List (Nat × Statement)) : List (Nat × EdgeStatement) :=
  given.filterMap fun p =>
    match p.2 with
    | .edge e => some (p.1, e)
    | _ => none

/-- Statements declare a name as a group, and do not mention it before. -/
def DeclaresGroup (given : List (Nat × Statement)) (id : Id) : Prop :=
  ∃ before line n, before ++ [(line, .node n)] <+: given ∧ n.name = id ∧
    id ∉ mentionedNames before ∧ n.isGroup = true

/-- The id of the edge of a line, over the names of the text. -/
def statedId (names : List Id) (p : Nat × EdgeStatement) : Id :=
  Id.primedUntilFree names (Id.edge p.2.source p.2.target p.1)

/-- Figures are those that statements ask for, each once and layer by layer. -/
structure DrawsOnce (given : List (Nat × Statement)) (figures : List Figure) : Prop where
  /-- Every name that is mentioned has one node. -/
  nodes : (figures.filterMap Figure.node?).Perm (mentionedNames given).eraseDups
  /-- The groups are the names that are declared as groups. -/
  groups : ∀ id, .group id ∈ figures ↔ DeclaresGroup given id
  /-- Every edge statement has one path. -/
  paths : figures.filterMap Figure.path? =
    (edgeStatements given).map (statedId (mentionedNames given))
  /-- No two edge statements share a path. -/
  paths_distinct : (figures.filterMap Figure.path?).Nodup
  /-- Every edge statement that has a label has it drawn once. -/
  labels : figures.filterMap Figure.label? = (edgeStatements given).filterMap fun p => p.2.label
  /-- The groups come first, then the paths, the other nodes, and the labels. -/
  layered : figures.Pairwise fun a b => a.layer ≤ b.layer

namespace Document

variable {names : List Id} {given : List (Nat × Statement)} {document : Document}

namespace IsDescribedBy

/-- The groups are the names that are declared as groups. -/
theorem exists_group_iff (h : document.IsDescribedBy names given) {id : Id} :
    (∃ n ∈ document.nodes, n.id = id ∧ n.isGroup = true) ↔ DeclaresGroup given id := by
  constructor
  · rintro ⟨n, hn, rfl, hgroup⟩
    obtain ⟨before, ⟨line, statement⟩, hbefore, hmem, hnew, heq⟩ := h.nodes n hn
    cases statement with
    | directive x => exact absurd hmem List.not_mem_nil
    | edge e =>
        rw [heq] at hgroup
        cases hgroup
    | node declared =>
        rw [heq] at hgroup
        exact ⟨before, line, declared, hbefore, (List.mem_singleton.1 hmem).symm, hnew, hgroup⟩
  · rintro ⟨before, line, declared, hbefore, rfl, hnew, hgroup⟩
    have hstated : (line, .node declared) ∈ given := hbefore.subset (by simp)
    have hmentioned : declared.name ∈ mentionedNames given :=
      mem_mentionedNames hstated List.mem_cons_self
    obtain ⟨n, hn, hid⟩ := List.mem_map.1 (h.ids ▸ List.mem_eraseDups.2 hmentioned)
    refine ⟨n, hn, hid, ?_⟩
    -- the declaration is a first mention, so it is the one that made the node
    obtain ⟨before', p, hbefore', hmem, hnew', heq⟩ := h.nodes n hn
    rw [hid] at hmem hnew' heq
    obtain ⟨rfl, rfl⟩ := eq_of_first_mention hbefore' hbefore hmem List.mem_cons_self hnew' hnew
    rw [heq]
    exact hgroup

/-- What can be told from the edges can be told from the edge statements. -/
theorem filterMap_edges (h : document.IsDescribedBy names given) {β : Type} {f : Edge → Option β}
    {g : Nat × EdgeStatement → Option β}
    (hfg : ∀ line e, (statedEdge? names (line, .edge e)).bind f = g (line, e)) :
    document.edges.filterMap f = (edgeStatements given).filterMap g := by
  rw [h.edges, edgeStatements, List.filterMap_filterMap, List.filterMap_filterMap]
  refine List.filterMap_congr ?_
  rintro ⟨line, statement⟩ _
  cases statement with
  | directive x => rfl
  | edge e => exact hfg line e
  | node n => rfl

/-- The ids of the edges are those of the edge statements. -/
theorem edge_ids (h : document.IsDescribedBy names given) :
    document.edges.map Edge.id = (edgeStatements given).map (statedId names) := by
  rw [← List.filterMap_eq_map, ← List.filterMap_eq_map]
  exact h.filterMap_edges fun _ _ => rfl

/-- The labels of the edges are those of the edge statements. -/
theorem edge_labels (h : document.IsDescribedBy names given) :
    document.edges.filterMap Edge.label = (edgeStatements given).filterMap fun p => p.2.label :=
  h.filterMap_edges fun _ _ => rfl

end IsDescribedBy

end Document

/-! ### Documents on the plane -/

namespace Diagram

variable {names : List Id} {document : Document} {style : Style}

@[simp] theorem Node.isGroup_placedBy (n : Node Float32) (position : Option (Point Float32)) :
    (n.placedBy position).isGroup = n.isGroup := by
  obtain ⟨p, hp⟩ := n.exists_placedBy_eq position
  rw [hp]
  rfl

@[simp] theorem Node.isGroup_ofDocument (style : Style) (inherited : Appearance)
    (n : Document.Node) : (Node.ofDocument style inherited n).isGroup = n.isGroup := by
  cases hgroup : n.isGroup with
  | true => simp [ofDocument, isGroup, hgroup]
  | false => simp [ofDocument, isGroup, hgroup]

/-- The groups of a document are groups wherever they are placed. -/
theorem exists_group_placed_iff (h : document.IsSound names) (positions : Catalog (Point Float32))
    {id : Id} :
    (∃ n, ((ofDocument style document).placed positions).nodes.get? id = some n ∧
      n.isGroup = true) ↔ ∃ n ∈ document.nodes, n.id = id ∧ n.isGroup = true := by
  simp only [placed, rerouted_nodes, Catalog.get?_map, Option.map_eq_some_iff,
    get?_nodes_ofDocument_iff style h]
  constructor
  · rintro ⟨_, ⟨_, ⟨m, hm, hid, rfl⟩, rfl⟩, hgroup⟩
    exact ⟨m, hm, hid, by simpa using hgroup⟩
  · rintro ⟨m, hm, hid, hgroup⟩
    exact ⟨_, ⟨_, ⟨m, hm, hid, rfl⟩, rfl⟩, by simpa using hgroup⟩

/-- **A document on the plane has what is stated**, each once. -/
theorem drawsOnce_figures {given : List (Nat × Statement)} (h : document.IsSound names)
    (hdescribed : document.IsDescribedBy (mentionedNames given) given)
    (positions : Catalog (Point Float32)) :
    DrawsOnce given ((ofDocument style document).placed positions).figures where
  nodes := by
    rw [← hdescribed.ids, ← ids_nodes_ofDocument style h,
      ← placed_nodes_ids (ofDocument style document) positions]
    exact perm_node?_figures _
  groups := by
    intro id
    rw [group_mem_figures_iff, exists_group_placed_iff h, hdescribed.exists_group_iff]
  paths := by
    rw [path?_figures, placed_edges, ids_edges_ofDocument style h, hdescribed.edge_ids]
  paths_distinct := by
    rw [path?_figures]
    exact Catalog.nodup_ids _
  labels := by
    rw [label?_figures, placed_edges, Catalog.values, entries_edges_ofDocument style h,
      List.map_map, List.filterMap_map, ← hdescribed.edge_labels]
    rfl
  layered := pairwise_layer_figures _

end Diagram

/-! ### From a text to its picture -/

namespace Configuration

variable {c : Configuration} {text : String}

theorem ofText_of_read {document : Document} (h : Configuration.read text = .ok document) :
    Document.ofText text = .ok document := by
  rw [Configuration.read] at h
  split at h
  · next hdocument => rw [hdocument, Except.ok.inj h]
  · cases h

theorem exists_look_of_draw {d : Diagram Float32} {svg : String} (h : c.draw d = .ok svg) :
    ∃ look, Look.ofStyle c.style = .ok look ∧ svg = (look.picture d).print := by
  unfold draw Diagram.svg at h
  cases hlook : Look.ofStyle c.style with
  | error flaw =>
      rw [hlook] at h
      cases h
  | ok look =>
      rw [hlook] at h
      exact ⟨look, rfl, (Except.ok.inj h).symm⟩

/-- **Nothing is lost or doubled from a text to its picture**, whatever the settings are, and
wherever the layout service puts the nodes.  The picture shows one node for every name that a
statement mentions, one path for every edge statement, and one label for every edge statement that
has a label; and the groups come before the paths, the paths before the other nodes, and these
before the labels. -/
theorem exists_picture_drawsOnce {service : LayoutService} {document : Document}
    {d : Diagram Float32} {svg : String} (hread : Configuration.read text = .ok document)
    (hd : c.layOut? service document = some (.ok d)) (hsvg : c.draw d = .ok svg) :
    ∃ look, Look.ofStyle c.style = .ok look ∧ svg = (look.picture d).print ∧
      DrawsOnce (statements text) (look.picture d).figures := by
  have hdocument := ofText_of_read hread
  have hsound := Document.isSound_of_ofText hdocument
  obtain ⟨look, hlook, rfl⟩ := exists_look_of_draw hsvg
  obtain ⟨positions, -, -, rfl⟩ := layOut?_eq_some hd
  have hroutes := ((Diagram.isClosed_ofDocument c.style hsound).placed positions).1.routes_ids
  refine ⟨look, hlook, rfl, ?_⟩
  rw [look.figures_picture _ hroutes]
  exact Diagram.drawsOnce_figures hsound (Document.isDescribedBy_of_ofText hdocument) positions

theorem eq_ok_of_toOption {ε β : Type} {result : Except ε β} {b : β}
    (h : result.toOption = some b) : result = .ok b := by
  cases result with
  | error flaw => cases h
  | ok value => exact congrArg Except.ok (Option.some.inj h)

/-- What a given text is laid out as can be told by laying it out. -/
theorem exists_layOut?_of_any (c : Configuration) (service : LayoutService) (text : String)
    (p : Document → Diagram Float32 → Prop) [∀ document d, Decidable (p document d)]
    (h : (Configuration.read text).toOption.any (fun document =>
      (c.layOut? service document).any fun result => result.toOption.any (p document)) = true) :
    ∃ document d, Configuration.read text = .ok document ∧
      c.layOut? service document = some (.ok d) ∧ p document d := by
  obtain ⟨document, hread, h⟩ := (Option.any_eq_true _ _).1 h
  obtain ⟨result, hd, h⟩ := (Option.any_eq_true _ _).1 h
  obtain ⟨d, hresult, h⟩ := (Option.any_eq_true _ _).1 h
  obtain rfl := eq_ok_of_toOption hresult
  exact ⟨document, d, eq_ok_of_toOption hread, hd, of_decide_eq_true h⟩

/-- A group is declared with a node in it, two nodes are joined in both directions, an arrow has a
label, and a name is declared that an arrow has mentioned before. -/
theorem exists_picture_drawsOnce_of_group :
    let c : Configuration := {}
    let service : LayoutService := fun _ => .error .empty
    let text := "G [type: group]\nA [parent: G]\nA > B: says\nB > A\nB [icon: x]"
    ∃ document d svg, ∃ look : Look, Configuration.read text = .ok document ∧
      c.layOut? service document = some (.ok d) ∧ c.draw d = .ok svg ∧
      svg = (look.picture d).print ∧
      ((look.picture d).figures.filterMap Figure.node?).Perm ["G", "A", "B"] ∧
      (look.picture d).figures.filterMap Figure.path? = ["edge_A_B_2", "edge_B_A_3"] ∧
      (look.picture d).figures.filterMap Figure.label? = ["says"] := by
  intro c service text
  obtain ⟨document, d, hread, hd, hdrawn⟩ := exists_layOut?_of_any c service text
    (fun _ d => (c.draw d).toOption.isSome) (by decide +kernel)
  have hnames : (mentionedNames (statements text)).eraseDups = ["G", "A", "B"] := by
    decide +kernel
  have hedges : (edgeStatements (statements text)).map
      (statedId (mentionedNames (statements text))) = ["edge_A_B_2", "edge_B_A_3"] := by
    decide +kernel
  have hlabels : ((edgeStatements (statements text)).filterMap fun p => p.2.label) = ["says"] := by
    decide +kernel
  obtain ⟨svg, hsvg⟩ := Option.isSome_iff_exists.1 hdrawn
  have hsvg := eq_ok_of_toOption hsvg
  obtain ⟨look, -, hprint, hdraws⟩ := exists_picture_drawsOnce hread hd hsvg
  exact ⟨document, d, svg, look, hread, hd, hsvg, hprint, hnames ▸ hdraws.nodes,
    hdraws.paths.trans hedges, hdraws.labels.trans hlabels⟩

end Configuration

end TextDiagram
