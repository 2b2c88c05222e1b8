/-
**What a picture shows.**

A picture is a tree of elements.  The figures in it, which are what it shows of a diagram, can be
told from the classes of the elements, without knowing how the tree was made: nodes and groups are
elements of one class, paths of another, and labels of edges of a third.  Everything else, such as
the boxes and texts inside a node or the heads of edges, belongs to a figure or shows nothing.

Read in the order in which it is written, the picture of a diagram whose edges all have routes shows
its groups first, then all edges, the other nodes, and the labels of the edges, each exactly once.

Main definitions:

* `TextDiagram.Markup.subtrees` — everything in a tree, in the order in which it is written;
* `TextDiagram.Figure` — what a picture shows of a diagram, with the layer it is in;
* `TextDiagram.Markup.figures` — the figures in a tree, told from the classes of its elements;
* `TextDiagram.Diagram.figures` — the figures that a diagram asks for.

Main results:

* `TextDiagram.Markup.figures_element` — the figures in an element are itself and those in its
  children;
* `TextDiagram.Look.figures_node`, `TextDiagram.Look.figures_edgePath`,
  `TextDiagram.Look.figures_edgeLabel` — every drawing shows one figure;
* `TextDiagram.Look.figures_picture` — **the picture of a diagram shows what the diagram asks for**;
* `TextDiagram.Diagram.pairwise_layer_figures` — the layers follow each other.
-/

import Mathlib.Data.List.Basic
import TextDiagram.Picture.Drawing
import TextDiagram.Proofs.Diagram.Edit

set_option relaxedAutoImplicit false
set_option autoImplicit false

namespace TextDiagram

/-! ### Trees -/

@[simp] theorem Attribute.name_word (name value : String) : (word name value).name = name := rfl

@[simp] theorem Attribute.toText_word (name value : String) :
    (word name value).value.toText = value := rfl

namespace Markup

mutual

/-- Everything in a tree, in the order in which it is written. -/
def subtrees : Markup → List Markup
  | text content => [text content]
  | element name attributes children =>
      element name attributes children :: childrenSubtrees children

/-- Everything in the children of an element. -/
def childrenSubtrees : List Markup → List Markup
  | [] => []
  | child :: rest => subtrees child ++ childrenSubtrees rest

end

theorem childrenSubtrees_eq_flatMap (children : List Markup) :
    childrenSubtrees children = children.flatMap subtrees := by
  induction children with
  | nil => rfl
  | cons child rest ih => rw [childrenSubtrees, ih, List.flatMap_cons]

/-- The content of a text. -/
def text? : Markup → Option String
  | text content => some content
  | element _ _ _ => none

/-- The texts in a tree, one after the other. -/
def content (m : Markup) : String := String.join (m.subtrees.filterMap text?)

/-- The value of an attribute of an element. -/
def attribute? (m : Markup) (name : String) : Option String :=
  match m with
  | element _ attributes _ => (attributes.find? fun a => a.name = name).map fun a => a.value.toText
  | text _ => none

/-- Whether a tree is an element of a name and a class. -/
def isOfClass (m : Markup) (name value : String) : Bool :=
  match m with
  | element own _ _ => own = name && m.attribute? "class" = some value
  | text _ => false

end Markup

/-! ### Figures -/

/-- What a picture shows of a diagram. -/
inductive Figure where
  | group (id : Id)
  | path (id : Id)
  | node (id : Id)
  | label (content : String)
  deriving DecidableEq, Repr

namespace Figure

/-- The layer of a figure, counted from the ground. -/
def layer : Figure → Nat
  | group _ => 0
  | path _ => 1
  | node _ => 2
  | label _ => 3

/-- The node that a figure is, be it a group or not. -/
def node? : Figure → Option Id
  | group id | node id => some id
  | _ => none

/-- The edge that a figure is the path of. -/
def path? : Figure → Option Id
  | path id => some id
  | _ => none

/-- The label that a figure is. -/
def label? : Figure → Option String
  | label content => some content
  | _ => none

/-- Figures that go up layer by layer, and that all lie below a layer. -/
structure AreStacked (l : List Figure) (height : Nat) : Prop where
  /-- No figure comes after one of a higher layer. -/
  ordered : l.Pairwise fun a b => a.layer ≤ b.layer
  /-- The layers are used up. -/
  below : ∀ figure ∈ l, figure.layer < height

/-- A further layer goes on top. -/
theorem AreStacked.append {l l' : List Figure} {height : Nat} (h : AreStacked l height)
    (hl' : ∀ figure ∈ l', figure.layer = height) : AreStacked (l ++ l') (height + 1) where
  ordered := by
    refine List.pairwise_append.2 ⟨h.ordered, List.pairwise_of_forall_mem_list ?_, ?_⟩
    · intro a ha b hb
      exact Nat.le_of_eq ((hl' a ha).trans (hl' b hb).symm)
    · intro a ha b hb
      have hlow := h.below a ha
      have hhigh := hl' b hb
      omega
  below := by
    intro figure hfigure
    rcases List.mem_append.1 hfigure with hfigure | hfigure
    · exact Nat.lt_succ_of_lt (h.below figure hfigure)
    · rw [hl' figure hfigure]
      exact Nat.lt_succ_self height

end Figure

namespace Markup

/-- The figure that a tree is, told from its class. -/
def figure? (m : Markup) : Option Figure :=
  if m.isOfClass "g" "node" then
    let id := (m.attribute? "data-node").getD ""
    some (if m.attribute? "data-kind" = some NodeKind.group.name then .group id else .node id)
  else if m.isOfClass "path" "edge" then some (.path ((m.attribute? "data-edge").getD ""))
  else if m.isOfClass "g" "edge-label" then some (.label m.content)
  else none

/-- The figures in a tree, in the order in which they are written. -/
def figures (m : Markup) : List Figure := m.subtrees.filterMap figure?

variable {name : String} {attributes : List Attribute}

/-- There is no figure in a text. -/
@[simp] theorem figures_text (content : String) : (text content).figures = [] := rfl

/-- The figures in an element are itself, if it is one, and those in its children. -/
theorem figures_element (name : String) (attributes : List Attribute) (children : List Markup) :
    (element name attributes children).figures =
      (element name attributes children).figure?.toList ++ children.flatMap figures := by
  have hchildren : (childrenSubtrees children).filterMap figure? = children.flatMap figures := by
    rw [childrenSubtrees_eq_flatMap, List.filterMap_flatMap]
    rfl
  rw [figures, subtrees, List.filterMap_cons, hchildren]
  cases (element name attributes children).figure? with
  | none => rfl
  | some figure => rfl

/-- An element without a class is no figure itself. -/
theorem figures_element_of_no_class (h : ∀ a ∈ attributes, a.name ≠ "class")
    (children : List Markup) :
    (element name attributes children).figures = children.flatMap figures := by
  have hclass : (element name attributes children).attribute? "class" = none := by
    rw [attribute?, Option.map_eq_none_iff, List.find?_eq_none]
    intro a ha
    simpa using h a ha
  rw [figures_element]
  simp [figure?, isOfClass, hclass]

/-- Only groups of elements and paths can be figures. -/
theorem figures_element_of_name (hg : name ≠ "g") (hpath : name ≠ "path")
    (attributes : List Attribute) (children : List Markup) :
    (element name attributes children).figures = children.flatMap figures := by
  rw [figures_element]
  simp [figure?, isOfClass, hg, hpath]

/-- A box is no figure. -/
@[simp] theorem figures_leaf_rect (attributes : List Attribute) :
    (leaf "rect" attributes).figures = [] :=
  figures_element_of_name (by decide) (by decide) attributes []

/-- An element that holds a text is no figure. -/
@[simp] theorem figures_label (attributes : List Attribute) (content : String) :
    (label attributes content).figures = [] := by
  rw [label, figures_element_of_name (by decide) (by decide), List.flatMap_singleton, figures_text]

end Markup

namespace Diagram

/-- The figure that a node of an id is drawn as. -/
def Node.figure (id : Id) (n : Node Float32) : Figure :=
  if n.isGroup then .group id else .node id

/-- The figures that the groups are drawn as, or the other nodes. -/
def nodeFigures (d : Diagram Float32) (groups : Bool) : List Figure :=
  (d.nodes.entries.filter fun p => p.2.isGroup == groups).map fun p => p.2.figure p.1

/-- The figures that a diagram asks for, layer by layer. -/
def figures (d : Diagram Float32) : List Figure :=
  d.nodeFigures true ++ d.edges.ids.map .path ++ d.nodeFigures false ++
    (d.edges.values.filterMap Edge.label).map .label

end Diagram

/-! ### Drawings -/

namespace Look

open Markup (leaf label)
open Attribute (word length count)

variable (look : Look)

@[simp] theorem figures_shadow (box : Box Float32) : (shadow box).figures = [] :=
  Markup.figures_leaf_rect _

@[simp] theorem figures_nodeBox (box : Box Float32) (palette : Palette) (kind : NodeKind)
    (mode : StyleMode) : (nodeBox box palette kind mode).figures = [] :=
  Markup.figures_leaf_rect _

/-- The texts of a node show nothing but the node. -/
theorem figures_texts (n : Diagram.Node Float32) (family : String) (palette : Palette) :
    (look.texts n family palette).flatMap Markup.figures = [] := by
  unfold texts
  split
  · simp [groupLabel]
  · simp [nodeLabel]
  · simp [caption, nodeLabel]

/-- The drawing of a node shows the node. -/
theorem figures_node (inherited : Appearance) (id : Id) (n : Diagram.Node Float32) :
    (look.node inherited id n).figures = [n.figure id] := by
  have hshadows : ∀ drawn : Bool,
      (if drawn then [shadow n.box] else []).flatMap Markup.figures = [] := by
    intro drawn
    cases drawn with
    | true => simp
    | false => rfl
  rw [node, Markup.figures_element]
  simp only [List.flatMap_append, List.flatMap_singleton, hshadows, figures_nodeBox, figures_texts,
    List.append_nil]
  cases hkind : n.kind with
  | default =>
      simp [Markup.figure?, Markup.isOfClass, Markup.attribute?, Diagram.Node.figure,
        Diagram.Node.isGroup, NodeKind.name, hkind]
  | group =>
      simp [Markup.figure?, Markup.isOfClass, Markup.attribute?, Diagram.Node.figure,
        Diagram.Node.isGroup, NodeKind.name, hkind]

/-- The path of an edge shows the edge. -/
theorem figures_edgePath (id : Id) (e : Diagram.Edge) (route : Route Float32) :
    (look.edgePath id e route).figures = [.path id] := by
  rw [edgePath, leaf, Markup.figures_element]
  simp [Markup.figure?, Markup.isOfClass, Markup.attribute?]

@[simp] theorem figures_plate (center : Point Float32) (size : Size Float32) :
    (plate center size).figures = [] := Markup.figures_leaf_rect _

theorem content_edgeLabel (typeface : Typeface) (content : String) (route : Route Float32) :
    (look.edgeLabel typeface content route).content = content := by
  have htexts : (look.edgeLabel typeface content route).subtrees.filterMap Markup.text? =
      [content] := rfl
  rw [Markup.content, htexts]
  simp [String.join]

/-- The label of an edge shows what it says. -/
theorem figures_edgeLabel (typeface : Typeface) (content : String) (route : Route Float32) :
    (look.edgeLabel typeface content route).figures = [.label content] := by
  have hcontent := look.content_edgeLabel typeface content route
  rw [edgeLabel] at hcontent ⊢
  rw [Markup.figures_element]
  simp [Markup.figure?, Markup.isOfClass, Markup.attribute?, hcontent]

/-- The definition of a head shows nothing. -/
theorem figures_marker (head : Head) (color : Color) : (head.marker color).figures = [] := by
  have houtline : (leaf "path" [word "d" head.outline, word "fill" color.css,
      length "fill-opacity" color.alpha]).figures = [] :=
    Markup.figures_element_of_no_class (by simp [length]) []
  rw [Head.marker, Markup.figures_element_of_name (by decide) (by decide), List.flatMap_singleton,
    houtline]

/-- The definitions of all heads show nothing. -/
theorem figures_definitions (edges : List Diagram.Edge) :
    (look.definitions edges).figures = [] := by
  rw [definitions, Markup.figures_element_of_name (by decide) (by decide), List.flatMap_eq_nil_iff]
  intro m hm
  obtain ⟨head, -, hm⟩ := List.mem_flatMap.1 hm
  obtain ⟨color, -, rfl⟩ := List.mem_map.1 hm
  exact figures_marker head color

/-- The ground of a picture shows nothing. -/
theorem figures_ground : look.ground.flatMap Markup.figures = [] := by
  unfold ground
  split
  · rfl
  · rw [List.flatMap_singleton, Markup.figures_leaf_rect]

/-! ### Layers -/

variable (d : Diagram Float32)

theorem figures_nodes (groups : Bool) :
    (look.nodes d groups).flatMap Markup.figures = d.nodeFigures groups := by
  rw [nodes, List.flatMap_map, Diagram.nodeFigures, List.map_eq_flatMap]
  exact List.flatMap_congr fun p _ => look.figures_node d.appearance p.1 p.2

/-- The route of an edge, where all edges have one. -/
theorem exists_route_of_mem {d : Diagram Float32} (hroutes : d.routes.ids = d.edges.ids) {id : Id}
    {e : Diagram.Edge} (hmem : (id, e) ∈ d.edges.entries) :
    ∃ route, d.routes.get? id = some route := by
  have hid : id ∈ d.edges.ids := List.mem_map_of_mem (f := Prod.fst) hmem
  rw [← hroutes] at hid
  exact Catalog.mem_ids_iff.1 hid

/-- Every edge that has a route is shown by a path. -/
theorem figures_edgePaths (hroutes : d.routes.ids = d.edges.ids) :
    (look.edgePaths d).flatMap Markup.figures = d.edges.ids.map .path := by
  rw [edgePaths, List.filterMap_eq_flatMap_toList, List.flatMap_assoc, Catalog.ids, List.map_map,
    List.map_eq_flatMap]
  refine List.flatMap_congr ?_
  rintro ⟨id, e⟩ hmem
  obtain ⟨route, hroute⟩ := exists_route_of_mem hroutes hmem
  simp [hroute, figures_edgePath]

/-- Every label of an edge that has a route is shown. -/
theorem figures_edgeLabels (hroutes : d.routes.ids = d.edges.ids) :
    (look.edgeLabels d).flatMap Markup.figures =
      (d.edges.values.filterMap Diagram.Edge.label).map .label := by
  rw [edgeLabels, List.filterMap_eq_flatMap_toList, List.flatMap_assoc, Catalog.values,
    List.filterMap_map, List.map_filterMap, List.filterMap_eq_flatMap_toList]
  refine List.flatMap_congr ?_
  rintro ⟨id, e⟩ hmem
  obtain ⟨route, hroute⟩ := exists_route_of_mem hroutes hmem
  cases hlabel : e.label with
  | none => simp [hlabel]
  | some content => simp [hlabel, hroute, figures_edgeLabel]

/-- **The picture of a diagram shows what the diagram asks for**, layer by layer, if every edge has
a route. -/
theorem figures_picture (hroutes : d.routes.ids = d.edges.ids) :
    (look.picture d).figures = d.figures := by
  rw [picture, Markup.figures_element_of_name (by decide) (by decide)]
  simp only [List.flatMap_append, List.flatMap_singleton, figures_ground, figures_definitions,
    List.nil_append]
  rw [Markup.figures_element_of_no_class (by simp), layers]
  simp only [List.flatMap_append, figures_nodes, figures_edgePaths look d hroutes,
    figures_edgeLabels look d hroutes, Diagram.figures]

end Look

/-! ### The figures of a diagram -/

namespace Diagram

open Figure (node? path? label?)

@[simp] theorem Node.node?_figure (id : Id) (n : Node Float32) : (n.figure id).node? = some id := by
  unfold figure
  split <;> rfl

@[simp] theorem Node.path?_figure (id : Id) (n : Node Float32) : (n.figure id).path? = none := by
  unfold figure
  split <;> rfl

@[simp] theorem Node.label?_figure (id : Id) (n : Node Float32) : (n.figure id).label? = none := by
  unfold figure
  split <;> rfl

theorem Node.figure_eq_group_iff {key id : Id} {n : Node Float32} :
    n.figure key = .group id ↔ key = id ∧ n.isGroup = true := by
  unfold figure
  split
  · next hgroup => simp [hgroup]
  · next hgroup => simp [hgroup]

variable (d : Diagram Float32) {id : Id}

/-- What tells nothing of nodes tells nothing of the drawings of nodes. -/
theorem filterMap_nodeFigures_eq_nil {β : Type} {f : Figure → Option β}
    (hf : ∀ id (n : Node Float32), f (n.figure id) = none) (groups : Bool) :
    (d.nodeFigures groups).filterMap f = [] := by
  rw [nodeFigures, List.filterMap_map, List.filterMap_eq_nil_iff]
  intro p _
  exact hf p.1 p.2

/-- The groups and the other nodes are all nodes, each once. -/
theorem perm_node?_figures : (d.figures.filterMap node?).Perm d.nodes.ids := by
  have hnodes : ∀ groups, (d.nodeFigures groups).filterMap node? =
      (d.nodes.entries.filter fun p => p.2.isGroup == groups).map Prod.fst := by
    intro groups
    simp [nodeFigures, List.filterMap_map]
  have hperm := (List.filter_append_perm (fun p : Id × Node Float32 => p.2.isGroup)
    d.nodes.entries).map Prod.fst
  simpa [figures, hnodes, Function.comp_def, node?, Catalog.ids] using hperm

/-- Every edge has a path, in the order of the edges. -/
theorem path?_figures : d.figures.filterMap path? = d.edges.ids := by
  have hnodes := filterMap_nodeFigures_eq_nil d Node.path?_figure
  simp [figures, hnodes, Function.comp_def, path?]

/-- Every edge that has a label has a label drawn, in the order of the edges. -/
theorem label?_figures : d.figures.filterMap label? = d.edges.values.filterMap Edge.label := by
  have hnodes := filterMap_nodeFigures_eq_nil d Node.label?_figure
  simp [figures, hnodes, Function.comp_def, label?]

theorem mem_nodeFigures {groups : Bool} {figure : Figure} : figure ∈ d.nodeFigures groups ↔
    ∃ id n, d.nodes.get? id = some n ∧ n.isGroup = groups ∧ n.figure id = figure := by
  simp [nodeFigures, Catalog.get?_eq_some_iff, and_assoc]

/-- Groups, and only groups, are drawn as groups. -/
theorem group_mem_figures_iff :
    .group id ∈ d.figures ↔ ∃ n, d.nodes.get? id = some n ∧ n.isGroup = true := by
  simp only [figures, List.mem_append, mem_nodeFigures, Node.figure_eq_group_iff]
  constructor
  · rintro (((⟨_, n, hn, -, rfl, hgroup⟩ | hpath) | ⟨_, n, hn, -, rfl, hgroup⟩) | hlabel)
    · exact ⟨n, hn, hgroup⟩
    · simp at hpath
    · exact ⟨n, hn, hgroup⟩
    · simp at hlabel
  · rintro ⟨n, hn, hgroup⟩
    exact Or.inl (Or.inl (Or.inl ⟨id, n, hn, hgroup, rfl, hgroup⟩))

/-- **The layers follow each other.** -/
theorem pairwise_layer_figures : d.figures.Pairwise fun a b => a.layer ≤ b.layer := by
  have hnodes : ∀ groups, ∀ figure ∈ d.nodeFigures groups,
      figure.layer = if groups then 0 else 2 := by
    intro groups figure hfigure
    obtain ⟨id, n, -, hgroups, rfl⟩ := d.mem_nodeFigures.1 hfigure
    rw [Node.figure, hgroups]
    cases groups with
    | true => rfl
    | false => rfl
  have hpaths : ∀ figure ∈ d.edges.ids.map Figure.path, figure.layer = 1 := by
    intro figure hfigure
    obtain ⟨id, -, rfl⟩ := List.mem_map.1 hfigure
    rfl
  have hlabels : ∀ figure ∈ (d.edges.values.filterMap Edge.label).map Figure.label,
      figure.layer = 3 := by
    intro figure hfigure
    obtain ⟨content, -, rfl⟩ := List.mem_map.1 hfigure
    rfl
  have hbottom : Figure.AreStacked [] 0 := ⟨List.Pairwise.nil, fun _ h => absurd h List.not_mem_nil⟩
  have hgroups : Figure.AreStacked (d.nodeFigures true) 1 := hbottom.append (hnodes true)
  exact (((hgroups.append hpaths).append (hnodes false)).append hlabels).ordered

end Diagram

end TextDiagram
