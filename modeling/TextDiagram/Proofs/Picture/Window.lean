/-
**What a viewer shows of a picture.**

A picture has a view box, which starts at the origin and has a size, and one group of drawings that
is moved by a vector.  A rectangle in this group is seen as a whole if it lies in the view box after
it was moved.  The rectangles in the picture of a diagram are those of its nodes and the plates under
the labels of its edges.

Main definitions:

* `TextDiagram.Markup.rectangles` — the rectangles in a tree, told from the names of its elements;
* `TextDiagram.Frame`, `TextDiagram.Markup.frame?` — where a rectangle is drawn;
* `TextDiagram.Window` — a view box, and how far the drawings are moved;
* `TextDiagram.Window.Holds` — a rectangle that is seen as a whole;
* `TextDiagram.Diagram.window` — the window around a diagram.

Main results:

* `TextDiagram.Look.shows_picture` — a picture shows the window around its diagram;
* `TextDiagram.Look.mem_rectangles_layers_iff` — **the rectangles in a picture**.
-/

import TextDiagram.Proofs.Picture.Heads

set_option relaxedAutoImplicit false
set_option autoImplicit false

namespace TextDiagram

open Number (value)

/-! ### Rectangles -/

/-- Where a rectangle is drawn. -/
structure Frame where
  corner : Point Float32
  size : Size Float32
  deriving DecidableEq, Repr

namespace Markup

/-- The rectangles in a tree, in the order in which they are written. -/
def rectangles (m : Markup) : List Markup := m.subtrees.filter (isElement "rect")

/-- The number that an attribute of an element is. -/
def number? (m : Markup) (name : String) : Option Float32 :=
  match m with
  | element _ attributes _ =>
      (attributes.find? fun a => a.name = name).bind fun a =>
        match a.value with
        | .number x => some x
        | _ => none
  | text _ => none

/-- Where a rectangle is drawn, if its place and its size are numbers. -/
def frame? (m : Markup) : Option Frame := do
  return ⟨⟨← m.number? "x", ← m.number? "y"⟩, ⟨← m.number? "width", ← m.number? "height"⟩⟩

theorem rectangles_element {name : String} (h : name ≠ "rect") (attributes : List Attribute)
    (children : List Markup) :
    (element name attributes children).rectangles = children.flatMap rectangles := by
  rw [rectangles, filter_subtrees_element]
  simp only [isElement, decide_eq_false h, Bool.false_eq_true, if_false, List.nil_append]
  rfl

@[simp] theorem rectangles_leaf (attributes : List Attribute) :
    (leaf "rect" attributes).rectangles = [leaf "rect" attributes] := rfl

@[simp] theorem rectangles_label (attributes : List Attribute) (content : String) :
    (label attributes content).rectangles = [] := rfl

end Markup

/-! ### Windows -/

/-- A stretch of a line that is moved lies between zero and an end. -/
def Lies (start extent shift finish : Float32) : Prop :=
  0 ≤ value start + value shift ∧ value start + value extent + value shift ≤ value finish

/-- A view box of a size that starts at the origin, and how far the drawings are moved. -/
structure Window where
  size : Size Float32
  shift : Point Float32
  deriving DecidableEq, Repr

namespace Window

/-- A rectangle lies between the left and the right end of a window. -/
def HoldsAcross (w : Window) (f : Frame) : Prop :=
  Lies f.corner.x f.size.width w.shift.x w.size.width

/-- A rectangle lies between the top and the bottom of a window. -/
def HoldsAlong (w : Window) (f : Frame) : Prop :=
  Lies f.corner.y f.size.height w.shift.y w.size.height

/-- A rectangle is seen as a whole. -/
def Holds (w : Window) (f : Frame) : Prop := w.HoldsAcross f ∧ w.HoldsAlong f

/-- The window that shows a box with the margin around it. -/
def around (b : Box Float32) : Window :=
  ⟨Look.pictureSize b, ⟨Look.margin - b.minX, Look.margin - b.minY⟩⟩

/-- A picture has the view box of a window, and its drawings are moved as the window says. -/
structure Shows (w : Window) (m : Markup) (drawings : List Markup) : Prop where
  viewBox : m.attribute? "viewBox" = some ("0 0 " ++ Look.pair " " w.size.width w.size.height)
  moved : m.children.getLast? = some (.element "g" [.word "transform"
    ("translate(" ++ Look.pair ", " w.shift.x w.shift.y ++ ")")] drawings)

end Window

/-- The window around a diagram. -/
def Diagram.window (d : Diagram Float32) : Window := .around d.bounds

/-- An edge has a label, which is drawn at a point. -/
def Diagram.HasLabelAt (d : Diagram Float32) (label : String) (center : Point Float32) : Prop :=
  ∃ id e route, d.edges.get? id = some e ∧ e.label = some label ∧
    d.routes.get? id = some route ∧ route.labelAt = center

/-! ### Pictures -/

namespace Look

open Markup (leaf label)

variable (look : Look) (d : Diagram Float32)

/-- A picture shows the window around its diagram. -/
theorem shows_picture : d.window.Shows (look.picture d) (look.layers d) where
  viewBox := rfl
  moved := List.getLast?_concat

theorem rectangles_texts (n : Diagram.Node Float32) (family : String) (palette : Palette) :
    (look.texts n family palette).flatMap Markup.rectangles = [] := by
  unfold texts
  split
  · rfl
  · rfl
  · rfl

/-- The rectangles of a node are its box and, before it, its shadow if it has one. -/
theorem rectangles_node (inherited : Appearance) (id : Id) (n : Diagram.Node Float32) :
    ∃ (shadows : List Markup) (filled : Markup),
      (look.node inherited id n).rectangles = shadows ++ [filled] ∧
        (∀ r ∈ shadows, r.frame? = some ⟨⟨n.box.minX + 4, n.box.minY + 4⟩, n.box.size⟩) ∧
        filled.frame? = some ⟨⟨n.box.minX, n.box.minY⟩, n.box.size⟩ := by
  have hshadows : ∀ drawn : Bool,
      (if drawn then [shadow n.box] else []).flatMap Markup.rectangles =
        if drawn then [shadow n.box] else [] := by
    intro drawn
    cases drawn with
    | true => rfl
    | false => rfl
  rw [node, Markup.rectangles_element (by decide), List.flatMap_append, List.flatMap_append,
    hshadows, rectangles_texts, List.append_nil]
  refine ⟨_, _, rfl, ?_, rfl⟩
  intro r hr
  split at hr
  · rw [List.mem_singleton.1 hr]
    rfl
  · exact absurd hr List.not_mem_nil

theorem rectangles_edgePath (id : Id) (e : Diagram.Edge) (route : Route Float32) :
    (look.edgePath id e route).rectangles = [] := by
  rw [edgePath, leaf, Markup.rectangles_element (by decide), List.flatMap_nil]

theorem rectangles_edgeLabel (typeface : Typeface) (content : String) (route : Route Float32) :
    (look.edgeLabel typeface content route).rectangles =
      [plate route.labelAt (labelSize look.style content typeface)] := rfl

theorem mem_rectangles_nodes_iff (groups : Bool) {r : Markup} :
    r ∈ (look.nodes d groups).flatMap Markup.rectangles ↔
      ∃ id n, d.nodes.get? id = some n ∧ n.isGroup = groups ∧
        r ∈ (look.node d.appearance id n).rectangles := by
  simp only [nodes, List.flatMap_map, List.mem_flatMap, List.mem_filter, Prod.exists, beq_iff_eq,
    Catalog.get?_eq_some_iff, and_assoc]

theorem mem_rectangles_edgeLabels_iff {r : Markup} :
    r ∈ (look.edgeLabels d).flatMap Markup.rectangles ↔
      ∃ label center, d.HasLabelAt label center ∧
        r = plate center (labelSize look.style label d.appearance.typeface) := by
  rw [List.mem_flatMap]
  constructor
  · rintro ⟨m, hm, hr⟩
    obtain ⟨⟨id, e⟩, hmem, hm⟩ := List.mem_filterMap.1 hm
    obtain ⟨label, hlabel, hm⟩ := Option.bind_eq_some_iff.1 hm
    obtain ⟨route, hroute, hm⟩ := Option.bind_eq_some_iff.1 hm
    obtain rfl := Option.some.inj hm
    rw [rectangles_edgeLabel, List.mem_singleton] at hr
    exact ⟨label, route.labelAt,
      ⟨id, e, route, Catalog.get?_eq_some_iff.2 hmem, hlabel, hroute, rfl⟩, hr⟩
  · rintro ⟨label, center, ⟨id, e, route, he, hlabel, hroute, rfl⟩, rfl⟩
    refine ⟨look.edgeLabel d.appearance.typeface label route, List.mem_filterMap.2 ?_, ?_⟩
    · refine ⟨(id, e), Catalog.get?_eq_some_iff.1 he, ?_⟩
      simp only [hlabel, hroute]
      rfl
    · rw [rectangles_edgeLabel]
      exact List.mem_singleton_self _

/-- **The rectangles in a picture** are those of the nodes and the plates under the labels of the
edges. -/
theorem mem_rectangles_layers_iff {r : Markup} :
    r ∈ (look.layers d).flatMap Markup.rectangles ↔
      (∃ id n, d.nodes.get? id = some n ∧ r ∈ (look.node d.appearance id n).rectangles) ∨
        ∃ label center, d.HasLabelAt label center ∧
          r = plate center (labelSize look.style label d.appearance.typeface) := by
  have hpaths : (look.edgePaths d).flatMap Markup.rectangles = [] :=
    (look.flatMap_edgePaths_congr (g := fun _ => []) d look.rectangles_edgePath).trans
      (List.flatMap_eq_nil_iff.2 fun _ _ => rfl)
  rw [layers, List.flatMap_append, List.flatMap_append, List.flatMap_append, hpaths,
    List.append_nil, List.mem_append, List.mem_append, mem_rectangles_nodes_iff,
    mem_rectangles_nodes_iff, mem_rectangles_edgeLabels_iff]
  refine or_congr_left ?_
  constructor
  · rintro (⟨id, n, hn, -, hr⟩ | ⟨id, n, hn, -, hr⟩)
    · exact ⟨id, n, hn, hr⟩
    · exact ⟨id, n, hn, hr⟩
  · rintro ⟨id, n, hn, hr⟩
    cases hgroup : n.isGroup with
    | true => exact .inl ⟨id, n, hn, hgroup, hr⟩
    | false => exact .inr ⟨id, n, hn, hgroup, hr⟩

end Look

end TextDiagram
