/-
**Drawing diagrams.**

The groups are drawn first, then the paths of the edges, the other nodes, and the labels of the
edges, so that no label is covered by a path and no node by its group.  The picture shows everything
in the diagram with a margin around it.

Main definitions:

* `TextDiagram.Look.layers` — the drawings of everything in a diagram, in order;
* `TextDiagram.Look.picture` — the picture of a diagram;
* `TextDiagram.Diagram.svg` — the text of the picture in a style.
-/

import TextDiagram.Picture.Edge

set_option relaxedAutoImplicit false
set_option autoImplicit false

namespace TextDiagram

open Markup (leaf)
open Attribute (word length)

namespace Look

/-- The space around a diagram. -/
def margin : Float32 := 50

/-! ### Layers -/

/-- The drawings of the nodes that are groups, or that are not. -/
def nodes (look : Look) (d : Diagram Float32) (groups : Bool) : List Markup :=
  (d.nodes.entries.filter fun (_, n) => n.isGroup == groups).map fun (id, n) =>
    look.node d.appearance id n

/-- The paths of the edges that have a route. -/
def edgePaths (look : Look) (d : Diagram Float32) : List Markup :=
  d.edges.entries.filterMap fun (id, e) =>
    (d.routes.get? id).map fun route => look.edgePath id e route

/-- The labels of the edges that have a label and a route. -/
def edgeLabels (look : Look) (d : Diagram Float32) : List Markup :=
  d.edges.entries.filterMap fun (id, e) => do
    return look.edgeLabel d.appearance.typeface (← e.label) (← d.routes.get? id)

/-- The drawings of everything in a diagram, in order. -/
def layers (look : Look) (d : Diagram Float32) : List Markup :=
  look.nodes d true ++ look.edgePaths d ++ look.nodes d false ++ look.edgeLabels d

/-! ### Pictures -/

/-- The size of a picture that shows a box with the margin around it. -/
def pictureSize (box : Box Float32) : Size Float32 :=
  ⟨margin * 2 + box.width, margin * 2 + box.height⟩

/-- The ground of a picture. -/
def ground (look : Look) : List Markup :=
  match look.background with
  | none => []
  | some color =>
      [leaf "rect" [word "width" "100%", word "height" "100%", word "fill" color.css,
        length "fill-opacity" color.alpha]]

/-- The text of two numbers in a row. -/
def pair (separator : String) (x y : Float32) : String :=
  Number.text x ++ separator ++ Number.text y

/-- The picture of a diagram. -/
def picture (look : Look) (d : Diagram Float32) : Markup :=
  let box := d.bounds
  let size := pictureSize box
  let shift := "translate(" ++ pair ", " (margin - box.minX) (margin - box.minY) ++ ")"
  .element "svg"
    [word "xmlns" "http://www.w3.org/2000/svg",
      word "viewBox" ("0 0 " ++ pair " " size.width size.height),
      length "width" size.width, length "height" size.height]
    (look.ground ++ [look.definitions d.edges.values] ++
      [.element "g" [word "transform" shift] (look.layers d)])

end Look

/-- The text of the picture of a diagram in a style. -/
def Diagram.svg (style : Style) (d : Diagram Float32) : Except StyleFlaw String :=
  match Look.ofStyle style with
  | .error flaw => .error flaw
  | .ok look => .ok (look.picture d).print

end TextDiagram
