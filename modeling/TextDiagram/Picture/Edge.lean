/-
**Drawing edges.**

An edge is a path along its route, with heads where its kind has them.  A head is defined once for
each color and referred to by an id made from the color.  A label lies on a plate in the middle of
its edge.

Main definitions:

* `TextDiagram.Head` — the two heads an edge can have;
* `TextDiagram.Look.definitions` — the heads of all edges, once for each color;
* `TextDiagram.Look.edgePath` — the path of an edge;
* `TextDiagram.Look.edgeLabel` — the label of an edge.
-/

import TextDiagram.Diagram.Measure
import TextDiagram.Picture.Node

set_option relaxedAutoImplicit false
set_option autoImplicit false

namespace TextDiagram

open Markup (leaf)
open Attribute (word length count)

/-! ### Heads -/

/-- The heads of an edge, named for the way they point along the edge. -/
inductive Head where
  | left
  | right
  deriving DecidableEq, Repr

namespace Head

/-- The id of a head of a color. -/
def id (head : Head) (color : Color) : String :=
  match head with
  | left => s!"arrow-left-{color.idSafe}"
  | right => s!"arrow-right-{color.idSafe}"

/-- The distance of the tip of a head from its left end. -/
def tip : Head → Nat
  | left => 1
  | right => 9

/-- The outline of a head. -/
def outline : Head → String
  | left => "M 10 0 L 0 5 L 10 10 z"
  | right => "M 0 0 L 10 5 L 0 10 z"

/-- Whether an edge of a kind has a head. -/
def isOn (kind : EdgeKind) : Head → Bool
  | left => kind.hasStartMarker
  | right => kind.hasEndMarker

/-- The definition of a head of a color. -/
def marker (head : Head) (color : Color) : Markup :=
  .element "marker"
    [word "id" (head.id color), word "viewBox" "0 0 10 10", count "refX" head.tip, count "refY" 5,
      count "markerWidth" 6, count "markerHeight" 6, word "orient" "auto"]
    [leaf "path" [word "d" head.outline, word "fill" color.css, length "fill-opacity" color.alpha]]

end Head

namespace Look

/-! ### Colors -/

/-- The color of an edge. -/
def colorOf (look : Look) (e : Diagram.Edge) : Color := Color.resolve e.color look.edge

/-- The colors of the edges with a given head, in order and each once. -/
def headColors (look : Look) (edges : List Diagram.Edge) (head : Head) : List Color :=
  Color.distinct ((edges.filter fun e => head.isOn e.kind).map look.colorOf)

/-- The heads of all edges, once for each color. -/
def definitions (look : Look) (edges : List Diagram.Edge) : Markup :=
  .element "defs" []
    ([Head.left, Head.right].flatMap fun head =>
      (look.headColors edges head).map (Head.marker head))

/-! ### Paths -/

/-- The attribute of a path that refers to a head. -/
def headReference (color : Color) (kind : EdgeKind) (head : Head) : List Attribute :=
  let place := match head with
    | .left => "marker-start"
    | .right => "marker-end"
  if head.isOn kind then [word place s!"url(#{head.id color})"] else []

/-- The path of an edge. -/
def edgePath (look : Look) (id : Id) (e : Diagram.Edge) (route : Route Float32) : Markup :=
  let color := look.colorOf e
  let dashes : List Attribute := if e.kind.isDashed then [word "stroke-dasharray" "5,5"] else []
  leaf "path"
    ([word "class" "edge", word "data-edge" id, word "d" route.curve.pathData, word "fill" "none",
      word "stroke" color.css, length "stroke-opacity" color.alpha,
      word "stroke-width" "1.5"] ++ dashes ++
      headReference color e.kind .left ++ headReference color e.kind .right)

/-! ### Labels -/

/-- The plate under a label of a given size: the label and a padding around it. -/
def plate (center : Point Float32) (size : Size Float32) : Markup :=
  leaf "rect"
    (frame ⟨center.x - size.width / 2 - 5, center.y - size.height / 2 - 5⟩
        ⟨size.width + 10, size.height + 10⟩ ++
      [word "fill" "white", word "fill-opacity" "0.8", word "rx" "3"])

/-- The label of an edge. -/
def edgeLabel (look : Look) (typeface : Typeface) (content : String) (route : Route Float32) :
    Markup :=
  .element "g" [word "class" "edge-label"]
    [plate route.labelAt (labelSize look.style content typeface),
      .label (centered route.labelAt ++
        [word "font-family" (look.fontFamily typeface), look.fontSize]) content]

end Look

end TextDiagram
