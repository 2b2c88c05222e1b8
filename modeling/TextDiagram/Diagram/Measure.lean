/-
**The sizes of labels and nodes.**

A label is as large as the fonts of the machine make it, in the font size of the style and in the
typeface that it is drawn in.  Where there are no fonts, its size is estimated by counting
characters: every character takes the same share of the font size, and every line the same height.
A node is its label with a padding around it, but never smaller than the least size; a group has a
fixed size.

Main definitions:

* `TextDiagram.shapedSize`, `TextDiagram.estimatedSize` — the size of a label with and without fonts;
* `TextDiagram.labelSize` — the size of a label;
* `TextDiagram.nodeSize` — the size of the box around a label;
* `TextDiagram.Diagram.ofDocument` — the diagram of a document, with measured nodes that have no
  places yet.

Main results:

* `TextDiagram.labelSize_empty`, `TextDiagram.nodeSize_group` — the sizes that do not depend on the
  font.
-/

import TextDiagram.Text.Lines
import TextDiagram.Configuration.Basic
import TextDiagram.Diagram.Basic

set_option relaxedAutoImplicit false
set_option autoImplicit false

namespace TextDiagram

/-- The least size of a node. -/
def leastNodeSize : Size Float32 := ⟨150, 50⟩

/-- The size of a group. -/
def groupSize : Size Float32 := ⟨300, 200⟩

/-- The height of a character of a style. -/
def Style.characterHeight (s : Style) : Float32 := s.fontHeight * 1.33

/-- The height of a line of a style. -/
def Style.lineHeight (s : Style) : Float32 := s.characterHeight * 1.15

/-- The size of a label without fonts: every character takes the same share of its height. -/
def estimatedSize (style : Style) (label : String) : Size Float32 :=
  let lines := Text.displayLines label
  let longest := (lines.map List.length).foldl max 0
  ⟨Float32.ofNat longest * style.characterHeight * 0.55,
    Float32.ofNat (max lines.length 1) * style.lineHeight⟩

/-- The size that the fonts of a style give to a label. -/
def shapedSize (style : Style) (label : String) (typeface : Typeface) : Size Float32 :=
  style.fonts.sizeOf label style.characterHeight style.lineHeight (style.family typeface)

/-- The size of a label in a typeface.  The empty label takes no room.  Where there are no fonts to
shape it, it is estimated. -/
def labelSize (style : Style) (label : String) (typeface : Typeface := .rough) : Size Float32 :=
  if label.isEmpty then Size.zero
  else
    let shaped := shapedSize style label typeface
    if shaped.width == 0 || shaped.height == 0 then estimatedSize style label else shaped

/-- The size of the box around a label. -/
def nodeSize (style : Style) (label : String) (hasIcon isGroup : Bool)
    (typeface : Typeface := .rough) : Size Float32 :=
  if isGroup then groupSize
  else
    let size := labelSize style label typeface
    let caption : Float32 := if hasIcon then 18 else 0
    Size.union ⟨size.width + 32, size.height + 24 + caption⟩ leastNodeSize

/-- The empty label takes no room. -/
@[simp] theorem labelSize_empty (style : Style) (typeface : Typeface) :
    labelSize style "" typeface = Size.zero := rfl

/-- A group has a fixed size. -/
@[simp] theorem nodeSize_group (style : Style) (label : String) (hasIcon : Bool)
    (typeface : Typeface) : nodeSize style label hasIcon true typeface = groupSize := rfl

/-! ### The diagram of a document -/

namespace Diagram

/-- A node of a document with its size, in the corner of the plane.  Its label is drawn in its own
typeface, or else in the one that it inherits. -/
def Node.ofDocument (style : Style) (inherited : Appearance) (n : Document.Node) :
    Node Float32 where
  kind := if n.isGroup then .group else .default
  position := Point.origin
  size := nodeSize style n.label n.icon.isSome n.isGroup (n.appearance.getD inherited).typeface
  label := n.label
  icon := n.icon
  color := n.color
  parent := n.parent
  appearance := n.appearance
  origin := n.origin

/-- An edge of a document. -/
def Edge.ofDocument (e : Document.Edge) : Edge where
  source := e.source
  target := e.target
  kind := e.kind
  label := e.label
  color := e.color
  origin := e.origin

/-- The diagram of a document, with measured nodes that have no places yet. -/
def ofDocument (style : Style) (document : Document) : Diagram Float32 where
  nodes := .ofList (document.nodes.map fun n => (n.id, Node.ofDocument style document.appearance n))
  edges := .ofList (document.edges.map fun e => (e.id, Edge.ofDocument e))
  direction := document.direction
  appearance := document.appearance

end Diagram

end TextDiagram
