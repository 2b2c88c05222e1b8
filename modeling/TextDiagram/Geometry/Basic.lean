/-
**Points, sizes and boxes.**

The plane of a diagram has its origin at the top left, with `x` growing to the right and `y` growing
downwards.  A box is kept by its corners and made from its top left corner and its size.

The definitions that only add, multiply and compare are stated over any scalar, so that their laws
can be stated over exact numbers as well; a diagram is drawn with single-precision ones.

Main definitions:

* `TextDiagram.Scalar` — the operations that the geometry needs, with the instance of `Float32`;
* `TextDiagram.Point`, `TextDiagram.Size`, `TextDiagram.Box` — the shapes, with their operations;
* `TextDiagram.Side` — the sides of a box, with their midpoints;
* `TextDiagram.Side.facing` — the side that looks towards another point.

Main results:

* `TextDiagram.Point.add_x`, `TextDiagram.Box.hull_cons_cons` — what the operations say of the
  coordinates and of the boxes in a list.
-/

import TextDiagram.Number.Single
import TextDiagram.Number.Decimal

set_option relaxedAutoImplicit false
set_option autoImplicit false

namespace TextDiagram

/-! ### Scalars -/

/-- The operations that positions and sizes are computed with. -/
class Scalar (α : Type) extends Add α, Sub α, Mul α, Div α where
  /-- The scalar nearest to a natural number. -/
  ofNat : Nat → α
  /-- The smaller of two scalars. -/
  smaller : α → α → α
  /-- The larger of two scalars. -/
  larger : α → α → α

instance : Scalar Float32 where
  ofNat := Float32.ofNat
  smaller := Number.smaller
  larger := Number.larger

/-! ### Points -/

/-- A point, or the vector from the origin to it. -/
structure Point (α : Type) where
  x : α
  y : α
  deriving DecidableEq, Repr

namespace Point

variable {α : Type} [Scalar α]

/-- The origin. -/
def origin : Point α := ⟨Scalar.ofNat 0, Scalar.ofNat 0⟩

instance : Inhabited (Point α) := ⟨origin⟩

/-- The sum of two vectors. -/
def add (p q : Point α) : Point α := ⟨p.x + q.x, p.y + q.y⟩

/-- The vector from `q` to `p`. -/
def sub (p q : Point α) : Point α := ⟨p.x - q.x, p.y - q.y⟩

instance : Add (Point α) := ⟨add⟩

instance : Sub (Point α) := ⟨sub⟩

/-- A vector with both parts multiplied by a factor. -/
def scale (p : Point α) (factor : α) : Point α := ⟨p.x * factor, p.y * factor⟩

/-- The point halfway between two points. -/
def midpoint (p q : Point α) : Point α :=
  ⟨(p.x + q.x) / Scalar.ofNat 2, (p.y + q.y) / Scalar.ofNat 2⟩

@[simp] theorem add_x (p q : Point α) : (p + q).x = p.x + q.x := rfl

@[simp] theorem add_y (p q : Point α) : (p + q).y = p.y + q.y := rfl

@[simp] theorem sub_x (p q : Point α) : (p - q).x = p.x - q.x := rfl

@[simp] theorem sub_y (p q : Point α) : (p - q).y = p.y - q.y := rfl

@[simp] theorem scale_x (p : Point α) (k : α) : (p.scale k).x = p.x * k := rfl

@[simp] theorem scale_y (p : Point α) (k : α) : (p.scale k).y = p.y * k := rfl

/-- The length of a vector. -/
def length (p : Point Float32) : Float32 := Number.hypotenuse p.x p.y

/-- Whether both coordinates are finite. -/
def isFinite (p : Point Float32) : Bool := p.x.isFinite && p.y.isFinite

/-- The text of a point. -/
def text (p : Point Float32) : String := s!"({Number.text p.x}, {Number.text p.y})"

end Point

/-! ### Sizes -/

/-- A width and a height. -/
structure Size (α : Type) where
  width : α
  height : α
  deriving DecidableEq, Repr

namespace Size

variable {α : Type} [Scalar α]

/-- The size of a single point. -/
def zero : Size α := ⟨Scalar.ofNat 0, Scalar.ofNat 0⟩

instance : Inhabited (Size α) := ⟨zero⟩

/-- The least size that is neither narrower nor lower than two sizes. -/
def union (s t : Size α) : Size α :=
  ⟨Scalar.larger s.width t.width, Scalar.larger s.height t.height⟩

/-- Whether both extents are zero. -/
def isZero (s : Size Float32) : Bool := s.width == 0 && s.height == 0

end Size

/-! ### Boxes -/

/-- The sides of a box. -/
inductive Side where
  | top
  | right
  | bottom
  | left
  deriving DecidableEq, Repr

/-- The name of a side. -/
def Side.name : Side → String
  | top => "top"
  | right => "right"
  | bottom => "bottom"
  | left => "left"

/-- The side of a given name. -/
def Side.ofName? (name : String) : Option Side :=
  [top, right, bottom, left].find? fun side => side.name = name

/-- A box with sides along the axes. -/
structure Box (α : Type) where
  minX : α
  minY : α
  maxX : α
  maxY : α
  deriving DecidableEq, Repr

namespace Box

variable {α : Type} [Scalar α]

/-- The box of a size whose top left corner is a point. -/
def ofCorner (corner : Point α) (size : Size α) : Box α :=
  ⟨corner.x, corner.y, corner.x + size.width, corner.y + size.height⟩

/-- The box at the origin that holds a single point. -/
def zero : Box α := ⟨Scalar.ofNat 0, Scalar.ofNat 0, Scalar.ofNat 0, Scalar.ofNat 0⟩

instance : Inhabited (Box α) := ⟨zero⟩

/-- How far a box reaches from left to right. -/
def width (b : Box α) : α := b.maxX - b.minX

/-- How far a box reaches from top to bottom. -/
def height (b : Box α) : α := b.maxY - b.minY

/-- The size of a box. -/
def size (b : Box α) : Size α := ⟨b.width, b.height⟩

/-- The point in the middle of a box. -/
def center (b : Box α) : Point α :=
  ⟨(b.minX + b.maxX) / Scalar.ofNat 2, (b.minY + b.maxY) / Scalar.ofNat 2⟩

/-- The least box that holds two boxes. -/
def merge (b c : Box α) : Box α where
  minX := Scalar.smaller b.minX c.minX
  minY := Scalar.smaller b.minY c.minY
  maxX := Scalar.larger b.maxX c.maxX
  maxY := Scalar.larger b.maxY c.maxY

/-- The least box that holds a box and a point. -/
def stretch (b : Box α) (p : Point α) : Box α := b.merge ⟨p.x, p.y, p.x, p.y⟩

/-- A box moved by a vector. -/
def translate (b : Box α) (shift : Point α) : Box α :=
  ⟨b.minX + shift.x, b.minY + shift.y, b.maxX + shift.x, b.maxY + shift.y⟩

/-- The midpoint of a side of a box. -/
def sideMidpoint (b : Box α) : Side → Point α
  | .top => ⟨b.center.x, b.minY⟩
  | .right => ⟨b.maxX, b.center.y⟩
  | .bottom => ⟨b.center.x, b.maxY⟩
  | .left => ⟨b.minX, b.center.y⟩

/-- The least box that holds all boxes of a list, and the box of the origin when there is none. -/
def hull : List (Box α) → Box α
  | [] => zero
  | first :: rest => rest.foldl merge first

@[simp] theorem hull_singleton (b : Box α) : hull [b] = b := rfl

@[simp] theorem hull_cons_cons (b c : Box α) (rest : List (Box α)) :
    hull (b :: c :: rest) = hull (b.merge c :: rest) := rfl

end Box

/-! ### Facing -/

/-- The side of a box around `source` that looks towards `target`: left or right where the
horizontal distance is the larger one, and the top where both points are the same. -/
def Side.facing (source target : Point Float32) : Side :=
  let delta := target - source
  if delta.y.abs < delta.x.abs then
    if 0 < delta.x then .right else .left
  else if 0 < delta.y then .bottom
  else .top

end TextDiagram
