/-
**Layout services.**

The layered placement is asked of a service: it is told the sizes of the nodes and the edges between
them, and answers with positions, or with an error.  Whatever it answers, every node keeps a
position: a failed service, a node left out and a position that is not finite leave things as they
were.

Main definitions:

* `TextDiagram.LayoutRequest` — what a service is asked;
* `TextDiagram.ServiceError` — why a service has no answer;
* `TextDiagram.merged` — positions improved by what a service answers.

Main results:

* `TextDiagram.merged_ids` — an answer adds and takes away no position;
* `TextDiagram.get?_merged_ok` — which of the positions of an answer are taken over.
-/

import TextDiagram.Diagram.Basic
import TextDiagram.Configuration.Basic

set_option relaxedAutoImplicit false
set_option autoImplicit false

namespace TextDiagram

/-! ### Requests -/

/-- What a layout service is asked: to place nodes of given sizes with edges between them. -/
structure LayoutRequest where
  direction : Direction := .right
  layerSpacing : Float32
  nodeSpacing : Float32
  nodes : List (Id × Size Float32)
  edges : List (Id × Id)
  deriving DecidableEq, Repr

/-- The request for a diagram.  A node that was not measured counts with the default size. -/
def LayoutRequest.ofDiagram (spacing : LayerSpacing) (d : Diagram Float32) : LayoutRequest where
  direction := d.direction
  layerSpacing := spacing.layer
  nodeSpacing := spacing.node
  nodes := d.nodes.entries.map fun (id, n) =>
    (id, if n.size.isZero then spacing.defaultSize else n.size)
  edges := d.edges.values.map fun e => (e.source, e.target)

/-! ### Answers -/

/-- Why a layout service has no answer. -/
inductive ServiceError where
  | panicked (message : String)
  | empty
  | unmapped
  | unavailable (message : String)
  deriving DecidableEq, Repr

/-- What is said of a service without an answer. -/
def ServiceError.message : ServiceError → String
  | panicked message => s!"Layout service panicked: {message}"
  | empty => "Layout service returned no layout"
  | unmapped => "Layout service returned positions for unknown nodes"
  | unavailable message => s!"Layout service unavailable: {message}"

/-- The answer of a layout service. -/
abbrev ServiceResult := Except ServiceError (Catalog (Point Float32))

/-- A layout service answers requests. -/
abbrev LayoutService := LayoutRequest → ServiceResult

/-! ### Merging -/

/-- A position, or the one that an answer gives instead of it. -/
def improved (placed : Catalog (Point Float32)) (id : Id) (position : Point Float32) :
    Point Float32 :=
  match placed.get? id with
  | some better => if better.isFinite then better else position
  | none => position

/-- Positions improved by what a service answers. -/
def merged (base : Catalog (Point Float32)) : ServiceResult → Catalog (Point Float32)
  | .error _ => base
  | .ok placed => base.map (improved placed)

@[simp] theorem merged_error (base : Catalog (Point Float32)) (error : ServiceError) :
    merged base (.error error) = base := rfl

/-- An answer adds and takes away no position. -/
@[simp] theorem merged_ids (base : Catalog (Point Float32)) (result : ServiceResult) :
    (merged base result).ids = base.ids := by
  cases result with
  | error error => rfl
  | ok placed => exact Catalog.ids_map base _

/-- Which of the positions of an answer are taken over. -/
theorem get?_merged_ok (base placed : Catalog (Point Float32)) (id : Id) :
    (merged base (.ok placed)).get? id = (base.get? id).map (improved placed id) :=
  Catalog.get?_map base _ id

end TextDiagram
