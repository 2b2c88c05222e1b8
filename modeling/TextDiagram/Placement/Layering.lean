/-
**Layers of a graph.**

A directed graph is drawn in layers: each of its connected parts for itself, every node one layer
behind the farthest node that leads to it, and the nodes of a layer side by side, centered over the
other layers.  Nodes are numbers here, and only nodes with links are drawn.

This drawing stands in for that of an outside library for layered graphs, and it agrees with it on
simple graphs such as paths and stars only: it orders the nodes of a layer by their numbers, with no
regard to crossing links.  What is proved of layered placement holds for any drawing, and what is
proved of placement for any service.

Main definitions:

* `TextDiagram.Layering.components` — the connected parts of a graph;
* `TextDiagram.Layering.layers` — the layer of each node of a part;
* `TextDiagram.Layering.spots` — where the nodes of a part are drawn;
* `TextDiagram.Layering.drawing` — the whole graph.
-/

import TextDiagram.Search

set_option relaxedAutoImplicit false
set_option autoImplicit false

namespace TextDiagram.Layering

/-- A link leads from one node to another. -/
abbrev Link := Nat × Nat

/-- Where a node is drawn: how far along the flow, and how far across it. -/
structure Spot where
  node : Nat
  along : Int
  across : Int
  deriving DecidableEq, Repr

/-! ### Connected parts -/

/-- The parts with those joined that a link connects. -/
def join (parts : List (List Nat)) (link : Link) : List (List Nat) :=
  let touches := fun (part : List Nat) => part.contains link.1 || part.contains link.2
  (link.1 :: link.2 :: (parts.filter touches).flatten).eraseDups :: parts.filter (!touches ·)

/-- The connected parts of a graph, each by increasing number, ordered by their least numbers. -/
def components (links : List Link) : List (List Nat) :=
  ((links.foldl join []).map fun part => part.mergeSort fun m n => decide (m ≤ n)).mergeSort
    fun p q => decide (p.headD 0 ≤ q.headD 0)

/-! ### Layers -/

/-- The links without those that would lead both ways: of two opposite ones the one from the larger
number stays. -/
def oneWay (links : List Link) : List Link :=
  links.filter fun (m, n) => !(decide (m < n) && links.contains (n, m))

/-- One round of layering: every node goes one layer behind the nodes that lead to it. -/
def lowered (links : List Link) (layers : List (Nat × Nat)) : List (Nat × Nat) :=
  layers.map fun (node, _) =>
    let behind := links.filterMap fun (source, target) =>
      if target = node then (layers.lookup source).map (· + 1) else none
    (node, behind.foldl max 0)

/-- The layer of each node of a part: the number of links on the longest way to it. -/
def layers (links : List Link) (part : List Nat) : List (Nat × Nat) :=
  iterate (lowered (oneWay links)) part.length (part.map fun node => (node, 0))

/-! ### Spots -/

/-- The spots of a layer, centered. -/
def layerSpots (layer : Nat) (members : List Nat) : List Spot :=
  members.zipIdx.map fun (node, i) => ⟨node, layer, 2 * (i : Int) - (members.length - 1 : Nat)⟩

/-- The spots of a part.  The nodes of a layer stand by increasing number, but in the opposite order
where the least node of the part is the only one in the first layer. -/
def spots (links : List Link) (part : List Nat) : List Spot :=
  let placed := layers links part
  let inLayer := fun (layer : Nat) => (placed.filter fun (_, l) => l = layer).map Prod.fst
  let isTurned := inLayer 0 = part.take 1
  (placed.map Prod.snd).eraseDups.flatMap fun layer =>
    layerSpots layer (if isTurned then (inLayer layer).reverse else inLayer layer)

/-- The spots of a graph, part by part. -/
def drawing (links : List Link) : List (List Spot) := (components links).map (spots links)

end TextDiagram.Layering
