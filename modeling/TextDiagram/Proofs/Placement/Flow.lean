/-
**The edges of a layered placement follow its direction by majority.**

Within one part of a drawing, the layers keep the order in which the part is drawn, or the part is
turned around as a whole; and the direction of a request keeps all layers in order or turns all of
them around.  So every edge inside a part leads on where the drawing leads on, or every one leads on
where the drawing leads back.  The second is what happens where more edges lead back than on, as
they are counted in the request: an edge that is listed twice counts twice.

The parts come one after the other, and so do the nodes that are not drawn.  Neither changes the
layers of a part that is there, as long as every node is drawn only once.

Main definitions:

* `TextDiagram.Layered.relates` — whether both ends of an edge are known and stand in a relation;
* `TextDiagram.Layered.drawnOn`, `TextDiagram.Layered.drawnBack` — whether an edge leads on or back
  in a part as it is drawn;
* `TextDiagram.Layered.seats`, `TextDiagram.Layered.inner` — where the nodes of a request sit, and
  the edges inside a part;
* `TextDiagram.Layered.leadsOn`, `TextDiagram.Layered.leadsBack` — whether an edge leads on or back
  along the direction of a request.

Main results:

* `TextDiagram.Layered.runsBackwards_iff` — which parts are turned around;
* `TextDiagram.Layered.Filling.get?_withPart_of_mem`, `TextDiagram.Layered.exists_get?_cells` — what
  a part keeps of its own cells when it comes in, and in the end;
* `TextDiagram.Layered.leads_cases` — the edges inside a part lead on and back as they are drawn, or
  all of them the other way around;
* `TextDiagram.Layered.countP_leadsBack_le`, `TextDiagram.Layered.leadsOn_of_drawn` — what this says
  of all parts, and of those that are drawn one way;
* `TextDiagram.Layered.edges_follow_direction` — **at least as many edges lead on as lead back**.
-/

import TextDiagram.Proofs.Placement.Cells

set_option relaxedAutoImplicit false
set_option autoImplicit false

namespace TextDiagram.Layered

open Layering (Spot)

/-! ### Ends of edges -/

/-- Whether both ends of an edge are known and stand in a relation. -/
def relates {α : Type} (rel : α → α → Bool) (find? : Id → Option α) (edge : Id × Id) : Bool :=
  match find? edge.1, find? edge.2 with
  | some source, some target => rel source target
  | _, _ => false

section

variable {α β : Type} {rel : β → β → Bool} {rel' : α → α → Bool} {find? : Id → Option β}
  {find?' : Id → Option α} {edge : Id × Id}

/-- Replacing the ends of an edge by others in the same relation changes nothing. -/
theorem relates_eq {f : α → β} (hsource : find? edge.1 = (find?' edge.1).map f)
    (htarget : find? edge.2 = (find?' edge.2).map f)
    (hrel : ∀ a b, find?' edge.1 = some a → find?' edge.2 = some b → rel (f a) (f b) = rel' a b) :
    relates rel find? edge = relates rel' find?' edge := by
  rw [relates, relates, hsource, htarget]
  cases hs : find?' edge.1 with
  | none => rfl
  | some a =>
      cases ht : find?' edge.2 with
      | none => rfl
      | some b => exact hrel a b hs ht

theorem relates_eq_true_iff : relates rel find? edge = true ↔
    ∃ a b, find? edge.1 = some a ∧ find? edge.2 = some b ∧ rel a b = true := by
  rw [relates]
  cases find? edge.1 <;> cases find? edge.2 <;> simp

/-- Where both ends of an edge are known, they stand in the relation or not. -/
theorem relates_of_find? {a b : β} (hsource : find? edge.1 = some a)
    (htarget : find? edge.2 = some b) : relates rel find? edge = rel a b := by
  rw [relates, hsource, htarget]

/-- A node does not stand in an irreflexive relation to itself. -/
theorem relates_eq_false_of_eq (hirrefl : ∀ a, rel a a = false) (heq : edge.1 = edge.2) :
    relates rel find? edge = false := by
  rw [relates, heq]
  cases find? edge.2 with
  | none => rfl
  | some a => exact hirrefl a

/-- A relation of layers is counted once for each edge whose ends have cells. -/
theorem countP_crossings (rel : Nat → Nat → Bool) (edges : List (Id × Id)) (cells : Catalog Cell) :
    (crossings edges cells).countP (fun (source, target) => rel source target) =
      edges.countP (relates (fun a b => rel a.layer b.layer) cells.get?) := by
  rw [crossings, List.countP_filterMap]
  refine List.countP_congr ?_
  rintro ⟨source, target⟩ -
  simp only [relates]
  cases cells.get? source <;> cases cells.get? target <;> simp

end

/-! ### One part as it is drawn -/

section

variable {coordinates : List Int} {c c' : Int}

/-- The places of coordinates are in their order. -/
theorem rankAmong_lt_rankAmong_iff (h : c ∈ coordinates) (h' : c' ∈ coordinates) :
    rankAmong coordinates c < rankAmong coordinates c' ↔ c < c' := by
  refine ⟨fun hlt => ?_, rankAmong_lt_rankAmong h⟩
  rcases Int.lt_trichotomy c c' with hlt' | rfl | hlt'
  · exact hlt'
  · exact absurd hlt (Nat.lt_irrefl _)
  · exact absurd hlt (Nat.lt_asymm (rankAmong_lt_rankAmong h' hlt'))

end

section

variable {part : List (Id × Spot)} {edges : List (Id × Id)} {edge : Id × Id} {id id' : Id}
  {spot spot' : Spot} {offset : Nat}

/-- Whether an edge leads on in a part as it is drawn, from a spot to one that is farther along. -/
def drawnOn (part : List (Id × Spot)) : Id × Id → Bool :=
  relates (fun source target : Spot => decide (source.along < target.along))
    fun id => part.lookup id

/-- Whether an edge leads back in a part as it is drawn. -/
def drawnBack (part : List (Id × Spot)) : Id × Id → Bool :=
  relates (fun source target : Spot => decide (target.along < source.along))
    fun id => part.lookup id

/-- The cell of a spot of a part as it is drawn. -/
def drawnCell (part : List (Id × Spot)) (spot : Spot) : Cell :=
  ⟨rankAmong (part.map fun (_, spot) => spot.along) spot.along,
    rankAmong (part.map fun (_, spot) => spot.across) spot.across⟩

/-- The nodes of a part are drawn in the cells of their spots, and no others are drawn. -/
theorem get?_drawnCells (h : (part.map Prod.fst).Nodup) (id : Id) :
    (drawnCells part).get? id = (part.lookup id).map (drawnCell part) := by
  refine Option.ext fun cell => ?_
  rw [get?_drawnCells_iff h, Option.map_eq_some_iff]
  simp only [lookup_eq_some_iff_mem h, eq_comm, drawnCell]

/-- The layers of a part are in the order of its spots. -/
theorem layer_drawnCell_lt_iff (h : (part.map Prod.fst).Nodup) (hspot : part.lookup id = some spot)
    (hspot' : part.lookup id' = some spot') :
    (drawnCell part spot).layer < (drawnCell part spot').layer ↔ spot.along < spot'.along := by
  have halong : ∀ p ∈ part, p.2.along ∈ part.map fun (_, spot) => spot.along :=
    fun p hp => List.mem_map_of_mem hp
  exact rankAmong_lt_rankAmong_iff (halong _ ((lookup_eq_some_iff_mem h).1 hspot))
    (halong _ ((lookup_eq_some_iff_mem h).1 hspot'))

/-- A part is turned around if more edges lead back than on, as it is drawn. -/
theorem runsBackwards_iff (h : (part.map Prod.fst).Nodup) :
    runsBackwards edges (drawnCells part) = true ↔
      edges.countP (drawnOn part) < edges.countP (drawnBack part) := by
  have hon : ∀ edge, relates (fun a b => decide (a.layer < b.layer)) (drawnCells part).get? edge =
      drawnOn part edge := by
    intro edge
    refine relates_eq (get?_drawnCells h _) (get?_drawnCells h _) fun spot spot' hspot hspot' => ?_
    exact decide_eq_decide.2 (layer_drawnCell_lt_iff h hspot hspot')
  have hback : ∀ edge, relates (fun a b => decide (b.layer < a.layer)) (drawnCells part).get? edge =
      drawnBack part edge := by
    intro edge
    refine relates_eq (get?_drawnCells h _) (get?_drawnCells h _) fun spot spot' hspot hspot' => ?_
    exact decide_eq_decide.2 (layer_drawnCell_lt_iff h hspot' hspot)
  rw [runsBackwards, decide_eq_true_iff, countP_crossings fun a b => decide (a < b),
    countP_crossings fun a b => decide (b < a), funext hon, funext hback]

/-- No edge leads both on and back. -/
theorem drawnOn_eq_false (h : drawnBack part edge = true) : drawnOn part edge = false := by
  obtain ⟨a, b, ha, hb, hlt⟩ := relates_eq_true_iff.1 h
  rw [drawnOn, relates_of_find? ha hb]
  exact decide_eq_false (Int.not_lt.2 (Int.le_of_lt (of_decide_eq_true hlt)))

/-- An edge from a node to itself leads nowhere. -/
theorem ne_of_drawn (h : drawnOn part edge = true ∨ drawnBack part edge = true) :
    edge.1 ≠ edge.2 := by
  intro heq
  have hirrefl : ∀ a : Spot, decide (a.along < a.along) = false :=
    fun a => decide_eq_false (Int.lt_irrefl a.along)
  rcases h with h | h
  · exact Bool.false_ne_true ((relates_eq_false_of_eq hirrefl heq).symm.trans h)
  · exact Bool.false_ne_true ((relates_eq_false_of_eq hirrefl heq).symm.trans h)

/-- The cell of a spot of a part that has come in, with the flow and beside the slots before it. -/
def partCell (edges : List (Id × Id)) (offset : Nat) (part : List (Id × Spot)) (spot : Spot) :
    Cell :=
  let drawn := drawnCell part spot
  ⟨if runsBackwards edges (drawnCells part) then layerCount part - 1 - drawn.layer else drawn.layer,
    offset + drawn.slot⟩

theorem get?_partCells (h : (part.map Prod.fst).Nodup) (id : Id) :
    (partCells edges offset part).get? id = (part.lookup id).map (partCell edges offset part) := by
  rw [partCells, Catalog.get?_map, get?_drawnCells h, Option.map_map]
  rfl

/-- The layers of a part that has come in are in the order of its spots, or in the opposite order if
the part is turned around. -/
theorem layer_partCell_lt_iff (edges : List (Id × Id)) (offset : Nat)
    (h : (part.map Prod.fst).Nodup) (hspot : part.lookup id = some spot)
    (hspot' : part.lookup id' = some spot') :
    (partCell edges offset part spot).layer < (partCell edges offset part spot').layer ↔
      if runsBackwards edges (drawnCells part) then spot'.along < spot.along
      else spot.along < spot'.along := by
  have hdrawn : ∀ id spot, part.lookup id = some spot →
      (drawnCell part spot).layer < layerCount part := by
    intro id spot hspot
    have hcell : (drawnCells part).get? id = some (drawnCell part spot) := by
      rw [get?_drawnCells h, hspot, Option.map_some]
    exact (drawnCells_lt h hcell).1
  have hlt := hdrawn id spot hspot
  have hlt' := hdrawn id' spot' hspot'
  simp only [partCell]
  split
  · rw [← layer_drawnCell_lt_iff h hspot' hspot]
    omega
  · exact layer_drawnCell_lt_iff h hspot hspot'

end

/-! ### All parts and all nodes -/

namespace Filling

variable {filling : Filling} {edges : List (Id × Id)} {part : List (Id × Spot)} {id : Id}

/-- The nodes of a further part get its cells. -/
theorem get?_withPart_of_mem (h : id ∈ part.map Prod.fst) :
    (filling.withPart edges part).cells.get? id =
      (partCells edges filling.slots part).get? id := by
  have hmem : id ∈ (partCells edges filling.slots part).ids := mem_ids_partCells.2 h
  obtain ⟨cell, hcell⟩ := Catalog.mem_ids_iff.1 hmem
  rw [get?_withPart, hcell, Option.some_or]

/-- A further part leaves the cells of the other nodes. -/
theorem get?_withPart_of_notMem (h : id ∉ part.map Prod.fst) :
    (filling.withPart edges part).cells.get? id = filling.cells.get? id := by
  rw [get?_withPart, Catalog.get?_eq_none_iff.2 (mt mem_ids_partCells.1 h), Option.none_or]

/-- A further node leaves the cells that there are. -/
theorem get?_withNode {cell : Cell} (h : filling.cells.get? id = some cell) (new : Id) :
    (filling.withNode new).cells.get? id = some cell := by
  rw [withNode]
  split
  · exact h
  · next hnew =>
      have hne : id ≠ new := by
        rintro rfl
        exact hnew (Catalog.contains_iff.2 (Catalog.mem_ids_iff.2 ⟨cell, h⟩))
      rw [Catalog.get?_insert_of_ne _ hne, h]

end Filling

section

variable {request : LayoutRequest} {drawing : List (List Spot)} {edges : List (Id × Id)} {id : Id}

/-- What further parts do: they leave the cells of the nodes that they do not have. -/
theorem get?_foldl_withPart_of_notMem {parts : List (List (Id × Spot))} :
    ∀ filling : Filling, id ∉ parts.flatten.map Prod.fst →
      (parts.foldl (Filling.withPart edges) filling).cells.get? id = filling.cells.get? id := by
  induction parts with
  | nil => exact fun _ _ => rfl
  | cons part rest ih =>
      intro filling h
      rw [List.flatten_cons, List.map_append, List.mem_append, not_or] at h
      rw [List.foldl_cons, ih _ h.2, Filling.get?_withPart_of_notMem h.1]

/-- What all parts do, where no node is in two of them: the nodes of each one have its cells. -/
theorem exists_get?_foldl_withPart {parts : List (List (Id × Spot))} {part : List (Id × Spot)} :
    ∀ filling : Filling, (parts.flatten.map Prod.fst).Nodup → part ∈ parts →
      ∃ offset, ∀ id ∈ part.map Prod.fst,
        (parts.foldl (Filling.withPart edges) filling).cells.get? id =
          (partCells edges offset part).get? id := by
  induction parts with
  | nil => exact fun _ _ h => (nomatch h)
  | cons first rest ih =>
      intro filling hnodup hpart
      rw [List.flatten_cons, List.map_append, List.nodup_append] at hnodup
      rcases List.mem_cons.1 hpart with rfl | hpart
      · refine ⟨filling.slots, fun id hid => ?_⟩
        have hrest : id ∉ rest.flatten.map Prod.fst := fun hmem => hnodup.2.2 id hid id hmem rfl
        rw [List.foldl_cons, get?_foldl_withPart_of_notMem _ hrest,
          Filling.get?_withPart_of_mem hid]
      · exact ih (filling.withPart edges first) hnodup.2.1 hpart

/-- What all nodes do: they leave the cells that there are. -/
theorem get?_foldl_withNode {cell : Cell} (ids : List Id) :
    ∀ filling : Filling, filling.cells.get? id = some cell →
      (ids.foldl Filling.withNode filling).cells.get? id = some cell := by
  induction ids with
  | nil => exact fun _ h => h
  | cons new rest ih => exact fun filling h => ih _ (Filling.get?_withNode h new)

/-- The known nodes of a part of a drawing are different if the drawing draws none of them twice. -/
theorem nodup_known_of_mem (request : LayoutRequest)
    (hnodup : (drawing.flatten.map Spot.node).Nodup) {part : List Spot} (hpart : part ∈ drawing) :
    ((known (numbers request) part).map Prod.fst).Nodup :=
  nodup_known (hnodup.sublist ((List.sublist_flatten_of_mem hpart).map Spot.node))

/-- In the end, the nodes of a part have the cells of the part, which are beside some slots. -/
theorem exists_get?_cells (request : LayoutRequest)
    (hnodup : (drawing.flatten.map Spot.node).Nodup) {part : List Spot} (hpart : part ∈ drawing) :
    ∃ offset, ∀ id spot, (known (numbers request) part).lookup id = some spot →
      (cells request drawing).get? id =
        some (partCell request.edges offset (known (numbers request) part) spot) := by
  have hflatten : (drawing.map (known (numbers request))).flatten =
      known (numbers request) drawing.flatten := List.filterMap_flatten.symm
  have hparts : ((drawing.map (known (numbers request))).flatten.map Prod.fst).Nodup :=
    hflatten ▸ nodup_known hnodup
  have hown := nodup_known_of_mem request hnodup hpart
  obtain ⟨offset, hget⟩ := exists_get?_foldl_withPart {} hparts (List.mem_map_of_mem hpart)
  refine ⟨offset, fun id spot hspot => get?_foldl_withNode _ _ ?_⟩
  rw [drawn, hget id (List.mem_map_of_mem ((lookup_eq_some_iff_mem hown).1 hspot)),
    get?_partCells hown, hspot, Option.map_some]

/-! ### Edges along the direction -/

/-- Where the nodes of a request sit, for a drawing of its links. -/
def seats (request : LayoutRequest) (drawing : List (List Spot)) : Catalog Cell :=
  let all := cells request (asked request drawing)
  all.map fun _ cell => seat request all cell

/-- The edges of a request inside a part of a drawing, as often as the request lists them. -/
def inner (request : LayoutRequest) (part : List Spot) : List (Id × Id) :=
  let ids := (known (numbers request) part).map Prod.fst
  request.edges.filter fun (source, target) => ids.contains source && ids.contains target

/-- Whether a seat is in a strictly further layer along a direction than another one. -/
def isFurther (direction : Direction) (seat other : Cell) : Bool :=
  match direction with
  | .right | .down => decide (other.layer < seat.layer)
  | .left | .up => decide (seat.layer < other.layer)

/-- Whether an edge leads on, to a strictly further layer along the direction of a request. -/
def leadsOn (request : LayoutRequest) (drawing : List (List Spot)) : Id × Id → Bool :=
  relates (fun source target => isFurther request.direction target source)
    (seats request drawing).get?

/-- Whether an edge leads back, to a strictly nearer layer along the direction of a request. -/
def leadsBack (request : LayoutRequest) (drawing : List (List Spot)) : Id × Id → Bool :=
  relates (fun source target => isFurther request.direction source target)
    (seats request drawing).get?

/-- Of two cells, the one in the larger layer sits further along the direction. -/
theorem isFurther_seat {cells : Catalog Cell} {cell cell' : Cell}
    (hle : cell.layer ≤ lastLayer cells) (hle' : cell'.layer ≤ lastLayer cells) :
    isFurther request.direction (seat request cells cell) (seat request cells cell') =
      decide (cell'.layer < cell.layer) := by
  cases hdirection : request.direction <;>
    simp only [isFurther, seat, directed, hdirection, decide_eq_decide] <;> omega

/-- A drawing that is asked for is the drawing as it is. -/
theorem asked_eq_of_mem {part : List Spot} (h : part ∈ asked request drawing) :
    asked request drawing = drawing := by
  rw [asked] at h ⊢
  split at h
  · exact absurd h List.not_mem_nil
  · next hlinks => rw [if_neg hlinks]

section part

variable {part : List Spot} {edge : Id × Id}

/-- The edges inside a part are those between spots of it. -/
theorem mem_inner_iff (hown : ((known (numbers request) part).map Prod.fst).Nodup) :
    edge ∈ inner request part ↔ edge ∈ request.edges ∧
      ∃ a b, (known (numbers request) part).lookup edge.1 = some a ∧
        (known (numbers request) part).lookup edge.2 = some b := by
  simp [inner, lookup_eq_some_iff_mem hown]

/-- What is told of the spots of both ends holds of no edges but those inside the part. -/
theorem countP_inner (hown : ((known (numbers request) part).map Prod.fst).Nodup)
    (rel : Spot → Spot → Bool) :
    (inner request part).countP (relates rel fun id => (known (numbers request) part).lookup id) =
      request.edges.countP (relates rel fun id => (known (numbers request) part).lookup id) := by
  have hinner : ∀ edge ∈ request.edges,
      relates rel (fun id => (known (numbers request) part).lookup id) edge = true →
      edge ∈ inner request part := by
    intro edge hedge hrel
    obtain ⟨a, b, ha, hb, -⟩ := relates_eq_true_iff.1 hrel
    exact (mem_inner_iff hown).2 ⟨hedge, a, b, ha, hb⟩
  rw [inner, List.countP_filter]
  refine List.countP_congr fun edge hedge => ?_
  rw [Bool.and_eq_true]
  exact ⟨And.left, fun hrel => ⟨hrel, (List.mem_filter.1 (hinner edge hedge hrel)).2⟩⟩

/-- A part is turned around if more of the edges inside it lead back than on, as it is drawn. -/
theorem runsBackwards_iff_inner (hown : ((known (numbers request) part).map Prod.fst).Nodup) :
    runsBackwards request.edges (drawnCells (known (numbers request) part)) = true ↔
      (inner request part).countP (drawnOn (known (numbers request) part)) <
        (inner request part).countP (drawnBack (known (numbers request) part)) := by
  rw [drawnOn, drawnBack, countP_inner hown, countP_inner hown]
  exact runsBackwards_iff hown

/-- The nodes of a part sit in its cells, which are not behind the last layer. -/
theorem exists_get?_seats (hnodup : (drawing.flatten.map Spot.node).Nodup)
    (hpart : part ∈ asked request drawing) :
    ∃ offset, ∀ id spot, (known (numbers request) part).lookup id = some spot →
      let cell := partCell request.edges offset (known (numbers request) part) spot
      (seats request drawing).get? id = some (seat request (cells request drawing) cell) ∧
        cell.layer ≤ lastLayer (cells request drawing) := by
  have hasked := asked_eq_of_mem hpart
  rw [hasked] at hpart
  obtain ⟨offset, hget⟩ := exists_get?_cells request hnodup hpart
  refine ⟨offset, fun id spot hspot => ⟨?_, layer_le_lastLayer (hget id spot hspot)⟩⟩
  rw [seats, hasked, Catalog.get?_map, hget id spot hspot, Option.map_some]

/-- The ends of the edges inside a part have seats. -/
theorem exists_seats_of_mem_inner (hnodup : (drawing.flatten.map Spot.node).Nodup)
    (hpart : part ∈ asked request drawing) (hedge : edge ∈ inner request part) :
    ∃ source target, (seats request drawing).get? edge.1 = some source ∧
      (seats request drawing).get? edge.2 = some target := by
  have hown := nodup_known_of_mem request hnodup (asked_eq_of_mem hpart ▸ hpart)
  obtain ⟨-, a, b, ha, hb⟩ := (mem_inner_iff hown).1 hedge
  obtain ⟨offset, hget⟩ := exists_get?_seats hnodup hpart
  exact ⟨_, _, (hget _ _ ha).1, (hget _ _ hb).1⟩

/-- An edge inside a part leads on and back as the drawing does, or the other way around if the part
is turned around. -/
theorem leads_eq (hnodup : (drawing.flatten.map Spot.node).Nodup)
    (hpart : part ∈ asked request drawing) (hedge : edge ∈ inner request part) :
    if runsBackwards request.edges (drawnCells (known (numbers request) part)) then
      leadsOn request drawing edge = drawnBack (known (numbers request) part) edge ∧
        leadsBack request drawing edge = drawnOn (known (numbers request) part) edge
    else
      leadsOn request drawing edge = drawnOn (known (numbers request) part) edge ∧
        leadsBack request drawing edge = drawnBack (known (numbers request) part) edge := by
  have hown := nodup_known_of_mem request hnodup (asked_eq_of_mem hpart ▸ hpart)
  obtain ⟨-, a, b, ha, hb⟩ := (mem_inner_iff hown).1 hedge
  obtain ⟨offset, hget⟩ := exists_get?_seats hnodup hpart
  obtain ⟨hseat, hle⟩ := hget _ _ ha
  obtain ⟨hseat', hle'⟩ := hget _ _ hb
  have hlt := layer_partCell_lt_iff request.edges offset hown ha hb
  have hlt' := layer_partCell_lt_iff request.edges offset hown hb ha
  rw [leadsOn, leadsBack, relates_of_find? hseat hseat', relates_of_find? hseat hseat',
    isFurther_seat hle hle', isFurther_seat hle' hle, drawnOn, drawnBack,
    relates_of_find? ha hb, relates_of_find? ha hb]
  split
  · next hturned =>
      rw [if_pos hturned] at hlt hlt'
      exact ⟨decide_eq_decide.2 hlt, decide_eq_decide.2 hlt'⟩
  · next hturned =>
      rw [if_neg hturned] at hlt hlt'
      exact ⟨decide_eq_decide.2 hlt, decide_eq_decide.2 hlt'⟩

/-- The edges inside a part lead on and back as the drawing does, or all of them the other way
around, which is where more of them lead back in the drawing. -/
theorem leads_cases (hnodup : (drawing.flatten.map Spot.node).Nodup)
    (hpart : part ∈ asked request drawing) :
    let own := known (numbers request) part
    let edges := inner request part
    (edges.countP (drawnOn own) < edges.countP (drawnBack own) ∧
        ∀ edge ∈ edges, leadsOn request drawing edge = drawnBack own edge ∧
          leadsBack request drawing edge = drawnOn own edge) ∨
      (edges.countP (drawnBack own) ≤ edges.countP (drawnOn own) ∧
        ∀ edge ∈ edges, leadsOn request drawing edge = drawnOn own edge ∧
          leadsBack request drawing edge = drawnBack own edge) := by
  intro own edges
  have hown := nodup_known_of_mem request hnodup (asked_eq_of_mem hpart ▸ hpart)
  have hiff := runsBackwards_iff_inner hown
  by_cases hturned : runsBackwards request.edges (drawnCells own) = true
  · refine Or.inl ⟨hiff.1 hturned, fun edge hedge => ?_⟩
    have hleads := leads_eq hnodup hpart hedge
    rwa [if_pos hturned] at hleads
  · refine Or.inr ⟨Nat.not_lt.1 (mt hiff.2 hturned), fun edge hedge => ?_⟩
    have hleads := leads_eq hnodup hpart hedge
    rwa [if_neg hturned] at hleads

/-- Of the edges inside a part, at least as many lead on as lead back: a part in which more lead
back, as it is drawn, is turned around. -/
theorem countP_leadsBack_le (hnodup : (drawing.flatten.map Spot.node).Nodup)
    (hpart : part ∈ asked request drawing) :
    (inner request part).countP (leadsBack request drawing) ≤
      (inner request part).countP (leadsOn request drawing) := by
  have hcount : ∀ {p q : Id × Id → Bool}, (∀ edge ∈ inner request part, p edge = q edge) →
      (inner request part).countP p = (inner request part).countP q :=
    fun h => List.countP_congr fun edge hedge => Bool.eq_iff_iff.1 (h edge hedge)
  rcases leads_cases hnodup hpart with ⟨hlt, hleads⟩ | ⟨hle, hleads⟩
  · rw [hcount fun edge hedge => (hleads edge hedge).1,
      hcount fun edge hedge => (hleads edge hedge).2]
    exact Nat.le_of_lt hlt
  · rw [hcount fun edge hedge => (hleads edge hedge).1,
      hcount fun edge hedge => (hleads edge hedge).2]
    exact hle

/-- Where all edges inside a part lead one way as it is drawn, all of them lead on. -/
theorem leadsOn_of_drawn (hnodup : (drawing.flatten.map Spot.node).Nodup)
    (hpart : part ∈ asked request drawing)
    (hway : (∀ edge ∈ inner request part, edge.1 ≠ edge.2 →
        drawnOn (known (numbers request) part) edge = true) ∨
      (∀ edge ∈ inner request part, edge.1 ≠ edge.2 →
        drawnBack (known (numbers request) part) edge = true))
    (hedge : edge ∈ inner request part) (hne : edge.1 ≠ edge.2) :
    leadsOn request drawing edge = true := by
  rcases leads_cases hnodup hpart with ⟨hlt, hleads⟩ | ⟨hle, hleads⟩
  · rcases hway with hon | hback
    · -- then no edge leads back, and the part is not turned around
      refine absurd hlt (Nat.not_lt.2 (List.countP_mono_left fun edge hedge hback => ?_))
      exact hon edge hedge (ne_of_drawn (Or.inr hback))
    · rw [(hleads edge hedge).1, hback edge hedge hne]
  · rcases hway with hon | hback
    · rw [(hleads edge hedge).1, hon edge hedge hne]
    · -- then no edge leads on but this one leads back, and the part is turned around
      have hlt := Catalog.countP_lt_countP hedge
        (fun edge hedge hon => hback edge hedge (ne_of_drawn (Or.inl hon)))
        (hback edge hedge hne) (drawnOn_eq_false (hback edge hedge hne))
      exact absurd hle (Nat.not_le.2 hlt)

/-- **At least as many edges lead on as lead back**, in every part of a drawing, whatever the
drawing is, if it draws each node at most once.  Counted are the edges of the request inside the
part, as often as the request lists them: at least as many of them lead to a strictly further layer
along the direction as lead to a strictly nearer one, and their ends have seats.  If all of them
lead one way in the drawing, all of them lead on.  The answer sits every node in the corner of its
seat; it is an error only where there are links, and the drawing has no node of the request. -/
theorem edges_follow_direction (request : LayoutRequest) {drawing : List (List Spot)}
    (hnodup : (drawing.flatten.map Spot.node).Nodup) :
    (∀ part ∈ asked request drawing,
      let own := known (numbers request) part
      let edges := inner request part
      (∀ edge ∈ edges, ∃ source target, (seats request drawing).get? edge.1 = some source ∧
        (seats request drawing).get? edge.2 = some target) ∧
      edges.countP (leadsBack request drawing) ≤ edges.countP (leadsOn request drawing) ∧
      ((∀ edge ∈ edges, edge.1 ≠ edge.2 → drawnOn own edge = true) ∨
          (∀ edge ∈ edges, edge.1 ≠ edge.2 → drawnBack own edge = true) →
        ∀ edge ∈ edges, edge.1 ≠ edge.2 → leadsOn request drawing edge = true)) ∧
    ((links request = [] ∨
        ∃ spot ∈ drawing.flatten, (idOf? (numbers request) spot.node).isSome = true) →
      arrange drawing request =
        .ok ((seats request drawing).map fun _ seat => corner request seat)) ∧
    (links request ≠ [] →
      (∀ spot ∈ drawing.flatten, idOf? (numbers request) spot.node = none) →
      ∃ error, arrange drawing request = .error error) := by
  refine ⟨fun part hpart => ⟨?_, ?_, ?_⟩, ?_, arrange_eq_error⟩
  · exact fun edge hedge => exists_seats_of_mem_inner hnodup hpart hedge
  · exact countP_leadsBack_le hnodup hpart
  · exact fun hway edge hedge hne => leadsOn_of_drawn hnodup hpart hway hedge hne
  · intro h
    rw [arrange_eq_ok h, positions_eq_map, seats, Catalog.map_map]

end part

end

/-- A chain of three nodes, and one of two with edges both ways, of which one is listed twice. -/
def chains : LayoutRequest where
  direction := .up
  layerSpacing := 100
  nodeSpacing := 80
  nodes := ["A", "B", "C", "D", "E"].map fun id => (id, ⟨150, 50⟩)
  edges := [("A", "B"), ("B", "A"), ("A", "B"), ("A", "A"), ("C", "D"), ("D", "E"), ("C", "E")]

/-- A drawing of the chains, the shorter one against most of its edges. -/
def chainsDrawing : List (List Spot) :=
  [[⟨0, 7, 0⟩, ⟨1, 3, 0⟩], [⟨2, 0, 4⟩, ⟨3, 1, -4⟩, ⟨4, 2, 4⟩]]

/-- The shorter chain is turned around, so that the edge that is listed twice leads on, and all edges
of the longer one do. -/
theorem edges_of_chains_lead_up :
    chainsDrawing.map (fun part => ((inner chains part).countP (leadsBack chains chainsDrawing),
        (inner chains part).countP (leadsOn chains chainsDrawing))) = [(1, 2), (0, 3)] ∧
      (∀ part ∈ chainsDrawing, (inner chains part).countP (leadsBack chains chainsDrawing) ≤
        (inner chains part).countP (leadsOn chains chainsDrawing)) ∧
      (∀ edge ∈ [("C", "D"), ("D", "E"), ("C", "E")], leadsOn chains chainsDrawing edge = true) ∧
      arrange chainsDrawing chains =
        .ok ((seats chains chainsDrawing).map fun _ seat => corner chains seat) := by
  have hnodup : (chainsDrawing.flatten.map Spot.node).Nodup := by decide
  obtain ⟨hparts, harrange, -⟩ := edges_follow_direction chains hnodup
  have hlinks : (links chains).length = 5 := by
    simp only [links, List.length_mergeSort]
    decide +kernel
  have hasked : asked chains chainsDrawing = chainsDrawing := by
    rw [asked, if_neg (by rw [List.isEmpty_iff_length_eq_zero, hlinks]; decide)]
  rw [hasked] at hparts
  refine ⟨?_, fun part hpart => (hparts part hpart).2.1, ?_, ?_⟩
  · simp only [leadsBack, leadsOn, seats, hasked]
    decide +kernel
  · obtain ⟨-, -, hway⟩ := hparts [⟨2, 0, 4⟩, ⟨3, 1, -4⟩, ⟨4, 2, 4⟩] (by decide)
    intro edge hedge
    refine hway (Or.inl (by decide +kernel)) edge ?_ ?_
    · revert edge
      decide +kernel
    · revert edge
      decide +kernel
  · exact harrange (Or.inr ⟨⟨0, 7, 0⟩, by decide, by decide +kernel⟩)

end TextDiagram.Layered
