/-
**No two nodes of a layered placement share a cell.**

The parts of a drawing take their slots one after the other, and the nodes that are not drawn take
one slot each after them.  So the nodes of different parts are in different slots.  Within a part,
a layer and a slot are the places of two coordinates among those of the part, and tell which
coordinates these are; turning the layers around, in a part or in the end, takes different layers to
different ones, as no layer is behind the last one.

Nothing is assumed of the drawing but that it draws every node at most once, and the nodes of one
part at different spots.

Main definitions:

* `TextDiagram.Layered.IsApart` — different ids have different cells;
* `TextDiagram.Layered.Filling.IsProper` — the nodes met so far are apart, in the slots counted;
* `TextDiagram.Layered.seat` — the layer, in the direction of a request, and the slot of a cell.

Main results:

* `TextDiagram.Layered.rankAmong_injOn` — the place of a coordinate tells which one it is;
* `TextDiagram.Layered.isApart_partCells` — the nodes of one part are apart;
* `TextDiagram.Layered.Filling.IsProper.withPart`, `TextDiagram.Layered.Filling.IsProper.withNode`,
  `TextDiagram.Layered.isProper_drawn` — what one part does, what one more node does, and what all
  parts do;
* `TextDiagram.Layered.seats_of_arrange` — **the nodes of a request have a seat each**, in every
  direction.
-/

import Mathlib.Data.List.Pairwise
import TextDiagram.Placement.Layered
import TextDiagram.Proofs.Catalog

set_option relaxedAutoImplicit false
set_option autoImplicit false

namespace TextDiagram.Layered

open Layering (Spot)

/-! ### Ranks -/

section

variable {coordinates : List Int} {c c' : Int}

theorem rankAmong_lt_rankAmong (h : c ∈ coordinates) (hlt : c < c') :
    rankAmong coordinates c < rankAmong coordinates c' := by
  refine Catalog.countP_lt_countP (List.mem_eraseDups.2 h) ?_ (decide_eq_true hlt) (by simp)
  intro x _ hx
  exact decide_eq_true (Int.lt_trans (of_decide_eq_true hx) hlt)

/-- The place of a coordinate tells which one it is. -/
theorem rankAmong_injOn (h : c ∈ coordinates) (h' : c' ∈ coordinates)
    (heq : rankAmong coordinates c = rankAmong coordinates c') : c = c' := by
  rcases Int.lt_trichotomy c c' with hlt | rfl | hlt
  · exact absurd heq (Nat.ne_of_lt (rankAmong_lt_rankAmong h hlt))
  · rfl
  · exact absurd heq.symm (Nat.ne_of_lt (rankAmong_lt_rankAmong h' hlt))

end

/-! ### Numbered nodes -/

variable {request : LayoutRequest} {id : Id}

theorem mem_entries_of_idOf? {numbers : Catalog Nat} {number : Nat}
    (h : idOf? numbers number = some id) : (id, number) ∈ numbers.entries := by
  obtain ⟨⟨key, n⟩, hfind, rfl⟩ := Option.map_eq_some_iff.1 h
  have hn : n = number := by simpa using List.find?_some hfind
  exact hn ▸ List.mem_of_find?_eq_some hfind

/-- Different numbers are those of different nodes. -/
theorem idOf?_inj {numbers : Catalog Nat} {m n : Nat} (hm : idOf? numbers m = some id)
    (hn : idOf? numbers n = some id) : m = n := by
  have hm := Catalog.get?_eq_some_iff.2 (mem_entries_of_idOf? hm)
  have hn := Catalog.get?_eq_some_iff.2 (mem_entries_of_idOf? hn)
  exact Option.some.inj (hm.symm.trans hn)

/-- The nodes of a request are those that have numbers. -/
theorem mem_ids_numbers : id ∈ (numbers request).ids ↔ id ∈ request.nodes.map Prod.fst := by
  have hids : (request.nodes.zipIdx.map Prod.fst).map Prod.fst = request.nodes.map Prod.fst := by
    rw [List.zipIdx_map_fst]
  rw [numbers, Catalog.mem_ids_ofList, ← hids, List.map_map, List.map_map]
  exact Iff.rfl

/-! ### Parts of a drawing -/

/-- A part with each id at most once, and different ids at different spots. -/
structure IsPart (part : List (Id × Spot)) : Prop where
  nodup : (part.map Prod.fst).Nodup
  inj : ∀ a ∈ part, ∀ b ∈ part, a.2.along = b.2.along → a.2.across = b.2.across → a.1 = b.1

theorem mem_ids_known {numbers : Catalog Nat} {spots : List Spot} :
    id ∈ (known numbers spots).map Prod.fst ↔
      ∃ spot ∈ spots, idOf? numbers spot.node = some id := by
  simp [known]

/-- The known nodes of different numbers are different. -/
theorem nodup_known {numbers : Catalog Nat} {spots : List Spot}
    (h : (spots.map Spot.node).Nodup) : ((known numbers spots).map Prod.fst).Nodup := by
  rw [List.Nodup, List.pairwise_map, known, List.pairwise_filterMap]
  refine (List.pairwise_map.1 h).imp ?_
  rintro spot spot' hne a ha b hb heq
  obtain ⟨id, hid, rfl⟩ := Option.map_eq_some_iff.1 ha
  obtain ⟨id', hid', rfl⟩ := Option.map_eq_some_iff.1 hb
  obtain rfl : id = id' := heq
  exact hne (idOf?_inj hid hid')

/-- The known nodes of spots that are different, for different numbers, are a part. -/
theorem isPart_known {numbers : Catalog Nat} {spots : List Spot}
    (hnodup : (spots.map Spot.node).Nodup)
    (hapart : spots.Pairwise fun a b => a.along ≠ b.along ∨ a.across ≠ b.across) :
    IsPart (known numbers spots) := by
  have hspot : ∀ a ∈ known numbers spots,
      a.2 ∈ spots ∧ idOf? numbers a.2.node = some a.1 := by
    rintro a ha
    obtain ⟨spot, hspot, hknown⟩ := List.mem_filterMap.1 ha
    obtain ⟨id, hid, rfl⟩ := Option.map_eq_some_iff.1 hknown
    exact ⟨hspot, hid⟩
  constructor
  case nodup => exact nodup_known hnodup
  case inj =>
    intro a ha b hb halong hacross
    obtain ⟨hmem, hid⟩ := hspot a ha
    obtain ⟨hmem', hid'⟩ := hspot b hb
    have hsame : a.2 = b.2 := by
      by_contra hne
      have hsymm : Std.Symm fun a b : Spot => a.along ≠ b.along ∨ a.across ≠ b.across :=
        ⟨fun a b h => h.imp Ne.symm Ne.symm⟩
      rcases hapart.forall hmem hmem' hne with h | h
      · exact h halong
      · exact h hacross
    rw [hsame, hid'] at hid
    exact (Option.some.inj hid).symm

/-- Different ids have different cells. -/
def IsApart (cells : Catalog Cell) : Prop :=
  ∀ id id' cell, cells.get? id = some cell → cells.get? id' = some cell → id = id'

section part

variable {part : List (Id × Spot)} {cell : Cell}

/-- The cells of a part as it is drawn. -/
theorem get?_drawnCells_iff (h : (part.map Prod.fst).Nodup) :
    (drawnCells part).get? id = some cell ↔
      ∃ spot, (id, spot) ∈ part ∧
        cell = ⟨rankAmong (part.map fun (_, spot) => spot.along) spot.along,
          rankAmong (part.map fun (_, spot) => spot.across) spot.across⟩ := by
  have hids : ((part.map fun (id, spot) =>
      (id, (⟨rankAmong (part.map fun (_, spot) => spot.along) spot.along,
        rankAmong (part.map fun (_, spot) => spot.across) spot.across⟩ : Cell))).map
      Prod.fst).Nodup := by
    rw [List.map_map]
    exact h
  rw [Catalog.get?_eq_some_iff, drawnCells, Catalog.entries_ofList hids, List.mem_map]
  constructor
  · rintro ⟨⟨key, spot⟩, hmem, heq⟩
    obtain ⟨rfl, rfl⟩ := Prod.mk.inj heq
    exact ⟨spot, hmem, rfl⟩
  · rintro ⟨spot, hmem, rfl⟩
    exact ⟨(id, spot), hmem, rfl⟩

/-- The cells of a part are within its layers and slots. -/
theorem drawnCells_lt (h : (part.map Prod.fst).Nodup)
    (hcell : (drawnCells part).get? id = some cell) :
    cell.layer < layerCount part ∧ cell.slot < slotCount part := by
  obtain ⟨spot, hmem, rfl⟩ := (get?_drawnCells_iff h).1 hcell
  exact ⟨rankAmong_lt (List.mem_map_of_mem hmem), rankAmong_lt (List.mem_map_of_mem hmem)⟩

/-- The nodes of a part are apart as they are drawn. -/
theorem isApart_drawnCells (h : IsPart part) : IsApart (drawnCells part) := by
  intro id id' cell hcell hcell'
  obtain ⟨spot, hmem, rfl⟩ := (get?_drawnCells_iff h.nodup).1 hcell
  obtain ⟨spot', hmem', heq⟩ := (get?_drawnCells_iff h.nodup).1 hcell'
  obtain ⟨hlayer, hslot⟩ := Cell.mk.inj heq
  have halong : ∀ p ∈ part, p.2.along ∈ part.map fun (_, spot) => spot.along :=
    fun p hp => List.mem_map_of_mem hp
  have hacross : ∀ p ∈ part, p.2.across ∈ part.map fun (_, spot) => spot.across :=
    fun p hp => List.mem_map_of_mem hp
  exact h.inj (id, spot) hmem (id', spot') hmem'
    (rankAmong_injOn (halong _ hmem) (halong _ hmem') hlayer)
    (rankAmong_injOn (hacross _ hmem) (hacross _ hmem') hslot)

/-- With the flow and beside other slots, the nodes of a part are still apart, and they take as many
slots as are counted. -/
theorem isApart_partCells (h : IsPart part) (edges : List (Id × Id)) (offset : Nat) :
    IsApart (partCells edges offset part) ∧
      ∀ id cell, (partCells edges offset part).get? id = some cell →
        offset ≤ cell.slot ∧ cell.slot < offset + slotCount part := by
  constructor
  · intro id id' cell hcell hcell'
    rw [partCells, Catalog.get?_map] at hcell hcell'
    obtain ⟨⟨layer, slot⟩, hdrawn, rfl⟩ := Option.map_eq_some_iff.1 hcell
    obtain ⟨⟨layer', slot'⟩, hdrawn', heq⟩ := Option.map_eq_some_iff.1 hcell'
    have hlt := (drawnCells_lt h.nodup hdrawn).1
    have hlt' := (drawnCells_lt h.nodup hdrawn').1
    obtain ⟨hlayer, hslot⟩ := Cell.mk.inj heq
    simp only at hlt hlt' hlayer hslot
    obtain rfl : slot = slot' := by omega
    obtain rfl : layer = layer' := by
      -- turned around or not, no layer is behind the last one
      split at hlayer <;> omega
    exact isApart_drawnCells h id id' _ hdrawn hdrawn'
  · intro id cell hcell
    rw [partCells, Catalog.get?_map] at hcell
    obtain ⟨drawn, hdrawn, rfl⟩ := Option.map_eq_some_iff.1 hcell
    have hlt := (drawnCells_lt h.nodup hdrawn).2
    simp only
    omega

theorem mem_ids_partCells {edges : List (Id × Id)} {offset : Nat} :
    id ∈ (partCells edges offset part).ids ↔ id ∈ part.map Prod.fst := by
  rw [partCells, Catalog.ids_map, drawnCells, Catalog.mem_ids_ofList, List.map_map]
  rfl

end part

/-! ### Part by part and node by node -/

namespace Filling

variable {filling : Filling}

/-- The nodes met so far are apart, in the slots counted. -/
structure IsProper (filling : Filling) : Prop where
  lt : ∀ id cell, filling.cells.get? id = some cell → cell.slot < filling.slots
  isApart : IsApart filling.cells

theorem isProper_empty : ({} : Filling).IsProper :=
  ⟨fun _ _ h => (nomatch h), fun _ _ _ h => (nomatch h)⟩

/-- The cells of a further part come before those met so far. -/
theorem get?_withPart (edges : List (Id × Id)) (part : List (Id × Spot)) (id : Id) :
    (filling.withPart edges part).cells.get? id =
      ((partCells edges filling.slots part).get? id).or (filling.cells.get? id) :=
  Catalog.get?_foldl_insert (Catalog.distinct _) filling.cells id

/-- A further part is beside the nodes met so far. -/
theorem IsProper.withPart (h : filling.IsProper) {part : List (Id × Spot)} (hpart : IsPart part)
    (edges : List (Id × Id)) : (filling.withPart edges part).IsProper := by
  obtain ⟨hapart, hslots⟩ := isApart_partCells hpart edges filling.slots
  have hcases : ∀ id cell, (filling.withPart edges part).cells.get? id = some cell →
      (partCells edges filling.slots part).get? id = some cell ∨
        filling.cells.get? id = some cell := by
    intro id cell hcell
    rw [get?_withPart, Option.or_eq_some_iff] at hcell
    exact hcell.imp_right And.right
  constructor
  case lt =>
    intro id cell hcell
    have hcount : (filling.withPart edges part).slots = filling.slots + slotCount part := rfl
    rcases hcases id cell hcell with hnew | hold
    · exact hcount ▸ (hslots id cell hnew).2
    · have := h.lt id cell hold
      omega
  case isApart =>
    intro id id' cell hcell hcell'
    rcases hcases id cell hcell with hnew | hold
    · rcases hcases id' cell hcell' with hnew' | hold'
      · exact hapart id id' cell hnew hnew'
      · have := (hslots id cell hnew).1
        have := h.lt id' cell hold'
        omega
    · rcases hcases id' cell hcell' with hnew' | hold'
      · have := (hslots id' cell hnew').1
        have := h.lt id cell hold
        omega
      · exact h.isApart id id' cell hold hold'

/-- A further node is beside the nodes met so far. -/
theorem IsProper.withNode (h : filling.IsProper) (new : Id) : (filling.withNode new).IsProper := by
  rw [Filling.withNode]
  split
  · exact h
  · have hget : ∀ id cell, (filling.cells.insert new ⟨0, filling.slots⟩).get? id = some cell →
        (id = new ∧ cell = ⟨0, filling.slots⟩) ∨ filling.cells.get? id = some cell := by
      intro id cell hcell
      by_cases hid : id = new
      · subst hid
        rw [Catalog.get?_insert_self] at hcell
        exact Or.inl ⟨rfl, (Option.some.inj hcell).symm⟩
      · rw [Catalog.get?_insert_of_ne _ hid] at hcell
        exact Or.inr hcell
    constructor
    case lt =>
      intro id cell hcell
      rcases hget id cell hcell with ⟨-, rfl⟩ | hold
      · exact Nat.lt_succ_self _
      · exact Nat.lt_succ_of_lt (h.lt id cell hold)
    case isApart =>
      intro id id' cell hcell hcell'
      rcases hget id cell hcell with ⟨rfl, rfl⟩ | hold
      · rcases hget id' _ hcell' with ⟨rfl, -⟩ | hold'
        · rfl
        · exact absurd (h.lt id' _ hold') (Nat.lt_irrefl _)
      · rcases hget id' cell hcell' with ⟨rfl, rfl⟩ | hold'
        · exact absurd (h.lt id _ hold) (Nat.lt_irrefl _)
        · exact h.isApart id id' cell hold hold'

theorem mem_ids_withPart {edges : List (Id × Id)} {part : List (Id × Spot)} :
    id ∈ (filling.withPart edges part).cells.ids ↔
      id ∈ filling.cells.ids ∨ id ∈ part.map Prod.fst := by
  rw [← mem_ids_partCells]
  exact Catalog.mem_ids_foldl_insert _ filling.cells

theorem mem_ids_withNode {new : Id} :
    id ∈ (filling.withNode new).cells.ids ↔ id ∈ filling.cells.ids ∨ id = new := by
  rw [Filling.withNode]
  split
  · next hcontains =>
      have hnew := Catalog.contains_iff.1 hcontains
      exact ⟨Or.inl, fun h => h.elim (fun h => h) fun heq => heq ▸ hnew⟩
  · exact Catalog.mem_ids_insert

end Filling

/-! ### All parts and all nodes -/

section

variable {drawing : List (List Spot)}

/-- What all parts of a drawing do: the nodes that are drawn are apart. -/
theorem isProper_drawn (hnodup : (drawing.flatten.map Spot.node).Nodup)
    (hapart : ∀ part ∈ drawing, part.Pairwise fun a b => a.along ≠ b.along ∨ a.across ≠ b.across) :
    (drawn request drawing).IsProper := by
  have hparts : ∀ part ∈ drawing.map (known (numbers request)), IsPart part := by
    intro part hpart
    obtain ⟨spots, hspots, rfl⟩ := List.mem_map.1 hpart
    refine isPart_known ?_ (hapart spots hspots)
    exact hnodup.sublist ((List.sublist_flatten_of_mem hspots).map Spot.node)
  have hfold : ∀ (parts : List (List (Id × Spot))) (filling : Filling), filling.IsProper →
      (∀ part ∈ parts, IsPart part) →
      (parts.foldl (Filling.withPart request.edges) filling).IsProper := by
    intro parts
    induction parts with
    | nil => exact fun _ h _ => h
    | cons part rest ih =>
        intro filling h hparts
        refine ih _ (h.withPart (hparts part List.mem_cons_self) request.edges) ?_
        exact fun other hother => hparts other (List.mem_cons_of_mem _ hother)
  exact hfold _ {} Filling.isProper_empty hparts

/-- Which nodes are drawn: those of a request that a drawing has a spot for. -/
theorem mem_ids_drawn : id ∈ (drawn request drawing).cells.ids ↔
    ∃ spot ∈ drawing.flatten, idOf? (numbers request) spot.node = some id := by
  have hfold : ∀ (parts : List (List Spot)) (filling : Filling),
      id ∈ ((parts.map (known (numbers request))).foldl (Filling.withPart request.edges)
          filling).cells.ids ↔
        id ∈ filling.cells.ids ∨
          ∃ spot ∈ parts.flatten, idOf? (numbers request) spot.node = some id := by
    intro parts
    induction parts with
    | nil => intro filling; simp
    | cons part rest ih =>
        intro filling
        rw [List.map_cons, List.foldl_cons, ih, Filling.mem_ids_withPart, mem_ids_known, or_assoc]
        simp only [List.flatten_cons, List.mem_append, or_and_right, exists_or]
  exact (hfold drawing {}).trans (by simp)

/-- All nodes are apart. -/
theorem isApart_cells (hnodup : (drawing.flatten.map Spot.node).Nodup)
    (hapart : ∀ part ∈ drawing, part.Pairwise fun a b => a.along ≠ b.along ∨ a.across ≠ b.across) :
    IsApart (cells request drawing) := by
  have hfold : ∀ (ids : List Id) (filling : Filling), filling.IsProper →
      (ids.foldl Filling.withNode filling).IsProper := by
    intro ids
    induction ids with
    | nil => exact fun _ h => h
    | cons id rest ih => exact fun filling h => ih _ (h.withNode id)
  exact (hfold _ _ (isProper_drawn hnodup hapart)).isApart

/-- The nodes of a request have a cell each, and there are no others. -/
theorem mem_ids_cells : id ∈ (cells request drawing).ids ↔ id ∈ request.nodes.map Prod.fst := by
  have hfold : ∀ (ids : List Id) (filling : Filling),
      id ∈ (ids.foldl Filling.withNode filling).cells.ids ↔ id ∈ filling.cells.ids ∨ id ∈ ids := by
    intro ids
    induction ids with
    | nil => intro filling; simp
    | cons new rest ih =>
        intro filling
        rw [List.foldl_cons, ih, Filling.mem_ids_withNode, List.mem_cons, or_assoc]
  refine (hfold _ _).trans ⟨?_, Or.inr⟩
  rintro (hdrawn | hlisted)
  · obtain ⟨spot, -, hid⟩ := mem_ids_drawn.1 hdrawn
    have hknown := Catalog.get?_eq_some_iff.2 (mem_entries_of_idOf? hid)
    exact mem_ids_numbers.1 (Catalog.mem_ids_iff.2 ⟨_, hknown⟩)
  · exact hlisted

/-! ### Seats -/

/-- The last layer of cells. -/
def lastLayer (cells : Catalog Cell) : Nat := (cells.values.map Cell.layer).foldl max 0

/-- No cell is behind the last layer. -/
theorem layer_le_lastLayer {cells : Catalog Cell} {cell : Cell} (h : cells.get? id = some cell) :
    cell.layer ≤ lastLayer cells := by
  have hmem : cell.layer ∈ cells.values.map Cell.layer :=
    List.mem_map_of_mem (List.mem_map.2 ⟨_, Catalog.get?_eq_some_iff.1 h, rfl⟩)
  rw [lastLayer, List.foldl_max]
  exact Nat.le_trans (List.le_max?_getD_of_mem hmem) (Nat.le_max_right ..)

/-- The layer of a cell in the direction of a request, and its slot. -/
def seat (request : LayoutRequest) (cells : Catalog Cell) (cell : Cell) : Cell :=
  ⟨directed request.direction (lastLayer cells) cell.layer, cell.slot⟩

/-- Different cells are different seats. -/
theorem seat_inj {cells : Catalog Cell} {cell cell' : Cell} (hle : cell.layer ≤ lastLayer cells)
    (hle' : cell'.layer ≤ lastLayer cells) (h : seat request cells cell = seat request cells cell') :
    cell = cell' := by
  obtain ⟨layer, slot⟩ := cell
  obtain ⟨layer', slot'⟩ := cell'
  obtain ⟨hlayer, hslot⟩ := Cell.mk.inj h
  simp only at hle hle' hlayer hslot
  have hsame : layer = layer' := by
    cases hdirection : request.direction <;> simp only [hdirection, directed] at hlayer <;> omega
  rw [hsame, hslot]

/-- The corner of the node with a seat: steps along and across the flow that are as long as the
largest node and a gap. -/
def corner (request : LayoutRequest) (seat : Cell) : Point Float32 :=
  let (along, across) := largest request
  let main := Float32.ofNat seat.layer * (request.layerSpacing + along)
  let cross := Float32.ofNat seat.slot * (request.nodeSpacing + across)
  if request.direction.isHorizontal then ⟨main, cross⟩ else ⟨cross, main⟩

/-- The nodes sit at the corners of their seats. -/
theorem positions_eq_map (cells : Catalog Cell) : positions request cells =
    cells.map fun _ cell => corner request (seat request cells cell) := rfl

/-! ### Answers -/

/-- What a request leads to a drawing of: nothing is drawn without links. -/
def asked (request : LayoutRequest) (drawing : List (List Spot)) : List (List Spot) :=
  if (links request).isEmpty then [] else drawing

/-- Without nodes there are no links. -/
theorem links_of_nodes_eq_nil (h : request.nodes = []) : links request = [] := by
  have hnone : ∀ id, (numbers request).get? id = none := by
    intro id
    rw [Catalog.get?_eq_none_iff, mem_ids_numbers, h]
    exact List.not_mem_nil
  simp [links, hnone]

/-- Without links there are positions, and with links if a node of the request is drawn. -/
theorem arrange_eq_ok (h : links request = [] ∨
    ∃ spot ∈ drawing.flatten, (idOf? (numbers request) spot.node).isSome = true) :
    arrange drawing request =
      .ok (positions request (cells request (asked request drawing))) := by
  by_cases hnodes : request.nodes = []
  · have hcells : cells request [] = .empty := by simp [cells, drawn, hnodes]
    simp only [arrange, asked, links_of_nodes_eq_nil hnodes, hcells, hnodes, List.isEmpty_nil,
      if_true]
    rfl
  · by_cases hlinks : links request = []
    · simp [arrange, asked, hnodes, hlinks]
    · obtain ⟨spot, hspot, hsome⟩ := h.resolve_left hlinks
      obtain ⟨id, hid⟩ := Option.isSome_iff_exists.1 hsome
      have hdrawn : id ∈ (drawn request drawing).cells.ids := mem_ids_drawn.2 ⟨spot, hspot, hid⟩
      have hne : (drawn request drawing).cells.entries ≠ [] := by
        intro hnil
        rw [Catalog.ids, hnil] at hdrawn
        exact List.not_mem_nil hdrawn
      have hdrawing : drawing ≠ [] := by
        rintro rfl
        exact List.not_mem_nil hspot
      simp [arrange, asked, hnodes, hlinks, hdrawing, hne]

/-- With links, a drawing of none of the nodes is an error. -/
theorem arrange_eq_error (hlinks : links request ≠ [])
    (h : ∀ spot ∈ drawing.flatten, idOf? (numbers request) spot.node = none) :
    ∃ error, arrange drawing request = .error error := by
  have hnodes : request.nodes ≠ [] := fun hnil => hlinks (links_of_nodes_eq_nil hnil)
  have hempty : (drawn request drawing).cells.entries = [] := by
    rw [List.eq_nil_iff_forall_not_mem]
    rintro ⟨id, cell⟩ hmem
    obtain ⟨spot, hspot, hid⟩ := mem_ids_drawn.1 (List.mem_map_of_mem (f := Prod.fst) hmem)
    rw [h spot hspot] at hid
    exact nomatch hid
  by_cases hdrawing : drawing = []
  · exact ⟨.empty, by simp [arrange, hnodes, hlinks, hdrawing]⟩
  · exact ⟨.unmapped, by simp [arrange, hnodes, hlinks, hdrawing, hempty]⟩

/-- **The nodes of a request have a seat each**, whatever the drawing is, if it draws each node at
most once, and the nodes of one part at different spots.  Every node of the request has a cell, and
no other id has one; different nodes have different seats, in every direction; and no layer that is
counted from the last one is behind it, neither in a part that is turned around nor in the end.  The
answer sits every node in the corner of its seat.  It is an error only where there are links, and
the drawing has no node of the request. -/
theorem seats_of_arrange (request : LayoutRequest) {drawing : List (List Spot)}
    (hnodup : (drawing.flatten.map Spot.node).Nodup)
    (hapart : ∀ part ∈ drawing, part.Pairwise fun a b => a.along ≠ b.along ∨ a.across ≠ b.across) :
    let all := cells request (asked request drawing)
    (∀ id, id ∈ all.ids ↔ id ∈ request.nodes.map Prod.fst) ∧
      (∀ id id' cell cell', all.get? id = some cell → all.get? id' = some cell' → id ≠ id' →
        seat request all cell ≠ seat request all cell') ∧
      (∀ part ∈ drawing, ∀ id cell,
        (drawnCells (known (numbers request) part)).get? id = some cell →
          cell.layer < layerCount (known (numbers request) part)) ∧
      (∀ id cell, all.get? id = some cell → cell.layer ≤ lastLayer all) ∧
      ((links request = [] ∨
          ∃ spot ∈ drawing.flatten, (idOf? (numbers request) spot.node).isSome = true) →
        arrange drawing request =
          .ok (all.map fun _ cell => corner request (seat request all cell))) ∧
      (links request ≠ [] →
        (∀ spot ∈ drawing.flatten, idOf? (numbers request) spot.node = none) →
        ∃ error, arrange drawing request = .error error) := by
  intro all
  have hall : IsApart all := by
    simp only [all, asked]
    split
    · exact isApart_cells (by simp) (by simp)
    · exact isApart_cells hnodup hapart
  refine ⟨fun id => mem_ids_cells, ?_, ?_, fun id cell => layer_le_lastLayer, ?_,
    arrange_eq_error⟩
  · intro id id' cell cell' hcell hcell' hne heq
    obtain rfl := seat_inj (layer_le_lastLayer hcell) (layer_le_lastLayer hcell') heq
    exact hne (hall id id' cell hcell hcell')
  · intro part hpart id cell hcell
    have hids := (hnodup.sublist ((List.sublist_flatten_of_mem hpart).map Spot.node))
    exact (drawnCells_lt (isPart_known hids (hapart part hpart)).nodup hcell).1
  · intro h
    rw [arrange_eq_ok h, positions_eq_map]

end

/-- Two pairs of nodes with an edge each, and a node without edges, from right to left. -/
def pairs : LayoutRequest where
  direction := .left
  layerSpacing := 100
  nodeSpacing := 80
  nodes := ["A", "B", "C", "D", "E"].map fun id => (id, ⟨150, 50⟩)
  edges := [("A", "B"), ("C", "D")]

/-- A drawing of the pairs, the first against the flow, with a number that no node has. -/
def pairsDrawing : List (List Spot) := [[⟨0, 7, 0⟩, ⟨1, 3, 0⟩], [⟨2, 0, 4⟩, ⟨3, 1, -4⟩, ⟨9, 0, 0⟩]]

/-- The first pair is turned around, and the node that is not drawn follows the others. -/
theorem seats_of_pairs :
    let all := cells pairs (asked pairs pairsDrawing)
    (∀ id, id ∈ all.ids ↔ id ∈ ["A", "B", "C", "D", "E"]) ∧
      ["A", "B", "C", "D", "E"].filterMap (fun id => (all.get? id).map (seat pairs all)) =
        [⟨1, 0⟩, ⟨0, 0⟩, ⟨1, 2⟩, ⟨0, 1⟩, ⟨1, 3⟩] ∧
      arrange pairsDrawing pairs =
        .ok (all.map fun _ cell => corner pairs (seat pairs all cell)) := by
  have hnodup : (pairsDrawing.flatten.map Spot.node).Nodup := by decide
  have hapart : ∀ part ∈ pairsDrawing,
      part.Pairwise fun a b => a.along ≠ b.along ∨ a.across ≠ b.across := by decide
  obtain ⟨hids, -, -, -, harrange, -⟩ := seats_of_arrange pairs hnodup hapart
  have hlinks : (links pairs).length = 2 := by
    simp only [links, List.length_mergeSort]
    decide +kernel
  have hasked : asked pairs pairsDrawing = pairsDrawing := by
    rw [asked, if_neg (by rw [List.isEmpty_iff_length_eq_zero, hlinks]; decide)]
  refine ⟨hids, ?_, harrange (Or.inr ⟨⟨0, 7, 0⟩, by decide, by decide +kernel⟩)⟩
  rw [hasked]
  decide +kernel

end TextDiagram.Layered
