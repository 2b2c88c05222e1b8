/-
**Diagrams of an ordinary size.**

Single precision has room for every diagram that is drawn by hand: with some hundred nodes, some
thousand edges, and labels that the fonts make no larger than some ten thousand units, nothing in it
is further than a million units away, where the numbers are still a sixteenth of a unit apart.

Main definitions:

* `TextDiagram.Document.IsModest` — a document of an ordinary size;
* `TextDiagram.Diagram.IsKept` — a diagram with nothing in it that is too large or too far away.

Main results:

* `TextDiagram.Grid.isWithin_of_positions?` — where a placement puts the nodes;
* `TextDiagram.Configuration.exists_layOut?_isKept` — **a text of an ordinary size is laid out**, and
  everything in the diagram is kept.
-/

import TextDiagram.Proofs.Diagram.Measure
import TextDiagram.Proofs.Diagram.Reach
import TextDiagram.Proofs.Placement.Merging
import TextDiagram.Proofs.Placement.Nudging
import TextDiagram.Proofs.Picture.Export

set_option relaxedAutoImplicit false
set_option autoImplicit false

namespace TextDiagram

open Number (value IsWithin)

/-! ### Placements -/

namespace Grid

variable {nodes : List Node} {spacing : GridSpacing Float32} {k bound : ℕ}
  {spread final : Catalog (Point Float32)}

/-- A nudge does not move a point up or down. -/
theorem isWithin_iterate_nudged_y {p : Point Float32} {j : ℤ} (hj : j < 127) (n : ℕ)
    (h : IsWithin j p.y) : IsWithin j (iterate nudged n p).y := by
  induction n generalizing p with
  | zero => exact h
  | succ n ih =>
      rw [iterate_succ]
      exact ih (h.add_zero hj).1

/-- Where a placement puts the nodes, as long as the distances and nudges stay within bounds. -/
theorem isWithin_of_positions? (hnodup : (nodes.map Node.id).Nodup) (hspacing : spacing.IsUpTo k)
    (hbound : bound ≤ 27) (h : nodes.length * (2 ^ k + 19) ≤ 2 ^ bound)
    (hfinal : positions? nodes spacing = some final) {id : Id} {p : Point Float32}
    (hget : final.get? id = some p) : p.IsWithin bound := by
  obtain ⟨spread, hspread, -⟩ := exists_spread? hnodup spacing
  have hlarge : nodes.length * (2 ^ k + 19) ≤ 2 ^ 27 :=
    h.trans (Nat.pow_le_pow_right Nat.two_pos hbound)
  have hid : id ∈ nodes.map Node.id :=
    (ids_positions?_perm hnodup hfinal).subset (Catalog.mem_ids_iff.2 ⟨p, hget⟩)
  obtain ⟨hplace, n, hn, heq⟩ :=
    exists_nudges_le_of_positions? hnodup hspread hspacing hlarge hfinal hid
  have hp : placeOf final id = p := by rw [placeOf, hget, Option.getD_some]
  have hn' : (n : ℝ) ≤ nodes.length := by exact_mod_cast hn
  have h' : (nodes.length : ℝ) * (2 ^ k + 19) ≤ 2 ^ bound := by exact_mod_cast h
  have hlarge' : (nodes.length : ℝ) * (2 ^ k + 19) ≤ 2 ^ 27 := by exact_mod_cast hlarge
  have hx := hplace.1.le
  have hy := hplace.2.le
  obtain ⟨hfinite, hlow, hhigh⟩ := value_iterate_nudged (n := n) hplace.1.finite (by linarith)
  rw [← hp, ← heq]
  have hcount : (0 : ℝ) ≤ n := n.cast_nonneg
  have hlength : (0 : ℝ) ≤ nodes.length := nodes.length.cast_nonneg
  refine ⟨⟨hfinite, ?_⟩, isWithin_iterate_nudged_y (by omega) n ⟨hplace.2.finite, ?_⟩⟩
  · rw [zpow_natCast, abs_le]
    obtain ⟨hx, hx'⟩ := abs_le.1 hx
    constructor
    · linarith
    · linarith
  · rw [zpow_natCast]
    linarith

end Grid

/-! ### Documents and diagrams -/

/-- A document with no more than 400 nodes and 4000 edges, the labels of which have ordinary sizes.
The labels of groups are not measured. -/
structure Document.IsModest (style : Style) (d : Document) : Prop where
  nodes : d.nodes.length ≤ 400
  edges : d.edges.length ≤ 4000
  nodeLabels : ∀ n ∈ d.nodes, n.isGroup = false →
    (labelSize style n.label (n.appearance.getD d.appearance).typeface).IsOrdinary
  edgeLabels : ∀ e ∈ d.edges, ∀ label ∈ e.label,
    (labelSize style label d.appearance.typeface).IsOrdinary

instance (style : Style) (d : Document) : Decidable (d.IsModest style) :=
  decidable_of_iff (d.nodes.length ≤ 400 ∧ d.edges.length ≤ 4000 ∧
    (∀ n ∈ d.nodes, n.isGroup = false →
      (labelSize style n.label (n.appearance.getD d.appearance).typeface).IsOrdinary) ∧
    ∀ e ∈ d.edges, ∀ label ∈ e.label, (labelSize style label d.appearance.typeface).IsOrdinary)
    ⟨fun ⟨hn, he, hnl, hel⟩ => ⟨hn, he, hnl, hel⟩, fun ⟨hn, he, hnl, hel⟩ => ⟨hn, he, hnl, hel⟩⟩

/-- A diagram without handles, in which nodes and routes are not too large, and the labels of edges
have ordinary sizes and one line. -/
structure Diagram.IsKept (style : Style) (d : Diagram Float32) : Prop where
  node : ∀ id n, d.nodes.get? id = some n → n.IsWithin 19
  route : ∀ id route, d.routes.get? id = some route → route.IsKept
  label : ∀ id e, d.edges.get? id = some e → ∀ label, e.label = some label →
    '\n' ∉ label.toList ∧ (labelSize style label d.appearance.typeface).IsOrdinary

namespace Diagram

variable {names : List Id} {document : Document} {style : Style}

/-- A node of a document of an ordinary size, at a place that is not too far away. -/
theorem Node.isWithin_placed {inherited : Appearance} {n : Document.Node}
    (hsize : n.isGroup = false →
      (labelSize style n.label (n.appearance.getD inherited).typeface).IsOrdinary)
    {p : Point Float32} (hp : p.IsWithin 18) :
    ((Node.ofDocument style inherited n).placedBy (some p)).IsWithin 19 := by
  have hplaced : (Node.ofDocument style inherited n).placedBy (some p) =
      { Node.ofDocument style inherited n with position := p } := if_pos hp.isFinite
  obtain ⟨hwidth, hheight⟩ := isWithin_nodeSize n.icon.isSome hsize
  rw [hplaced]
  exact ⟨rfl, ⟨hp.x.mono (by decide), hp.y.mono (by decide), (hp.x.add hwidth (by decide)).2,
    (hp.y.add hheight (by decide)).2⟩⟩

/-- The diagram of a document of an ordinary size, with its nodes at places that are not too far
away. -/
theorem isKept_placed (h : document.IsSound names) (hmodest : document.IsModest style)
    {positions : Catalog (Point Float32)}
    (hall : ∀ id ∈ (ofDocument style document).nodes.ids, id ∈ positions.ids)
    (hpositions : ∀ id p, positions.get? id = some p → p.IsWithin 18)
    (hlines : ((ofDocument style document).placed positions).HasChars (· ≠ '\n')) :
    ((ofDocument style document).placed positions).IsKept style := by
  have hnode : ∀ id n, ((ofDocument style document).placed positions).nodes.get? id = some n →
      n.IsWithin 19 := by
    intro id n hn
    rw [placed, rerouted_nodes, Catalog.get?_map] at hn
    obtain ⟨unplaced, hunplaced, rfl⟩ := Option.map_eq_some_iff.1 hn
    obtain ⟨p, hp⟩ := Catalog.mem_ids_iff.1 (hall id (Catalog.mem_ids_iff.2 ⟨_, hunplaced⟩))
    obtain ⟨m, hm, rfl, rfl⟩ := (get?_nodes_ofDocument_iff style h).1 hunplaced
    rw [hp]
    exact Node.isWithin_placed (hmodest.nodeLabels m hm) (hpositions _ p hp)
  have hedges := entries_edges_ofDocument style h
  have hcount : (ofDocument style document).edges.entries.length ≤ 2 ^ 12 := by
    rw [hedges, List.length_map]
    exact hmodest.edges.trans (by decide)
  refine ⟨hnode, fun id route hroute => isKept_of_get?_routes hnode hcount hroute, ?_⟩
  intro id e he label hlabel
  have hmem := Catalog.get?_eq_some_iff.1 he
  have hchars := (hlines.edges _ hmem).2 label hlabel
  rw [placed_edges, hedges] at hmem
  obtain ⟨stated, hstated, heq⟩ := List.mem_map.1 hmem
  obtain ⟨rfl, rfl⟩ := Prod.mk.inj heq
  exact ⟨fun hline => hchars _ hline rfl, hmodest.edgeLabels stated hstated label hlabel⟩

end Diagram

/-! ### Layouts -/

namespace Configuration

/-- A diagram is laid out if each of its nodes gets a finite place. -/
theorem layOut?_eq_of_positions? {c : Configuration} {service : LayoutService}
    {document : Document} {positions : Catalog (Point Float32)}
    (hpositions : c.placing.positions? service (Diagram.ofDocument c.style document) =
      some positions)
    (hall : ∀ id ∈ (Diagram.ofDocument c.style document).nodes.ids,
      ∃ p, positions.get? id = some p ∧ p.isFinite = true) :
    c.layOut? service document =
      some (.ok ((Diagram.ofDocument c.style document).placed positions)) := by
  have hplaceless : placelessNode? (Diagram.ofDocument c.style document) positions = none := by
    rw [placelessNode?_eq_none_iff]
    intro id hid
    obtain ⟨p, hp, hfinite⟩ := hall id hid
    rwa [hasPlace, hp]
  rw [layOut?]
  simp only [hpositions, Option.map_some, settle, hplaceless]

/-- The labels of a text have no line feeds, as these end the lines of the text. -/
theorem hasChars_placed_ofDocument {text : String} {document : Document}
    (hdocument : Document.ofText text = .ok document) (style : Style)
    (positions : Catalog (Point Float32)) :
    ((Diagram.ofDocument style document).placed positions).HasChars (· ≠ '\n') := by
  refine Diagram.hasChars_ofDocument ?_ ?_ (Document.isSound_of_ofText hdocument)
    (Document.isDescribedBy_of_ofText hdocument) _
  · rintro c hc rfl
    exact absurd hc (by decide)
  · intro p hp
    obtain ⟨line, hline, hsaid⟩ := List.mem_filterMap.1 hp
    obtain ⟨statement, hstatement, rfl⟩ := Option.map_eq_some_iff.1 hsaid
    refine Statement.hasChars_of_ofLine? (fun c hc => ?_) hstatement
    rintro rfl
    exact Text.notMem_of_mem_numberedLines hline hc

/-- **A text of an ordinary size is laid out**, and everything in the diagram is kept. -/
theorem exists_layOut?_isKept (fonts : Fonts) {text : String} {document : Document}
    (hread : Configuration.read text = .ok document) (hmodest : document.IsModest { fonts })
    (service : LayoutService) :
    ∃ d, (({} : Configuration).withFonts fonts).layOut? service document = some (.ok d) ∧
      d.IsKept { fonts } := by
  have hdocument := ofText_of_read hread
  have hsound := Document.isSound_of_ofText hdocument
  set fresh := Diagram.ofDocument { fonts } document with hfresh
  have hids : (Grid.nodesOf fresh).map Grid.Node.id = fresh.nodes.ids := map_id_nodesOf fresh
  have hnodup : ((Grid.nodesOf fresh).map Grid.Node.id).Nodup := hids ▸ fresh.nodes.distinct
  have hlength : (Grid.nodesOf fresh).length ≤ 400 := by
    rw [← List.length_map (f := Grid.Node.id), hids, hfresh,
      Diagram.ids_nodes_ofDocument { fonts } hsound, List.length_map]
    exact hmodest.nodes
  obtain ⟨positions, hpositions, hperm, -, -⟩ :=
    Grid.keepsApart_standard hnodup (hlength.trans (by decide))
  have hgrid : ({} : Placing).positions? service fresh = some positions := by
    rw [Placing.positions?, Placing.onGrid?, hpositions]
    rfl
  have hall : ∀ id ∈ fresh.nodes.ids, id ∈ positions.ids :=
    fun id hid => hperm.symm.subset (hids ▸ hid)
  have hwithin : ∀ id p, positions.get? id = some p → p.IsWithin 18 := fun id p hp =>
    Grid.isWithin_of_positions? hnodup GridSpacing.isUpTo_standard (show 18 ≤ 27 by decide)
      (by omega) hpositions hp
  have hplaced : ∀ id ∈ fresh.nodes.ids, ∃ p, positions.get? id = some p ∧ p.isFinite = true := by
    intro id hid
    obtain ⟨p, hp⟩ := Catalog.mem_ids_iff.1 (hall id hid)
    exact ⟨p, hp, (hwithin id p hp).isFinite⟩
  let c := ({} : Configuration).withFonts fonts
  have hlaid : c.layOut? service document = some (.ok (fresh.placed positions)) :=
    layOut?_eq_of_positions? hgrid hplaced
  exact ⟨fresh.placed positions, hlaid, Diagram.isKept_placed hsound hmodest hall hwithin
    (hasChars_placed_ofDocument hdocument { fonts } positions)⟩

end Configuration

end TextDiagram
