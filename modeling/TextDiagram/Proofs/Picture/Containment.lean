/-
**What sticks out of a picture.**

The view box of a picture comes from the boxes of the nodes and of the curves, with a margin of fifty
around them.  So no node and no shadow sticks out, as they reach no further than four beyond a box.
The plate under the label of an edge comes from the size of the label, which the view box knows
nothing of.  It lies at the label point of a route, which is not far from the box of the curve, and
reaches to all sides by half of the label and five more.  So it is seen if there is room for that,
and sticks out if there is not, whatever the fonts make of the label.

Main definitions:

* `TextDiagram.plateReach` — how far the plate of a label reaches to both sides;
* `TextDiagram.Diagram.roomAcross`, `TextDiagram.Diagram.roomAlong` — how much room there is around a
  point;
* `TextDiagram.FitsUpToOne` — something is seen exactly if there is room for it, up to one;
* `TextDiagram.Window.Sees` — a rectangle is seen as a whole.

Main results:

* `TextDiagram.Diagram.IsKept.sees_node` — nodes and shadows are seen as a whole;
* `TextDiagram.Diagram.IsKept.fits_across`, `TextDiagram.Diagram.IsKept.fits_along` — a plate is seen
  exactly if there is room for it, up to one;
* `TextDiagram.Configuration.exists_picture_sees` — **what is seen of a text**.
-/

import TextDiagram.Proofs.Picture.Scale
import TextDiagram.Proofs.Picture.Window

set_option relaxedAutoImplicit false
set_option autoImplicit false

namespace TextDiagram

open Number (value IsWithin)

/-! ### Margins -/

/-- How far a shadow is moved, up to rounding. -/
theorem abs_shadow_sub_le {x : Float32} (hx : IsWithin 19 x) : |value (x + 4) - value x| ≤ 5 := by
  have hfour : value (4 : Float32) = 4 := Number.value_ofNat (n := 4) (by decide)
  have hmoved : |value (x + 4) - (value x + value (4 : Float32))| ≤ _ := hx.abs_add_sub_le
    (Number.isWithin_ofNat_of_le (n := 4) (k := 19) (by decide) (by decide)) (by decide)
  rw [hfour] at hmoved
  norm_num [abs_le] at hmoved ⊢
  constructor
  · linarith
  · linarith

section margins

variable {low high : Float32} (hlow : IsWithin 20 low) (hhigh : IsWithin 20 high)

include hlow

/-- How far drawings are moved, up to rounding. -/
theorem abs_shift_sub_le : |value (Look.margin - low) - (50 - value low)| ≤ 1 / 8 + 1 / 1000 := by
  have hfifty : IsWithin 20 Look.margin :=
    Number.isWithin_ofNat_of_le (n := 50) (by decide) (by decide)
  have herror := hfifty.abs_sub_sub_le hlow (by decide)
  rw [Look.margin, Number.value_fifty.2] at herror
  rw [Look.margin]
  norm_num at herror ⊢
  linarith

include hhigh

/-- How large a view box is, up to rounding. -/
theorem abs_extent_sub_le : |value (Look.margin * 2 + (high - low)) -
    (100 + (value high - value low))| ≤ 3 / 8 + 1 / 1000 := by
  have hexact : Number.exact (Look.margin * 2) = .finite false 13107200 (-17) := by decide +kernel
  have hundred : value (Look.margin * 2) = 100 := by
    rw [Number.value_of_exact hexact]
    norm_num
  have hmargins : IsWithin 21 (Look.margin * 2) := Number.isWithin_of_exact hexact (by norm_num)
  have hdifference := hhigh.abs_sub_sub_le hlow (by decide)
  have hsum := hmargins.abs_add_sub_le (hhigh.sub hlow (by decide)).2 (by decide)
  rw [hundred] at hsum
  have hsplit := abs_sub_le (value (Look.margin * 2 + (high - low))) (100 + value (high - low))
    (100 + (value high - value low))
  rw [add_sub_add_left_eq_sub] at hsplit
  norm_num at hdifference hsum hsplit ⊢
  linarith

/-- What keeps a margin of little more than half a unit is seen. -/
theorem lies_of_le {start extent : Float32} (hstart : value low - 49.49 ≤ value start)
    (hfinish : value start + value extent ≤ value high + 49.49) :
    Lies start extent (Look.margin - low) (Look.margin * 2 + (high - low)) := by
  have hshift := abs_le.1 (abs_shift_sub_le hlow)
  have hextent := abs_le.1 (abs_extent_sub_le hlow hhigh)
  norm_num at hshift hextent hstart hfinish
  constructor
  · linarith
  · linarith

/-- What is more than little more than half a unit beyond the margin sticks out. -/
theorem not_lies_of_lt {start extent : Float32} (h : value start < value low - 50.51 ∨
    value high + 50.51 < value start + value extent) :
    ¬ Lies start extent (Look.margin - low) (Look.margin * 2 + (high - low)) := by
  have hshift := abs_le.1 (abs_shift_sub_le hlow)
  have hextent := abs_le.1 (abs_extent_sub_le hlow hhigh)
  rintro ⟨hstart, hfinish⟩
  norm_num at hshift hextent h
  rcases h with h | h
  · linarith
  · linarith

/-- The box of a node, or its shadow, is seen. -/
theorem lies_box {first last start : Float32} (hfirst : IsWithin 20 first)
    (hlast : IsWithin 20 last) (hbegins : value low ≤ value first) (hends : value last ≤ value high)
    (hnear : |value start - value first| ≤ 5) :
    Lies start (last - first) (Look.margin - low) (Look.margin * 2 + (high - low)) := by
  have hextent := abs_le.1 (hlast.abs_sub_sub_le hfirst (by decide))
  obtain ⟨hnear, hnear'⟩ := abs_le.1 hnear
  norm_num at hextent
  refine lies_of_le hlow hhigh ?_ ?_
  · norm_num
    linarith
  · norm_num
    linarith

end margins

/-! ### Plates -/

/-- How far a plate reaches to both sides of its center, given the extent of its label. -/
noncomputable def plateReach (extent : Float32) : ℝ := 0.5 * value extent + 5

/-- How much room there is to both sides of a number between two bounds with their margins. -/
noncomputable def room (low high center : Float32) : ℝ :=
  50 + min (value center - value low) (value high - value center)

/-- What reaches to both sides is seen if there is room for one more than that, and it is not seen
if there is room for less than one less. -/
structure FitsUpToOne (reach room : ℝ) (seen : Prop) : Prop where
  seen_of_le : reach + 1 ≤ room → seen
  not_seen_of_lt : room + 1 < reach → ¬ seen

section plates

variable {center extent : Float32} (hcenter : IsWithin 20 center) (hextent : IsWithin 17 extent)

include hcenter hextent

/-- A plate reaches to both sides by half of its label and five more, up to rounding. -/
theorem plate_spec :
    |value (center - extent / 2 - 5) - (value center - plateReach extent)| ≤ 0.38 ∧
      |value (center - extent / 2 - 5) + value (extent + 10) -
        (value center + plateReach extent)| ≤ 0.4 := by
  have hfive : IsWithin 21 (5 : Float32) :=
    Number.isWithin_ofNat_of_le (n := 5) (k := 21) (by decide) (by decide)
  have hten : IsWithin 17 (10 : Float32) :=
    Number.isWithin_ofNat_of_le (n := 10) (k := 17) (by decide) (by decide)
  have hfiveValue : value (5 : Float32) = 5 := Number.value_ofNat (n := 5) (by decide)
  have htenValue : value (10 : Float32) = 10 := Number.value_ofNat (n := 10) (by decide)
  obtain ⟨hhalf, hhalfWithin⟩ := hextent.half (k := 16) (by decide)
  have hhalfLe : |value extent / 2| ≤ 2 ^ 16 := by
    have hle := hextent.le
    rw [abs_div, abs_two]
    norm_num at hle ⊢
    linarith
  have hwide : IsWithin 20 (extent / 2) := hhalfWithin.mono (by decide)
  have hmoved := hcenter.abs_sub_sub_le hwide (by decide)
  have hstart := (hcenter.sub hwide (by decide)).2.abs_sub_sub_le hfive (by decide)
  have hfinish := hextent.abs_add_sub_le hten (by decide)
  rw [hfiveValue] at hstart
  rw [htenValue] at hfinish
  have hhalfError : |value (extent / 2) - value extent / 2| ≤ 2 ^ 16 / 2 ^ 24 + 1 / 2 ^ 150 :=
    hhalf.abs_sub_le_of_le hhalfLe
  rw [plateReach]
  norm_num [abs_le] at hhalfError hmoved hstart hfinish ⊢
  refine ⟨⟨?_, ?_⟩, ?_, ?_⟩
  · linarith
  · linarith
  · linarith
  · linarith

variable {low high : Float32} (hlow : IsWithin 20 low) (hhigh : IsWithin 20 high)

include hlow hhigh

/-- A plate is seen exactly if there is room for it, up to one. -/
theorem fits_plate : FitsUpToOne (plateReach extent) (room low high center)
    (Lies (center - extent / 2 - 5) (extent + 10) (Look.margin - low)
      (Look.margin * 2 + (high - low))) where
  seen_of_le := by
    intro h
    obtain ⟨hstart, hfinish⟩ := plate_spec hcenter hextent
    have hleft := min_le_left (value center - value low) (value high - value center)
    have hright := min_le_right (value center - value low) (value high - value center)
    rw [room] at h
    norm_num [abs_le] at hstart hfinish
    refine lies_of_le hlow hhigh ?_ ?_
    · norm_num
      linarith
    · norm_num
      linarith
  not_seen_of_lt := by
    intro h
    obtain ⟨hstart, hfinish⟩ := plate_spec hcenter hextent
    rw [room] at h
    norm_num [abs_le] at hstart hfinish
    refine not_lies_of_lt hlow hhigh ?_
    rcases min_choice (value center - value low) (value high - value center) with hmin | hmin
    · rw [hmin] at h
      refine .inl ?_
      norm_num
      linarith
    · rw [hmin] at h
      refine .inr ?_
      norm_num
      linarith

end plates

/-! ### Diagrams -/

/-- Where the plate under a label is drawn. -/
def Look.plateFrame (center : Point Float32) (size : Size Float32) : Frame :=
  ⟨⟨center.x - size.width / 2 - 5, center.y - size.height / 2 - 5⟩,
    ⟨size.width + 10, size.height + 10⟩⟩

theorem Look.frame?_plate (center : Point Float32) (size : Size Float32) :
    (plate center size).frame? = some (plateFrame center size) := rfl

/-- A rectangle is drawn somewhere, and seen as a whole there. -/
def Window.Sees (w : Window) (r : Markup) : Prop := ∃ f, r.frame? = some f ∧ w.Holds f

theorem Window.sees_plate_iff {w : Window} {center : Point Float32} {size : Size Float32} :
    w.Sees (Look.plate center size) ↔ w.Holds (Look.plateFrame center size) := by
  rw [Sees, Look.frame?_plate]
  simp only [Option.some.injEq, exists_eq_left']

namespace Diagram

/-- How much room there is to the left and to the right of a point, up to the ends of the view
box. -/
noncomputable def roomAcross (d : Diagram Float32) (center : Point Float32) : ℝ :=
  room d.bounds.minX d.bounds.maxX center.x

/-- How much room there is above and below a point, up to the ends of the view box. -/
noncomputable def roomAlong (d : Diagram Float32) (center : Point Float32) : ℝ :=
  room d.bounds.minY d.bounds.maxY center.y

namespace IsKept

variable {style : Style} {d : Diagram Float32} (h : d.IsKept style)

include h

/-- The box of a diagram is not too large, and encloses nodes and curves. -/
theorem bounds_spec : d.bounds.IsWithin 20 ∧
    (∀ id n, d.nodes.get? id = some n → d.bounds.Encloses n.box) ∧
    ∀ id route, d.routes.get? id = some route → d.bounds.Encloses route.curve.bounds := by
  have hnode : ∀ {n : Node Float32}, n.IsWithin 19 → n.box.IsWithin 20 := fun hn =>
    ⟨hn.box.minX.mono (by decide), hn.box.minY.mono (by decide), hn.box.maxX.mono (by decide),
      hn.box.maxY.mono (by decide)⟩
  have hboxes : ∀ b ∈ d.boxes, b.IsWithin 20 := by
    simp only [boxes, Catalog.values, List.map_map, List.mem_append, List.mem_map, Prod.exists,
      Function.comp_apply]
    rintro b (⟨id, n, hn, rfl⟩ | ⟨id, route, hroute, rfl⟩)
    · exact hnode (h.node id n (Catalog.get?_eq_some_iff.2 hn))
    · exact (h.route id route (Catalog.get?_eq_some_iff.2 hroute)).bounds
  obtain ⟨hwithin, hencloses⟩ := Box.hull_spec hboxes
  refine ⟨hwithin, fun id n hn => hencloses _ ?_, fun id route hroute => hencloses _ ?_⟩
  · exact List.mem_append_left _ (List.mem_map_of_mem
      (List.mem_map_of_mem (f := Prod.snd) (Catalog.get?_eq_some_iff.1 hn)))
  · exact List.mem_append_right _ (List.mem_map_of_mem (f := fun r : Route Float32 => r.curve.bounds)
      (List.mem_map_of_mem (f := Prod.snd) (Catalog.get?_eq_some_iff.1 hroute)))

/-- **Nodes and shadows are seen as a whole.** -/
theorem sees_node {look : Look} {id : Id} {n : Node Float32} (hn : d.nodes.get? id = some n)
    {r : Markup} (hr : r ∈ (look.node d.appearance id n).rectangles) : d.window.Sees r := by
  obtain ⟨hbounds, hnodes, -⟩ := h.bounds_spec
  have hbox := (h.node id n hn).box
  have hencloses := hnodes id n hn
  have hwide : ∀ {x : Float32}, IsWithin 19 x → IsWithin 20 x := fun hx => hx.mono (by decide)
  have hat : ∀ corner : Point Float32, |value corner.x - value n.box.minX| ≤ 5 →
      |value corner.y - value n.box.minY| ≤ 5 → d.window.Holds ⟨corner, n.box.size⟩ := by
    intro corner hx hy
    exact ⟨lies_box hbounds.minX hbounds.maxX (hwide hbox.minX) (hwide hbox.maxX) hencloses.minX
      hencloses.maxX hx, lies_box hbounds.minY hbounds.maxY (hwide hbox.minY) (hwide hbox.maxY)
      hencloses.minY hencloses.maxY hy⟩
  obtain ⟨shadows, filled, hrectangles, hshadows, hfilled⟩ := look.rectangles_node d.appearance id n
  rw [hrectangles, List.mem_append, List.mem_singleton] at hr
  rcases hr with hr | rfl
  · exact ⟨_, hshadows r hr, hat _ (abs_shadow_sub_le hbox.minX) (abs_shadow_sub_le hbox.minY)⟩
  · exact ⟨_, hfilled, hat _ (by simp) (by simp)⟩

section labels

variable {label : String} {center : Point Float32} (hat : d.HasLabelAt label center)

include hat

/-- Where the label of an edge is, and how large it is. -/
theorem label_spec : center.IsWithin 20 ∧ d.bounds.HoldsUpTo 1 center ∧
    '\n' ∉ label.toList ∧ (labelSize style label d.appearance.typeface).IsOrdinary := by
  obtain ⟨id, e, route, he, hlabel, hroute, rfl⟩ := hat
  have hkept := h.route id route hroute
  exact ⟨hkept.labelAt, (h.bounds_spec.2.2 id route hroute).holdsUpTo hkept.holds,
    h.label id e he label hlabel⟩

/-- A plate is seen from left to right exactly if there is room for it, up to one. -/
theorem fits_across :
    FitsUpToOne (plateReach (labelSize style label d.appearance.typeface).width)
      (d.roomAcross center) (d.window.HoldsAcross
        (Look.plateFrame center (labelSize style label d.appearance.typeface))) := by
  obtain ⟨hcenter, -, -, hsize⟩ := h.label_spec hat
  obtain ⟨hbounds, -⟩ := h.bounds_spec
  exact fits_plate hcenter.x hsize.isWithin.1 hbounds.minX hbounds.maxX

/-- A plate is seen from top to bottom exactly if there is room for it, up to one. -/
theorem fits_along :
    FitsUpToOne (plateReach (labelSize style label d.appearance.typeface).height)
      (d.roomAlong center) (d.window.HoldsAlong
        (Look.plateFrame center (labelSize style label d.appearance.typeface))) := by
  obtain ⟨hcenter, -, -, hsize⟩ := h.label_spec hat
  obtain ⟨hbounds, -⟩ := h.bounds_spec
  exact fits_plate hcenter.y hsize.isWithin.2 hbounds.minY hbounds.maxY

/-- There is as much room as the margin everywhere, but for one. -/
theorem le_room : 49 ≤ d.roomAcross center ∧ 49 ≤ d.roomAlong center := by
  obtain ⟨-, hholds, -⟩ := h.label_spec hat
  constructor
  · have hmin : -1 ≤ min (value center.x - value d.bounds.minX)
        (value d.bounds.maxX - value center.x) :=
      le_min (by linarith [hholds.left]) (by linarith [hholds.right])
    rw [roomAcross, room]
    linarith
  · have hmin : -1 ≤ min (value center.y - value d.bounds.minY)
        (value d.bounds.maxY - value center.y) :=
      le_min (by linarith [hholds.top]) (by linarith [hholds.bottom])
    rw [roomAlong, room]
    linarith

/-- Without fonts there is room for eight characters everywhere. -/
theorem holds_plate_of_estimated {fonts : Fonts} (hstyle : style = { fonts })
    (hestimated : labelSize style label d.appearance.typeface = estimatedSize style label)
    (hlength : label.length ≤ 8) :
    d.window.Holds (Look.plateFrame center (labelSize style label d.appearance.typeface)) := by
  obtain ⟨-, -, hline, -⟩ := h.label_spec hat
  obtain ⟨hacross, halong⟩ := h.le_room hat
  obtain ⟨hwidth, -, hheight⟩ := estimatedSize_spec fonts hline (hlength.trans (by decide))
  have hlength' : (label.length : ℝ) ≤ 8 := by exact_mod_cast hlength
  rw [← hstyle, ← hestimated] at hwidth hheight
  norm_num [abs_le] at hwidth hheight
  refine ⟨(h.fits_across hat).seen_of_le ?_, (h.fits_along hat).seen_of_le ?_⟩
  · rw [plateReach]
    linarith
  · rw [plateReach]
    linarith

end labels

/-- **What is seen of a diagram.**  Everything is seen as a whole, unless a plate sticks out. -/
theorem forall_sees_iff {look : Look} (hstyle : look.style = style) :
    (∀ r ∈ (look.layers d).flatMap Markup.rectangles, d.window.Sees r) ↔
      ∀ label center, d.HasLabelAt label center → d.window.Holds
        (Look.plateFrame center (labelSize style label d.appearance.typeface)) := by
  subst hstyle
  constructor
  · intro hall label center hat
    exact Window.sees_plate_iff.1
      (hall _ ((look.mem_rectangles_layers_iff d).2 (.inr ⟨label, center, hat, rfl⟩)))
  · intro hplates r hr
    rcases (look.mem_rectangles_layers_iff d).1 hr with ⟨id, n, hn, hr⟩ | ⟨label, center, hat, rfl⟩
    · exact h.sees_node hn hr
    · exact Window.sees_plate_iff.2 (hplates label center hat)

end IsKept

end Diagram

/-! ### Texts -/

namespace Configuration

/-- **What is seen of a text.**  Whatever the fonts are, a text of an ordinary size is laid out and
drawn by default.  All nodes, groups and shadows in its picture are seen as a whole.  The plate under
the label of an edge is seen from left to right if there is room for half of the label and five more
to both sides, and from top to bottom likewise; it sticks out if there is no room for that, up to
one.  There is room for 49 everywhere, so a label that is estimated without fonts is seen if it has
no more than eight characters.  Everything is seen as a whole exactly if all plates are. -/
theorem exists_picture_sees (fonts : Fonts) (service : LayoutService) (text : String) :
    let c := ({} : Configuration).withFonts fonts
    ∃ document, Configuration.read text = .ok document ∧ (document.IsModest c.style →
      ∃ (d : Diagram Float32) (look : Look),
        c.layOut? service document = some (.ok d) ∧
        Look.ofStyle c.style = .ok look ∧
        c.draw d = .ok (look.picture d).print ∧
        d.window.Shows (look.picture d) (look.layers d) ∧
        (∀ id n, d.nodes.get? id = some n →
          ∀ r ∈ (look.node d.appearance id n).rectangles, d.window.Sees r) ∧
        (∀ label center, d.HasLabelAt label center →
          let size := labelSize c.style label d.appearance.typeface
          let frame := Look.plateFrame center size
          FitsUpToOne (plateReach size.width) (d.roomAcross center) (d.window.HoldsAcross frame) ∧
          FitsUpToOne (plateReach size.height) (d.roomAlong center) (d.window.HoldsAlong frame) ∧
          49 ≤ d.roomAcross center ∧ 49 ≤ d.roomAlong center ∧
          (size = estimatedSize c.style label → label.length ≤ 8 → d.window.Holds frame)) ∧
        ((∀ r ∈ (look.layers d).flatMap Markup.rectangles, d.window.Sees r) ↔
          ∀ label center, d.HasLabelAt label center → d.window.Holds
            (Look.plateFrame center (labelSize c.style label d.appearance.typeface)))) := by
  intro c
  obtain ⟨document, hdocument, -⟩ := Document.exists_isSound text
  have hread : Configuration.read text = .ok document := by rw [Configuration.read, hdocument]
  refine ⟨document, hread, fun hmodest => ?_⟩
  obtain ⟨d, hd, hkept⟩ := exists_layOut?_isKept fonts hread hmodest service
  have hlook : Look.ofStyle c.style = .ok (Look.gray fonts) := Look.ofStyle_gray fonts
  have hdraw : c.draw d = .ok ((Look.gray fonts).picture d).print := by
    rw [draw, Diagram.svg, hlook]
  refine ⟨d, Look.gray fonts, hd, hlook, hdraw, (Look.gray fonts).shows_picture d,
    fun id n hn r hr => hkept.sees_node hn hr, fun label center hat => ?_,
    hkept.forall_sees_iff rfl⟩
  obtain ⟨hacross, halong⟩ := hkept.le_room hat
  exact ⟨hkept.fits_across hat, hkept.fits_along hat, hacross, halong,
    hkept.holds_plate_of_estimated hat rfl⟩

/-- Fonts all of whose glyphs are as wide as a given share of the font size. -/
def fixedFonts (share : Float32) : Fonts where
  shape text fontSize _ _ :=
    [text.toList.mapIdx fun i _ => ⟨Float32.ofNat i * (fontSize * share), fontSize * share⟩]

/-- A loop with a short label, on a node with a shadow, in fonts of half the font size. -/
theorem exists_picture_sees_of_loop :
    let service : LayoutService := fun _ => .error .empty
    let c := ({} : Configuration).withFonts (fixedFonts 0.5)
    ∃ document d, ∃ look : Look, Configuration.read "Job > Job: Retries" = .ok document ∧
      document.IsModest c.style ∧ c.layOut? service document = some (.ok d) ∧
      d.window.Shows (look.picture d) (look.layers d) ∧
      (∃ center, d.HasLabelAt "Retries" center) ∧
      ∀ r ∈ (look.layers d).flatMap Markup.rectangles, d.window.Sees r := by
  intro service c
  obtain ⟨document, d, hread, hd, hmodest, hedges, hroute, hwidth, hheight⟩ :=
    exists_layOut?_of_any c service "Job > Job: Retries" (fun document d =>
      let size := labelSize c.style "Retries" d.appearance.typeface
      document.IsModest c.style ∧
        d.edges.entries.map (fun p => (p.1, p.2.label)) = [("edge_Job_Job_0", some "Retries")] ∧
        (d.routes.get? "edge_Job_Job_0").isSome ∧
        Number.exact size.width = .finite false 8541962 (-17) ∧
        Number.exact size.height = .finite false 11226579 (-19)) (by decide +kernel)
  obtain ⟨route, hroute⟩ := Option.isSome_iff_exists.1 hroute
  obtain ⟨⟨id, e⟩, hentries, hedge⟩ := List.map_eq_singleton_iff.1 hedges
  obtain ⟨rfl, hlabel⟩ := Prod.mk.inj hedge
  obtain ⟨_, hsame, hseen⟩ :=
    exists_picture_sees (fixedFonts 0.5) service "Job > Job: Retries"
  obtain rfl := Except.ok.inj (hread.symm.trans hsame)
  obtain ⟨d', look, hd', -, -, hshows, -, hplates, hiff⟩ := hseen hmodest
  obtain rfl := Except.ok.inj (Option.some.inj (hd.symm.trans hd'))
  have hget : d.edges.get? "edge_Job_Job_0" = some e :=
    Catalog.get?_eq_some_iff.2 (hentries ▸ List.mem_singleton_self _)
  refine ⟨document, d, look, hread, hmodest, hd, hshows,
    ⟨_, _, e, route, hget, hlabel, hroute, rfl⟩, hiff.2 ?_⟩
  -- there is no other label, and this one needs less room than there is everywhere
  intro label center hat
  obtain ⟨hacross, halong, hroomAcross, hroomAlong, -⟩ := hplates label center hat
  obtain ⟨id, f, route', hf, hlabel', -⟩ := hat
  have hmem := Catalog.get?_eq_some_iff.1 hf
  rw [hentries, List.mem_singleton] at hmem
  obtain ⟨-, rfl⟩ := Prod.mk.inj hmem
  obtain rfl := Option.some.inj (hlabel.symm.trans hlabel')
  have hwide := Number.value_of_exact hwidth
  have hhigh := Number.value_of_exact hheight
  norm_num at hwide hhigh
  refine ⟨hacross.seen_of_le ?_, halong.seen_of_le ?_⟩
  · rw [plateReach]
    linarith
  · rw [plateReach]
    linarith

/-- Not everything is seen of a loop with a long label: without fonts, its plate sticks out to the
right. -/
theorem not_forall_sees : ¬ ∀ (fonts : Fonts) (service : LayoutService) (text : String)
    (document : Document) (d : Diagram Float32) (look : Look),
    let c := ({} : Configuration).withFonts fonts
    Configuration.read text = .ok document → c.layOut? service document = some (.ok d) →
    Look.ofStyle c.style = .ok look → d.window.Shows (look.picture d) (look.layers d) →
    ∀ r ∈ (look.layers d).flatMap Markup.rectangles, d.window.Sees r := by
  intro hall
  let service : LayoutService := fun _ => .error .empty
  let label := "Retries with exponential backoff"
  obtain ⟨document, d, hread, hd, e, he, route, hroute, hlabel, hcorner, hwidth, hshift, hextent⟩ :=
    exists_layOut?_of_any {} service "Job > Job: Retries with exponential backoff" (fun _ d =>
      ∃ e ∈ d.edges.get? "edge_Job_Job_0", ∃ route ∈ d.routes.get? "edge_Job_Job_0",
        let plate := Look.plateFrame route.labelAt (labelSize {} label d.appearance.typeface)
        e.label = some label ∧ Number.exact plate.corner.x = .finite false 12996032 (-20) ∧
          Number.exact plate.size.width = .finite false 11066148 (-15) ∧
          Number.exact d.window.shift.x = .finite false 0 (-149) ∧
          Number.exact d.window.size.width = .finite false 9830400 (-15)) (by decide +kernel)
  let look := Look.gray .none
  have hplate := hall .none service _ document d look hread hd
    (Look.ofStyle_gray .none) (look.shows_picture d) _ ((look.mem_rectangles_layers_iff d).2
      (.inr ⟨label, route.labelAt, ⟨_, e, route, he, hlabel, hroute, rfl⟩, rfl⟩))
  have hacross := (Window.sees_plate_iff.1 hplate).1.2
  change value (Look.plateFrame route.labelAt (labelSize {} label d.appearance.typeface)).corner.x +
    value (Look.plateFrame route.labelAt (labelSize {} label d.appearance.typeface)).size.width +
      _ ≤ _ at hacross
  rw [Number.value_of_exact hcorner, Number.value_of_exact hwidth, Number.value_of_exact hshift,
    Number.value_of_exact hextent] at hacross
  norm_num at hacross

end Configuration

end TextDiagram
