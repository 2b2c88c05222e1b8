/-
**How far routes reach.**

A route does not reach much further out than the nodes that it joins: its control points are moved
away from its ends by no more than the nodes are large, or by some steps for the edges that it has to
make way for.  The label of a route lies between the points of its curve, up to rounding, even
though the box of the curve knows nothing of the label.

Main definitions:

* `TextDiagram.Route.IsKept` — a route that is not too large, with its label in the box of its curve.

Main results:

* `TextDiagram.Route.isKept_direct`, `TextDiagram.Route.isKept_bowed`,
  `TextDiagram.Route.isKept_loop` — the three shapes;
* `TextDiagram.isKept_of_get?_routes` — **every route between nodes that are not too large is
  kept**.
-/

import TextDiagram.Proofs.Diagram.Coincidence

set_option relaxedAutoImplicit false
set_option autoImplicit false

namespace TextDiagram

open Number (value IsWithin)
open Diagram (Node Edge)

/-! ### Points between points -/

namespace Box

variable {b : Box Float32} {p q r : Point Float32} {slack : ℝ}

theorem HoldsUpTo.mono {slack' : ℝ} (h : b.HoldsUpTo slack p) (hle : slack ≤ slack') :
    b.HoldsUpTo slack' p :=
  ⟨(sub_le_sub_left hle _).trans h.left, (sub_le_sub_left hle _).trans h.top,
    h.right.trans (add_le_add_right hle _), h.bottom.trans (add_le_add_right hle _)⟩

/-- A point halfway between two points of a box, up to an error. -/
theorem HoldsUpTo.of_mean (hp : b.HoldsUpTo 0 p) (hq : b.HoldsUpTo 0 q)
    (hx : |value r.x - (value p.x + value q.x) / 2| ≤ slack)
    (hy : |value r.y - (value p.y + value q.y) / 2| ≤ slack) : b.HoldsUpTo slack r := by
  obtain ⟨hleft, htop, hright, hbottom⟩ := hp
  obtain ⟨hleft', htop', hright', hbottom'⟩ := hq
  obtain ⟨hx, hx'⟩ := abs_le.1 hx
  obtain ⟨hy, hy'⟩ := abs_le.1 hy
  exact ⟨by linarith, by linarith, by linarith, by linarith⟩

/-- A point in the middle of a cubic curve, the points of which are in a box, up to an error. -/
theorem HoldsUpTo.of_middle {s c₁ c₂ f : Point Float32} (hs : b.HoldsUpTo 0 s)
    (h₁ : b.HoldsUpTo 0 c₁) (h₂ : b.HoldsUpTo 0 c₂) (hf : b.HoldsUpTo 0 f)
    (hx : |value r.x - (value s.x + 3 * value c₁.x + 3 * value c₂.x + value f.x) / 8| ≤ slack)
    (hy : |value r.y - (value s.y + 3 * value c₁.y + 3 * value c₂.y + value f.y) / 8| ≤ slack) :
    b.HoldsUpTo slack r := by
  obtain ⟨hleft, htop, hright, hbottom⟩ := hs
  obtain ⟨hleft₁, htop₁, hright₁, hbottom₁⟩ := h₁
  obtain ⟨hleft₂, htop₂, hright₂, hbottom₂⟩ := h₂
  obtain ⟨hleft', htop', hright', hbottom'⟩ := hf
  obtain ⟨hx, hx'⟩ := abs_le.1 hx
  obtain ⟨hy, hy'⟩ := abs_le.1 hy
  exact ⟨by linarith, by linarith, by linarith, by linarith⟩

end Box

/-! ### Routes -/

namespace Route

/-- A route whose points are not larger than `2 ^ 20`, with its label in the box of its curve, or
not further than one away from it. -/
structure IsKept (r : Route Float32) : Prop where
  points : ∀ p ∈ r.curve.points, p.IsWithin 20
  labelAt : r.labelAt.IsWithin 20
  holds : r.curve.bounds.HoldsUpTo 1 r.labelAt

theorem IsKept.bounds {r : Route Float32} (h : r.IsKept) : r.curve.bounds.IsWithin 20 :=
  (Curve.bounds_spec (by decide) h.points).1

section

variable {source target : Node Float32} (hs : source.IsWithin 19) (ht : target.IsWithin 19)

include hs ht

/-- The label of a straight edge lies halfway between its ends. -/
theorem isKept_direct : (direct source target).IsKept := by
  obtain ⟨hstart, hfinish⟩ := ends_isWithin hs ht (by decide)
  obtain ⟨hmiddle, -, hx, hy⟩ := hstart.midpoint hfinish (by decide)
  have hcontrol := isWithin_control (k := 10) hstart hfinish (by decide)
    (ends source target).sourceSide
  have hcontrol' := isWithin_control (k := 10) hfinish hstart (by decide)
    (ends source target).targetSide
  have hpoints : ∀ p ∈ (direct source target).curve.points, p.IsWithin 20 := by
    rw [curve_direct, Curve.forall_mem_points_cubic]
    exact ⟨hstart.mono (by decide), hcontrol, hcontrol', hfinish.mono (by decide)⟩
  have hbounds := (Curve.bounds_spec (by decide) hpoints).2
  rw [curve_direct, Curve.forall_mem_points_cubic] at hbounds
  obtain ⟨hs, -, -, hf⟩ := hbounds
  refine ⟨hpoints, hmiddle.mono (by decide), ?_⟩
  have hends : (direct source target).curve.bounds.HoldsUpTo (2 ^ (19 : ℤ) / 2 ^ 22)
      (direct source target).labelAt := .of_mean hs hf hx hy
  exact hends.mono (by norm_num)

/-- The label of a bent edge lies at its control point. -/
theorem isKept_bowed (e : Edge) {multiple : ℕ} (hm : multiple ≤ 2 ^ 12) :
    (bowed e source target multiple).IsKept := by
  obtain ⟨hstart, hfinish⟩ := ends_isWithin hs ht (by decide)
  have hmiddle := (hstart.midpoint hfinish (by decide)).1
  have hacross := (across_long (isWithin_axis hs ht (by decide) e)).1
  obtain ⟨hfinite, hlow, hhigh, -⟩ := bow_spec (isWithin_ends_sub hs ht (by decide))
  have hfar := (isWithin_bow hfinite hlow hhigh).mul
    (Number.isWithin_ofNat_of_le (k := 12) (by decide) hm) (by decide)
  have hturn : IsWithin 0 (turn e) :=
    ⟨(turn_spec e).1, by rw [(turn_spec e).2, zpow_zero]⟩
  have hoffset := (hfar.2.mul hturn (by decide)).2
  have hcontrol : ((arch e source target).control multiple).IsWithin 20 :=
    ⟨(hmiddle.x.add (hacross.x.mul hoffset (by decide)).2 (by decide)).2,
      (hmiddle.y.add (hacross.y.mul hoffset (by decide)).2 (by decide)).2⟩
  have hpoints : ∀ p ∈ (bowed e source target multiple).curve.points, p.IsWithin 20 := by
    rw [curve_bowed, Curve.forall_mem_points_quadratic]
    exact ⟨hstart.mono (by decide), hcontrol, hfinish.mono (by decide)⟩
  have hbounds := (Curve.bounds_spec (by decide) hpoints).2
  rw [curve_bowed, Curve.forall_mem_points_quadratic] at hbounds
  exact ⟨hpoints, hcontrol, hbounds.2.1.mono zero_le_one⟩

end

end Route

/-! ### Loops -/

/-- The point in the middle of a cubic curve, in one coordinate, as it is computed: the weights are
exact, but the products and sums are rounded. -/
theorem Number.middle_spec {a b c d w₀ w₁ w₂ w₃ : Float32} (ha : IsWithin 19 a) (hb : IsWithin 20 b)
    (hc : IsWithin 20 c) (hd : IsWithin 19 d) (h₀ : IsWithin (-3) w₀ ∧ value w₀ = 1 / 8)
    (h₁ : IsWithin (-1) w₁ ∧ value w₁ = 3 / 8) (h₂ : IsWithin (-1) w₂ ∧ value w₂ = 3 / 8)
    (h₃ : IsWithin (-3) w₃ ∧ value w₃ = 1 / 8) :
    IsWithin 20 (a * w₀ + b * w₁ + c * w₂ + d * w₃) ∧
      |value (a * w₀ + b * w₁ + c * w₂ + d * w₃) -
        (value a + 3 * value b + 3 * value c + value d) / 8| ≤ 1 := by
  have hp₀ := ha.abs_mul_sub_le h₀.1 (by decide)
  have hp₁ := hb.abs_mul_sub_le h₁.1 (by decide)
  have hp₂ := hc.abs_mul_sub_le h₂.1 (by decide)
  have hp₃ := hd.abs_mul_sub_le h₃.1 (by decide)
  have hw₀ : IsWithin 19 (a * w₀) := (ha.mul h₀.1 (by decide)).2.mono (by decide)
  have hw₁ : IsWithin 19 (b * w₁) := (hb.mul h₁.1 (by decide)).2
  have hw₂ : IsWithin 20 (c * w₂) := (hc.mul h₂.1 (by decide)).2.mono (by decide)
  have hw₃ : IsWithin 21 (d * w₃) := (hd.mul h₃.1 (by decide)).2.mono (by decide)
  have hsum := (hw₀.add hw₁ (by decide)).2
  have hsum' := (hsum.add hw₂ (by decide)).2
  have hs₁ := hw₀.abs_add_sub_le hw₁ (by decide)
  have hs₂ := hsum.abs_add_sub_le hw₂ (by decide)
  have hs₃ := hsum'.abs_add_sub_le hw₃ (by decide)
  rw [h₀.2] at hp₀
  rw [h₁.2] at hp₁
  rw [h₂.2] at hp₂
  rw [h₃.2] at hp₃
  have herror : |value (a * w₀ + b * w₁ + c * w₂ + d * w₃) -
      (value a + 3 * value b + 3 * value c + value d) / 8| ≤ 1 := by
    norm_num [abs_le] at hp₀ hp₁ hp₂ hp₃ hs₁ hs₂ hs₃ ⊢
    constructor
    · linarith
    · linarith
  have hfinite := (hsum'.add hw₃ (by decide)).2.finite
  refine ⟨⟨hfinite, ?_⟩, herror⟩
  -- the ends have a quarter of the weight, and are half as far away at most
  have ha' := ha.le
  have hb' := hb.le
  have hc' := hc.le
  have hd' := hd.le
  norm_num [abs_le] at ha' hb' hc' hd' herror ⊢
  constructor
  · linarith
  · linarith

/-- The weights of the four points of a cubic curve in its middle. -/
theorem Curve.weights_spec :
    let t : Float32 := 0.5
    let u := Float32.ofNat 1 - t
    (IsWithin (-3) (u * u * u) ∧ value (u * u * u) = 1 / 8) ∧
      (IsWithin (-1) (Float32.ofNat 3 * u * u * t) ∧ value (Float32.ofNat 3 * u * u * t) = 3 / 8) ∧
      (IsWithin (-1) (Float32.ofNat 3 * u * t * t) ∧ value (Float32.ofNat 3 * u * t * t) = 3 / 8) ∧
      (IsWithin (-3) (t * t * t) ∧ value (t * t * t) = 1 / 8) := by
  intro t u
  have heighth : ∀ {w : Float32}, Number.exact w = .finite false 8388608 (-26) →
      IsWithin (-3) w ∧ value w = 1 / 8 := by
    intro w h
    refine ⟨Number.isWithin_of_exact h (by norm_num), ?_⟩
    rw [Number.value_of_exact h]
    norm_num
  have hthree : ∀ {w : Float32}, Number.exact w = .finite false 12582912 (-25) →
      IsWithin (-1) w ∧ value w = 3 / 8 := by
    intro w h
    refine ⟨Number.isWithin_of_exact h (by norm_num), ?_⟩
    rw [Number.value_of_exact h]
    norm_num
  exact ⟨heighth (by decide +kernel), hthree (by decide +kernel), hthree (by decide +kernel),
    heighth (by decide +kernel)⟩

namespace Route

/-- The label of a loop lies in the middle of its curve. -/
theorem isKept_loop {node : Node Float32} (h : node.IsWithin 19) {rank : ℕ} (hrank : rank < 2 ^ 12) :
    (loop node rank).IsKept := by
  have hstart := h.anchor (by decide) .top .source
  have hfinish := h.anchor (by decide) .right .target
  have hfifty : IsWithin 6 (50 : Float32) :=
    ⟨Number.value_fifty.1, by rw [Number.value_fifty.2]; norm_num⟩
  have hreach : IsWithin 19 (loopReach rank) :=
    (hfifty.mul (Number.isWithin_ofNat_of_le (k := 12) (by decide) hrank) (by decide)).2.mono
      (by decide)
  have hzero := Number.isWithin_zero 19
  have hfirst : (node.anchor .top .source + ⟨0, -loopReach rank⟩).IsWithin 20 :=
    hstart.add ⟨hzero, hreach.neg.2⟩ (by decide)
  have hsecond : (node.anchor .right .target + ⟨loopReach rank, 0⟩).IsWithin 20 :=
    hfinish.add ⟨hreach, hzero⟩ (by decide)
  have hpoints : ∀ p ∈ (loop node rank).curve.points, p.IsWithin 20 := by
    rw [curve_loop, Curve.forall_mem_points_cubic]
    exact ⟨hstart.mono (by decide), hfirst, hsecond, hfinish.mono (by decide)⟩
  have hbounds := (Curve.bounds_spec (by decide) hpoints).2
  obtain ⟨h₀, h₁, h₂, h₃⟩ := Curve.weights_spec
  obtain ⟨hx, hxNear⟩ := Number.middle_spec hstart.x hfirst.x hsecond.x hfinish.x h₀ h₁ h₂ h₃
  obtain ⟨hy, hyNear⟩ := Number.middle_spec hstart.y hfirst.y hsecond.y hfinish.y h₀ h₁ h₂ h₃
  rw [curve_loop, Curve.forall_mem_points_cubic] at hbounds
  obtain ⟨hs, hc₁, hc₂, hf⟩ := hbounds
  exact ⟨hpoints, ⟨hx, hy⟩, .of_middle hs hc₁ hc₂ hf hxNear hyNear⟩

end Route

/-! ### All routes -/

section

variable {nodes : Catalog (Node Float32)} {edges : Catalog Edge}

/-- Only an edge between nodes has a route, and it is its shape. -/
theorem exists_shape_of_get?_routes {id : Id} {route : Route Float32}
    (h : (routes nodes edges).get? id = some route) : ∃ e source target,
      edges.get? id = some e ∧ nodes.get? e.source = some source ∧
        nodes.get? e.target = some target ∧ route = shape edges id e source target := by
  have hroute := h
  rw [routes, Catalog.get?_filterMap] at hroute
  obtain ⟨e, he, hroute⟩ := Option.bind_eq_some_iff.1 hroute
  obtain ⟨source, hsource, hroute⟩ := Option.bind_eq_some_iff.1 hroute
  obtain ⟨target, htarget, -⟩ := Option.bind_eq_some_iff.1 hroute
  refine ⟨e, source, target, he, hsource, htarget, ?_⟩
  exact Option.some.inj (h.symm.trans (get?_routes_eq_shape he hsource htarget))

/-- **Every route between nodes that are not too large is kept**, as long as there are not too many
edges. -/
theorem isKept_of_get?_routes (hnodes : ∀ id n, nodes.get? id = some n → n.IsWithin 19)
    (hedges : edges.entries.length ≤ 2 ^ 12) {id : Id} {route : Route Float32}
    (hroute : (routes nodes edges).get? id = some route) : route.IsKept := by
  obtain ⟨e, source, target, he, hsource, htarget, rfl⟩ := exists_shape_of_get?_routes hroute
  have hs := hnodes _ _ hsource
  have ht := hnodes _ _ htarget
  have hcount : parallelCount edges e ≤ 2 ^ 12 := List.countP_le_length.trans hedges
  rw [shape]
  split
  · exact Route.isKept_loop hs ((parallelRank_lt_parallelCount he).trans_le hcount)
  · split
    · exact Route.isKept_direct hs ht
    · exact Route.isKept_bowed hs ht e ((bend_le he).trans hcount)

end

end TextDiagram
