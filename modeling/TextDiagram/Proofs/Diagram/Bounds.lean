/-
**Everything lies inside the box of a diagram.**

The box around a diagram is merged from boxes, those of the nodes and those of the curves, and the
box of a curve is that of the few points that the curve is made of.  Here it is shown, over exact
numbers, that nothing sticks out: a merged box is the least one that covers its parts, and a curve
stays between its points.

For the latter a curve is drawn as its points are joined: what lies on the way between two points of
a box lies in the box, and a point of a curve is reached by going three or seven such ways.

Main definitions:

* `TextDiagram.Box.Holds`, `TextDiagram.Box.Covers` — a point in a box, and a box in a box;
* `TextDiagram.Point.between` — a point on the way between two points.

Main results:

* `TextDiagram.Box.covers_hull_iff` — the hull is the least box that covers all boxes;
* `TextDiagram.Curve.point_quadratic_eq_between`, `TextDiagram.Curve.point_cubic_eq_between` — a
  curve goes between two curves with a point less;
* `TextDiagram.Curve.holds_point` — **a curve stays inside its box**;
* `TextDiagram.Diagram.bounds_holds` — **a diagram stays inside its box**.
-/

import Mathlib.Algebra.Order.Ring.Rat
import Mathlib.Analysis.Convex.Basic
import TextDiagram.Diagram.Basic

set_option relaxedAutoImplicit false
set_option autoImplicit false

namespace TextDiagram

-- rational numbers are scalars here only: elsewhere their arithmetic is that of the field
local instance : Scalar ℚ where
  ofNat n := n
  smaller := min
  larger := max

theorem ofNat_eq_natCast (n : ℕ) : (Scalar.ofNat n : ℚ) = n := rfl

/-! ### Boxes -/

namespace Box

variable {b c d : Box ℚ} {p q : Point ℚ}

/-- A point lies in a box or on its border. -/
def Holds (b : Box ℚ) (p : Point ℚ) : Prop :=
  p.x ∈ Set.Icc b.minX b.maxX ∧ p.y ∈ Set.Icc b.minY b.maxY

/-- A box reaches at least as far as another one to all four sides. -/
structure Covers (b c : Box ℚ) : Prop where
  minX : b.minX ≤ c.minX
  minY : b.minY ≤ c.minY
  maxX : c.maxX ≤ b.maxX
  maxY : c.maxY ≤ b.maxY

theorem Covers.refl (b : Box ℚ) : b.Covers b := ⟨le_rfl, le_rfl, le_rfl, le_rfl⟩

/-- What lies in a box lies in every box that covers it. -/
theorem Covers.holds (h : b.Covers c) (hp : c.Holds p) : b.Holds p :=
  ⟨Set.Icc_subset_Icc h.minX h.maxX hp.1, Set.Icc_subset_Icc h.minY h.maxY hp.2⟩

/-- A box covers two boxes exactly if it covers what they are merged to. -/
theorem covers_merge_iff : b.Covers (c.merge d) ↔ b.Covers c ∧ b.Covers d := by
  constructor
  · rintro ⟨hleft, htop, hright, hbottom⟩
    obtain ⟨hleft, hleft'⟩ := le_min_iff.1 hleft
    obtain ⟨htop, htop'⟩ := le_min_iff.1 htop
    obtain ⟨hright, hright'⟩ := max_le_iff.1 hright
    obtain ⟨hbottom, hbottom'⟩ := max_le_iff.1 hbottom
    exact ⟨⟨hleft, htop, hright, hbottom⟩, ⟨hleft', htop', hright', hbottom'⟩⟩
  · rintro ⟨hc, hd⟩
    exact ⟨le_min hc.minX hd.minX, le_min hc.minY hd.minY, max_le hc.maxX hd.maxX,
      max_le hc.maxY hd.maxY⟩

/-- The hull of boxes is the least box that covers all of them. -/
theorem covers_hull_iff {boxes : List (Box ℚ)} (h : boxes ≠ []) :
    b.Covers (hull boxes) ↔ ∀ c ∈ boxes, b.Covers c := by
  obtain ⟨first, rest, rfl⟩ := List.exists_cons_of_ne_nil h
  induction rest generalizing first with
  | nil => simp
  | cons next rest ih =>
      rw [hull_cons_cons, ih _ (List.cons_ne_nil _ _)]
      simp only [List.forall_mem_cons, covers_merge_iff, and_assoc]

theorem covers_hull {boxes : List (Box ℚ)} (h : c ∈ boxes) : (hull boxes).Covers c :=
  (covers_hull_iff (List.ne_nil_of_mem h)).1 (Covers.refl _) c h

/-- A box of a size that is not negative holds its corner and its opposite corner. -/
theorem holds_ofCorner (corner : Point ℚ) {size : Size ℚ} (hwidth : 0 ≤ size.width)
    (hheight : 0 ≤ size.height) : (ofCorner corner size).Holds corner ∧
      (ofCorner corner size).Holds ⟨corner.x + size.width, corner.y + size.height⟩ := by
  have hx : corner.x ≤ corner.x + size.width := le_add_of_nonneg_right hwidth
  have hy : corner.y ≤ corner.y + size.height := le_add_of_nonneg_right hheight
  exact ⟨⟨⟨le_rfl, hx⟩, le_rfl, hy⟩, ⟨hx, le_rfl⟩, hy, le_rfl⟩

/-- The box of no size at a point. -/
def single (p : Point ℚ) : Box ℚ := ⟨p.x, p.y, p.x, p.y⟩

theorem covers_single_iff : b.Covers (single p) ↔ b.Holds p := by
  constructor
  · rintro ⟨hleft, htop, hright, hbottom⟩
    exact ⟨⟨hleft, hright⟩, htop, hbottom⟩
  · rintro ⟨⟨hleft, hright⟩, htop, hbottom⟩
    exact ⟨hleft, htop, hright, hbottom⟩

theorem ofCorner_zero (p : Point ℚ) : ofCorner p Size.zero = single p := by
  have hzero : (Scalar.ofNat 0 : ℚ) = 0 := Nat.cast_zero
  rw [ofCorner, Size.zero, hzero, single]
  exact congrArg₂ (Box.mk p.x p.y) (add_zero p.x) (add_zero p.y)

end Box

/-! ### Ways between points -/

/-- The point on the way from `p` to `q` at the share `t` of the way. -/
def Point.between (t : ℚ) (p q : Point ℚ) : Point ℚ := p.scale (1 - t) + q.scale t

/-- A box holds the way between two points that it holds. -/
theorem Box.Holds.between {b : Box ℚ} {p q : Point ℚ} {t : ℚ} (hp : b.Holds p) (hq : b.Holds q)
    (h0 : 0 ≤ t) (h1 : t ≤ 1) : b.Holds (Point.between t p q) := by
  have hshares : 1 - t + t = 1 := sub_add_cancel 1 t
  have hx := convex_Icc b.minX b.maxX hp.1 hq.1 (sub_nonneg.2 h1) h0 hshares
  have hy := convex_Icc b.minY b.maxY hp.2 hq.2 (sub_nonneg.2 h1) h0 hshares
  rw [smul_eq_mul, smul_eq_mul, mul_comm _ p.x, mul_comm _ q.x] at hx
  rw [smul_eq_mul, smul_eq_mul, mul_comm _ p.y, mul_comm _ q.y] at hy
  exact ⟨hx, hy⟩

/-! ### Curves -/

namespace Curve

variable {t : ℚ}

/-- A quadratic curve goes between the two lines that join its points. -/
theorem point_quadratic_eq_between (t : ℚ) (s c f : Point ℚ) :
    (quadratic s c f).point t = Point.between t (.between t s c) (.between t c f) := by
  rw [point]
  refine congrArg₂ Point.mk ?_ ?_
  · simp only [Point.between, Point.add_x, Point.scale_x, ofNat_eq_natCast]
    push_cast
    ring
  · simp only [Point.between, Point.add_y, Point.scale_y, ofNat_eq_natCast]
    push_cast
    ring

/-- A cubic curve goes between the two quadratic curves of its first and of its last points. -/
theorem point_cubic_eq_between (t : ℚ) (s c₁ c₂ f : Point ℚ) :
    (cubic s c₁ c₂ f).point t =
      Point.between t ((quadratic s c₁ c₂).point t) ((quadratic c₁ c₂ f).point t) := by
  rw [point_quadratic_eq_between, point_quadratic_eq_between, point]
  refine congrArg₂ Point.mk ?_ ?_
  · simp only [Point.between, Point.add_x, Point.scale_x, ofNat_eq_natCast]
    push_cast
    ring
  · simp only [Point.between, Point.add_y, Point.scale_y, ofNat_eq_natCast]
    push_cast
    ring

/-- The box of a curve is the hull of its points. -/
theorem bounds_eq_hull (c : Curve ℚ) : c.bounds = Box.hull (c.points.map Box.single) := by
  cases c with
  | quadratic s c f => rw [bounds, start, Box.ofCorner_zero]; rfl
  | cubic s c₁ c₂ f => rw [bounds, start, Box.ofCorner_zero]; rfl

theorem holds_of_mem_points {c : Curve ℚ} {p : Point ℚ} (h : p ∈ c.points) : c.bounds.Holds p := by
  rw [bounds_eq_hull, ← Box.covers_single_iff]
  exact Box.covers_hull (List.mem_map_of_mem h)

/-- A box that holds the points of a curve holds the curve. -/
theorem holds_point_of_forall {b : Box ℚ} {c : Curve ℚ} (h : ∀ p ∈ c.points, b.Holds p) (h0 : 0 ≤ t)
    (h1 : t ≤ 1) : b.Holds (c.point t) := by
  have hquadratic : ∀ {s c f : Point ℚ}, b.Holds s → b.Holds c → b.Holds f →
      b.Holds ((quadratic s c f).point t) := by
    intro s c f hs hc hf
    rw [point_quadratic_eq_between]
    exact (hs.between hc h0 h1).between (hc.between hf h0 h1) h0 h1
  cases c with
  | quadratic s c f =>
      have hs := h s (by simp [points])
      have hc := h c (by simp [points])
      have hf := h f (by simp [points])
      exact hquadratic hs hc hf
  | cubic s c₁ c₂ f =>
      have hs := h s (by simp [points])
      have h₁ := h c₁ (by simp [points])
      have h₂ := h c₂ (by simp [points])
      have hf := h f (by simp [points])
      rw [point_cubic_eq_between]
      exact (hquadratic hs h₁ h₂).between (hquadratic h₁ h₂ hf) h0 h1

/-- **A curve stays inside its box.** -/
theorem holds_point (c : Curve ℚ) (h0 : 0 ≤ t) (h1 : t ≤ 1) : c.bounds.Holds (c.point t) :=
  holds_point_of_forall (fun _ => holds_of_mem_points) h0 h1

theorem between_zero (p q : Point ℚ) : Point.between 0 p q = p := by
  refine congrArg₂ Point.mk ?_ ?_
  · simp only [Point.scale_x]
    ring
  · simp only [Point.scale_y]
    ring

theorem between_one (p q : Point ℚ) : Point.between 1 p q = q := by
  refine congrArg₂ Point.mk ?_ ?_
  · simp only [Point.scale_x]
    ring
  · simp only [Point.scale_y]
    ring

/-- A curve leads from its start to its end. -/
theorem point_zero_and_one (c : Curve ℚ) : c.point 0 = c.start ∧ c.point 1 = c.finish := by
  cases c with
  | quadratic s c f => simp [point_quadratic_eq_between, between_zero, between_one, start, finish]
  | cubic s c₁ c₂ f =>
      simp [point_cubic_eq_between, point_quadratic_eq_between, between_zero, between_one, start,
        finish]

end Curve

/-! ### Diagrams -/

namespace Diagram

variable {d : Diagram ℚ}

theorem covers_node {n : Node ℚ} (h : n ∈ d.nodes.values) : d.bounds.Covers n.box :=
  Box.covers_hull (List.mem_append_left _ (List.mem_map_of_mem h))

theorem covers_route {route : Route ℚ} (h : route ∈ d.routes.values) :
    d.bounds.Covers route.curve.bounds :=
  Box.covers_hull (List.mem_append_right _ (List.mem_map.2 ⟨route, h, rfl⟩))

/-- **A diagram stays inside its box.**  A curve leads from its start to its end, and all of it lies
in the box of the curve.  So if no node has a negative size, the box around a diagram holds every
point of the box of every node, in particular two opposite corners, and every point of the curve of
every route. -/
theorem bounds_holds :
    (∀ c : Curve ℚ, c.point 0 = c.start ∧ c.point 1 = c.finish ∧
      ∀ t, 0 ≤ t → t ≤ 1 → c.bounds.Holds (c.point t)) ∧
    ∀ d : Diagram ℚ, (∀ n ∈ d.nodes.values, 0 ≤ n.size.width ∧ 0 ≤ n.size.height) →
      (∀ n ∈ d.nodes.values, n.box.Holds n.position ∧
        n.box.Holds ⟨n.position.x + n.size.width, n.position.y + n.size.height⟩ ∧
        ∀ p, n.box.Holds p → d.bounds.Holds p) ∧
      ∀ route ∈ d.routes.values, ∀ t, 0 ≤ t → t ≤ 1 → d.bounds.Holds (route.curve.point t) := by
  refine ⟨fun c => ?_, fun d hsizes => ⟨fun n hn => ?_, fun route hroute t h0 h1 => ?_⟩⟩
  · obtain ⟨hstart, hfinish⟩ := c.point_zero_and_one
    exact ⟨hstart, hfinish, fun t h0 h1 => c.holds_point h0 h1⟩
  · obtain ⟨hcorner, hopposite⟩ := Box.holds_ofCorner n.position (hsizes n hn).1 (hsizes n hn).2
    exact ⟨hcorner, hopposite, fun p hp => (covers_node hn).holds hp⟩
  · exact (covers_route hroute).holds (route.curve.holds_point h0 h1)

/-- A node of a size at a point. -/
def block (position : Point ℚ) (size : Size ℚ) : Node ℚ where
  kind := .default
  position := position
  size := size
  label := ""
  origin := .diagram

/-- The curve that leaves one node upwards and comes down on the other. -/
def arch : Curve ℚ := .cubic ⟨2, 0⟩ ⟨2, -4⟩ ⟨12, -4⟩ ⟨12, 0⟩

/-- Two nodes, one of them without height, and a curve that leaves the boxes of both. -/
def arched : Diagram ℚ where
  nodes := .ofList [("A", block ⟨0, 0⟩ ⟨4, 2⟩), ("B", block ⟨10, 0⟩ ⟨4, 0⟩)]
  routes := .ofList [("e", ⟨.top, .top, arch, ⟨7, -3⟩⟩)]

/-- The curve reaches up to `-3` between its points at `-4`. -/
theorem bounds_holds_arched :
    (∀ n ∈ arched.nodes.values, 0 ≤ n.size.width ∧ 0 ≤ n.size.height) ∧
      arched.bounds = ⟨0, -4, 14, 2⟩ ∧ arched.bounds.Holds ⟨4, 2⟩ ∧
      arched.bounds.Holds ⟨7, -3⟩ := by
  have hnode : block ⟨0, 0⟩ ⟨4, 2⟩ ∈ arched.nodes.values := List.mem_cons_self
  have hroute : ⟨.top, .top, arch, ⟨7, -3⟩⟩ ∈ arched.routes.values := List.mem_cons_self
  have hsizes : ∀ n ∈ arched.nodes.values, 0 ≤ n.size.width ∧ 0 ≤ n.size.height := by
    decide +kernel
  have hopposite : (⟨0 + 4, 0 + 2⟩ : Point ℚ) = ⟨4, 2⟩ := by decide +kernel
  have hmiddle : arch.point (1 / 2) = ⟨7, -3⟩ := by decide +kernel
  obtain ⟨hnodes, hroutes⟩ := bounds_holds.2 arched hsizes
  obtain ⟨-, hcorner, hinside⟩ := hnodes _ hnode
  have hpoint := hroutes _ hroute (1 / 2) (by norm_num) (by norm_num)
  exact ⟨hsizes, by decide +kernel, hopposite ▸ hinside _ hcorner, hmiddle ▸ hpoint⟩

end Diagram

end TextDiagram
