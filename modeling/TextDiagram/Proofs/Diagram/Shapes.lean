/-
**Shapes that never coincide.**

A straight edge leaves its ends straight out of their sides, so it keeps the height of its ends or
their place to the side, where a bent one does not.  Only where all of the plane that matters has
shrunk to a point does a bent edge keep it too; it is then bent by fifty, which is much further than
a straight one reaches.  Loops reach out by fifty more for each one before them.

Main results:

* `TextDiagram.Route.reach_spec`, `TextDiagram.Route.isWithin_control` — how far a straight edge
  reaches out;
* `TextDiagram.Route.not_coincides_direct_bowed` — **a straight edge is no bent one**;
* `TextDiagram.Route.not_coincides_loop` — **loops of different ranks are different**.
-/

import TextDiagram.Proofs.Diagram.Arch

set_option relaxedAutoImplicit false
set_option autoImplicit false

namespace TextDiagram.Route

open Number (value IsWithin)
open Diagram (Node Edge)

/-! ### Reaching out -/

theorem isWithin_half : IsWithin (-1) (0.5 : Float32) := by
  have h : Number.exact (0.5 : Float32) = .finite false 8388608 (-24) := by decide +kernel
  exact Number.isWithin_of_exact h (by norm_num)

theorem isWithin_curvature : IsWithin 3 (0.25 * 25 : Float32) := by
  have h : Number.exact (0.25 * 25 : Float32) = .finite false 13107200 (-21) := by decide +kernel
  exact Number.isWithin_of_exact h (by norm_num)

/-- How far a control point reaches out is bounded by how far the other end is away. -/
theorem reach_spec {ahead : Float32} {j k : ℤ} (h : IsWithin (k + k) ahead)
    (hk : -149 ≤ -1 + (k + k) ∧ -1 + (k + k) < 127 ∧ -149 ≤ k ∧ k < 124)
    (hj : -1 + (k + k) ≤ j ∧ 3 + k ≤ j) : IsWithin j (reach ahead) := by
  rw [reach]
  split
  · exact (isWithin_half.mul h ⟨hk.1, hk.2.1⟩).2.mono hj.1
  · next hbehind =>
      rw [Number.le_iff_value_le Number.value_zero.1 h.finite, Number.value_zero.2, not_le]
        at hbehind
      obtain ⟨hvalue, hneg⟩ := h.neg
      have hroot := (hneg.sqrt (by rw [hvalue]; linarith) ⟨hk.2.2.1, by omega⟩).2
      exact (isWithin_curvature.mul hroot ⟨by omega, by omega⟩).2.mono hj.2

/-- A number that is moved by less than a half, as it is computed. -/
theorem abs_moved_sub_le {x moved shift sum : ℝ} (hx : |x| ≤ 2 ^ (18 : ℤ))
    (hshift : |shift| ≤ 1 / 2) (hsum : sum = x + shift)
    (hmoved : |moved - sum| ≤ |sum| / 2 ^ 24 + 1 / 2 ^ 150) : |moved - x| ≤ 1 := by
  have hsize := abs_add_le x shift
  have hsplit := abs_sub_le moved sum x
  rw [hsum, add_sub_cancel_left] at hsplit
  rw [hsum] at hmoved
  norm_num at *
  linarith

section

variable {here there : Point Float32} {side : Side}

/-- A control point to the left or right has the height of its end. -/
theorem control_y (h : side.IsHorizontal) : (control side here there).y = here.y := by
  rcases h with rfl | rfl
  · rfl
  · rfl

/-- A control point above or below is straight over or under its end. -/
theorem control_x (h : ¬ side.IsHorizontal) : (control side here there).x = here.x := by
  cases side with
  | top => rfl
  | bottom => rfl
  | left => exact absurd (.inl rfl) h
  | right => exact absurd (.inr rfl) h

/-- The control point of an end is hardly further away than the two ends are. -/
theorem isWithin_control {k : ℤ} (hhere : here.IsWithin (k + k - 1))
    (hthere : there.IsWithin (k + k - 1)) (hk : 4 ≤ k ∧ k ≤ 60) (side : Side) :
    (control side here there).IsWithin (k + k) := by
  have hreach : ∀ {ahead : Float32}, IsWithin (k + k - 1 + 1) ahead →
      IsWithin (k + k - 1) (reach ahead) := by
    intro ahead h
    exact reach_spec (k := k) (h.mono (by omega)) (by omega) (by omega)
  have hsame : k + k - 1 + 1 = k + k := by omega
  have hwide : here.IsWithin (k + k) := hhere.mono (by omega)
  have hx := hreach (hhere.x.sub hthere.x (by omega)).2
  have hx' := hreach (hthere.x.sub hhere.x (by omega)).2
  have hy := hreach (hhere.y.sub hthere.y (by omega)).2
  have hy' := hreach (hthere.y.sub hhere.y (by omega)).2
  cases side with
  | left => exact ⟨hsame ▸ (hhere.x.sub hx (by omega)).2, hwide.y⟩
  | right => exact ⟨hsame ▸ (hhere.x.add hx' (by omega)).2, hwide.y⟩
  | top => exact ⟨hwide.x, hsame ▸ (hhere.y.sub hy (by omega)).2⟩
  | bottom => exact ⟨hwide.x, hsame ▸ (hhere.y.add hy' (by omega)).2⟩

variable (hhere : here.IsWithin 18) (hthere : there.IsWithin 18)

include hhere hthere

/-- Above and below an end that counts as one with the other end, a control point is next to it. -/
theorem abs_control_y_sub_le (hside : ¬ side.IsHorizontal)
    (hnear : |value (there - here).y| ≤ 2 ^ (-20 : ℤ)) :
    |value (control side here there).y - value here.y| ≤ 1 := by
  have hsub : IsWithin (-20) (there.y - here.y) :=
    ⟨(hthere.y.sub hhere.y (by decide)).2.finite, hnear⟩
  have hsub' : IsWithin (-20) (here.y - there.y) := by
    refine ⟨(hhere.y.sub hthere.y (by decide)).2.finite, ?_⟩
    rw [hthere.y.value_sub_comm hhere.y (by decide), abs_neg]
    exact hnear
  have hreach : ∀ {ahead : Float32}, IsWithin (-20) ahead → IsWithin (-1) (reach ahead) :=
    fun h => reach_spec (k := -10) (h.mono (by decide)) (by decide) (by decide)
  have hsmall : ∀ {x : Float32}, IsWithin (-1) x → |value x| ≤ 1 / 2 := by
    intro x hx
    have := hx.le
    norm_num at this ⊢
    exact this
  cases side with
  | left => exact absurd (.inl rfl) hside
  | right => exact absurd (.inr rfl) hside
  | top =>
      have hwithin := hreach hsub'
      obtain ⟨hmoved, -⟩ := hhere.y.sub (hwithin.mono (by decide)) (by decide)
      exact abs_moved_sub_le hhere.y.le ((abs_neg _).trans_le (hsmall hwithin)) (sub_eq_add_neg _ _)
        hmoved.abs_sub_le
  | bottom =>
      have hwithin := hreach hsub
      obtain ⟨hmoved, -⟩ := hhere.y.add (hwithin.mono (by decide)) (by decide)
      exact abs_moved_sub_le hhere.y.le (hsmall hwithin) rfl hmoved.abs_sub_le

end

/-! ### Straight edges -/

theorem curve_direct (source target : Node Float32) : (direct source target).curve =
    .cubic (ends source target).start
      (control (ends source target).sourceSide (ends source target).start
        (ends source target).finish)
      (control (ends source target).targetSide (ends source target).finish
        (ends source target).start)
      (ends source target).finish := rfl

/-- A control point is at least three quarters of a step away from the middle. -/
theorem three_quarters_le {q middle way bow multiple : ℝ} (hbow : 1 ≤ bow) (hm : 1 ≤ multiple)
    (h : |q - (middle + way * (bow * multiple))| ≤ |way| * bow / 4 + 1 / 32) :
    |way| * bow * (3 / 4) - 1 / 32 ≤ |q - middle| := by
  have hstep : |way| * bow ≤ |way * (bow * multiple)| := by
    rw [abs_mul, abs_mul, abs_of_pos (by linarith : 0 < bow), ← mul_assoc]
    exact le_mul_of_one_le_right (by positivity) (hm.trans (le_abs_self _))
  have hsplit := abs_sub_le (way * (bow * multiple)) (q - middle) 0
  rw [sub_zero, sub_zero, abs_sub_comm _ (q - middle), ← sub_add_eq_sub_sub] at hsplit
  linarith

/-- Ends that a straight edge keeps leave no room for a bend: the middle lies between them. -/
theorem false_of_kept {s f q middle way bow : ℝ} (hs : 3 * s = s + 2 * q) (hf : 3 * f = f + 2 * q)
    (hmiddle : |middle - (s + f) / 2| ≤ 1 / 16)
    (hfar : |way| * bow * (3 / 4) - 1 / 32 ≤ |q - middle|) (hway : 7 / 10 ≤ |way|)
    (hbow : 1 ≤ bow) : False := by
  have hq : (s + f) / 2 = q := by linarith
  rw [hq, abs_sub_comm] at hmiddle
  nlinarith

/-- Nor do ends next to each other, where a straight edge reaches out by less than one. -/
theorem false_of_near {s f q c middle way bow : ℝ} (hc : 3 * c = s + 2 * q) (hcs : |c - s| ≤ 1)
    (hfs : |f - s| ≤ 1) (hmiddle : |middle - (s + f) / 2| ≤ 1 / 16)
    (hfar : |way| * bow * (3 / 4) - 1 / 32 ≤ |q - middle|) (hway : |way| = 1)
    (hbow : bow = 50) : False := by
  rw [hway, hbow] at hfar
  rw [abs_le] at hcs hfs hmiddle
  rcases abs_choice (q - middle) with h | h
  · linarith
  · linarith

/-- A vector that has no direction is short. -/
theorem abs_y_le_of_negligible {v : Point Float32} (hv : v.IsWithin 29)
    (h : ¬ negligible < v.length) : |value v.y| ≤ 2 ^ (-20 : ℤ) := by
  obtain ⟨hlength, -⟩ := hv.length (by decide)
  rw [negligible_lt_iff hlength.finite, not_lt] at h
  have hroot : |value v.y| ≤ √(value v.x ^ 2 + value v.y ^ 2) := Real.abs_le_sqrt (by nlinarith)
  have herror := (abs_le.1 hlength.abs_sub_le).1
  rw [abs_of_nonneg (Real.sqrt_nonneg _)] at herror
  norm_num at h herror ⊢
  linarith

/-- Numbers with a short difference are next to each other. -/
theorem abs_sub_le_one {x y : Float32} (hx : IsWithin 18 x) (hy : IsWithin 18 y)
    (h : |value (y - x)| ≤ 2 ^ (-20 : ℤ)) : |value y - value x| ≤ 1 := by
  have hnear := (hy.sub hx (by decide)).1.abs_sub_le
  have hsplit := abs_sub_abs_le_abs_sub (value y - value x) (value (y - x))
  rw [abs_sub_comm (value y - value x)] at hsplit
  norm_num at hnear h
  linarith

theorem value_sub_eq_zero {x y : Float32} (hx : IsWithin 18 x) (hy : IsWithin 18 y)
    (h : value x = value y) : value (x - y) = 0 := by
  have hnear := (hx.sub hy (by decide)).1
  rw [h, sub_self] at hnear
  exact hnear.rounded.unique Number.isRounded_zero

theorem axis_cases (e : Edge) (source target : Node Float32) :
    axis e source target = target.box.center - source.box.center ∨
      axis e source target = source.box.center - target.box.center ∨
      axis e source target = (ends source target).finish - (ends source target).start := by
  rw [axis]
  split
  · rw [between]
    split
    · exact .inl rfl
    · exact .inr (.inl rfl)
  · exact .inr (.inr rfl)

section

variable {source target : Node Float32} (hs : source.IsOrdinary) (ht : target.IsOrdinary)

include hs ht

/-- Between ends of one height on the left and right, an edge is bent across a horizontal axis. -/
theorem value_axis_y (e : Edge) (hside : (ends source target).sourceSide.IsHorizontal)
    (h : value (ends source target).start.y = value (ends source target).finish.y) :
    value (axis e source target).y = 0 := by
  obtain ⟨hstart, hfinish⟩ := isWithin_ends hs ht
  obtain ⟨hy, hy'⟩ := ends_of_isHorizontal hs ht hside
  rcases axis_cases e source target with haxis | haxis | haxis
  · rw [haxis, Point.sub_y, ← hy, ← hy']
    exact value_sub_eq_zero hfinish.y hstart.y h.symm
  · rw [haxis, Point.sub_y, ← hy, ← hy']
    exact value_sub_eq_zero hstart.y hfinish.y h
  · rw [haxis, Point.sub_y]
    exact value_sub_eq_zero hfinish.y hstart.y h.symm

/-- Between ends above each other, an edge is bent across a vertical axis. -/
theorem value_axis_x (e : Edge) (hside : ¬ (ends source target).sourceSide.IsHorizontal)
    (h : value (ends source target).start.x = value (ends source target).finish.x) :
    value (axis e source target).x = 0 := by
  obtain ⟨hstart, hfinish⟩ := isWithin_ends hs ht
  obtain ⟨hx, hx'⟩ := ends_of_not_isHorizontal hs ht hside
  rcases axis_cases e source target with haxis | haxis | haxis
  · rw [haxis, Point.sub_x, ← hx, ← hx']
    exact value_sub_eq_zero hfinish.x hstart.x h.symm
  · rw [haxis, Point.sub_x, ← hx, ← hx']
    exact value_sub_eq_zero hstart.x hfinish.x h
  · rw [haxis, Point.sub_x]
    exact value_sub_eq_zero hfinish.x hstart.x h.symm

/-- **A straight edge is no bent one.**  What they share leaves no room for a bend: along a
horizontal axis the height of the ends, along a vertical one their place to the side, and where the
ends count as one the reach of the straight one. -/
theorem not_coincides_direct_bowed (e : Edge) {multiple : ℕ} (hpos : 0 < multiple)
    (hm : multiple ≤ 2 ^ 20) :
    ¬ (direct source target).curve.Coincides (bowed e source target multiple).curve := by
  intro h
  rw [curve_direct, curve_bowed] at h
  obtain ⟨⟨hfirstX, hfirstY⟩, hsecondX, hsecondY⟩ := h.controls_eq
  obtain ⟨hstart, hfinish⟩ := isWithin_ends hs ht
  have hsound := isSound_arch hs ht e
  have haxis := isWithin_axis hs.isWithin ht.isWithin (by decide) e
  have hway := hsound.abs_way
  obtain ⟨-, hx, hy⟩ := hsound.control_spec hm
  obtain ⟨-, -, hmiddleX, hmiddleY⟩ := hstart.midpoint hfinish (by decide)
  have hsixteenth : (2 : ℝ) ^ (18 : ℤ) / 2 ^ 22 = 1 / 16 := by norm_num
  rw [hsixteenth] at hmiddleX hmiddleY
  have hcount : (1 : ℝ) ≤ multiple := by exact_mod_cast hpos
  have hfarX := three_quarters_le hsound.bow.2.1 hcount hx
  have hfarY := three_quarters_le hsound.bow.2.1 hcount hy
  by_cases hside : (ends source target).sourceSide.IsHorizontal
  · rw [control_y hside] at hfirstY
    rw [control_y ((isHorizontal_targetSide hs ht).2 hside)] at hsecondY
    have hlong := across_of_horizontal haxis (value_axis_y hs ht e hside (by linarith))
    exact false_of_kept hfirstY hsecondY hmiddleY hfarY (hway.2 ▸ hlong) hsound.bow.2.1
  · rw [control_x hside] at hfirstX
    rw [control_x (mt (isHorizontal_targetSide hs ht).1 hside)] at hsecondX
    have hzero := value_axis_x hs ht e hside (by linarith)
    by_cases hlength : negligible < (axis e source target).length
    · have hlong := (across_spec haxis hlength).2.1 (by rw [hzero, abs_zero]; exact abs_nonneg _)
      exact false_of_kept hfirstX hsecondX hmiddleX hfarX (hway.1 ▸ hlong) hsound.bow.2.1
    · have hnear : ¬ negligible <
          ((ends source target).finish - (ends source target).start).length := by
        rw [axis] at hlength
        split at hlength
        · next hbetween => exact absurd hbetween hlength
        · exact hlength
      have hsub := isWithin_ends_sub hs.isWithin ht.isWithin (by decide)
      have hsmall := abs_y_le_of_negligible hsub hnear
      have hfifty := (bow_spec hsub).2.2.2 hnear
      refine false_of_near hfirstY (abs_control_y_sub_le hstart hfinish hside hsmall)
        (abs_sub_le_one hstart.y hfinish.y hsmall) hmiddleY hfarY ?_ hfifty
      rw [hway.2, arch, (across_of_negligible hlength).2.1, abs_neg, abs_one]

/-- The points of a straight edge are finite. -/
theorem isFinite_direct : ∀ p ∈ (direct source target).curve.points, p.isFinite = true := by
  obtain ⟨hstart, hfinish⟩ := isWithin_ends hs ht
  rw [curve_direct, Curve.forall_mem_points_cubic]
  have hcontrol := fun {p q : Point Float32} (hp : p.IsWithin 18) (hq : q.IsWithin 18) =>
    isWithin_control (k := 10) (hp.mono (by decide)) (hq.mono (by decide)) (by decide)
  exact ⟨hstart.isFinite, (hcontrol hstart hfinish _).isFinite,
    (hcontrol hfinish hstart _).isFinite, hfinish.isFinite⟩

/-- The points of a bent edge are finite. -/
theorem isFinite_bowed (e : Edge) {multiple : ℕ} (hm : multiple ≤ 2 ^ 20) :
    ∀ p ∈ (bowed e source target multiple).curve.points, p.isFinite = true := by
  obtain ⟨hstart, hfinish⟩ := isWithin_ends hs ht
  rw [curve_bowed, Curve.forall_mem_points_quadratic]
  exact ⟨hstart.isFinite, ((isSound_arch hs ht e).control_spec hm).1.isFinite, hfinish.isFinite⟩

end

/-! ### Loops -/

/-- How far a loop reaches out. -/
def loopReach (rank : ℕ) : Float32 := 50 * Float32.ofNat (rank + 1)

theorem curve_loop (n : Node Float32) (rank : ℕ) : (loop n rank).curve =
    .cubic (n.anchor .top .source) (n.anchor .top .source + ⟨0, -loopReach rank⟩)
      (n.anchor .right .target + ⟨loopReach rank, 0⟩) (n.anchor .right .target) := rfl

theorem loopReach_spec {rank : ℕ} (h : rank < 2 ^ 20) :
    IsWithin 26 (loopReach rank) ∧ |value (loopReach rank) - 50 * (rank + 1)| ≤ 4 := by
  have hle : ((rank + 1 : ℕ) : ℝ) ≤ 2 ^ 20 := by exact_mod_cast h
  have hfifty : IsWithin 6 (50 : Float32) :=
    ⟨Number.value_fifty.1, by rw [Number.value_fifty.2]; norm_num⟩
  obtain ⟨hnear, hwithin⟩ := hfifty.mul (Number.isWithin_ofNat h) (by decide)
  have herror := hnear.abs_sub_le
  rw [Number.value_ofNat (by omega), Number.value_fifty.2,
    abs_of_nonneg (by positivity : (0 : ℝ) ≤ 50 * (rank + 1 : ℕ))] at herror
  refine ⟨hwithin, ?_⟩
  rw [loopReach]
  push_cast at herror hle
  norm_num at herror hle ⊢
  linarith

/-- A coordinate that is moved by the reach of a loop, as it is computed. -/
theorem abs_reached_sub_le {x d : Float32} {v : ℝ} (hx : IsWithin 18 x) (hd : IsWithin 26 d)
    (hv : |value d - v| ≤ 4) : |value (x + d) - (value x + v)| ≤ 13 := by
  obtain ⟨hnear, -⟩ := (hx.mono (by decide)).add hd (by decide)
  have herror := hnear.abs_sub_le
  have hsize := abs_add_le (value x) (value d)
  have hsplit := abs_sub_le (value (x + d)) (value x + value d) (value x + v)
  rw [add_sub_add_left_eq_sub] at hsplit
  have hx' := hx.le
  have hd' := hd.le
  norm_num at herror hx' hd'
  linarith

section

variable {n : Node Float32} (hn : n.IsOrdinary) {rank rank' : ℕ}

include hn

/-- The control points of a loop. -/
theorem loop_spec (h : rank < 2 ^ 20) :
    (n.anchor .top .source + ⟨0, -loopReach rank⟩).IsWithin 27 ∧
      (n.anchor .right .target + ⟨loopReach rank, 0⟩).IsWithin 27 ∧
      value (n.anchor .top .source + ⟨0, -loopReach rank⟩).x = value (n.anchor .top .source).x ∧
      |value (n.anchor .top .source + ⟨0, -loopReach rank⟩).y -
        (value (n.anchor .top .source).y + -(50 * (rank + 1)))| ≤ 13 ∧
      |value (n.anchor .right .target + ⟨loopReach rank, 0⟩).x -
        (value (n.anchor .right .target).x + 50 * (rank + 1))| ≤ 13 := by
  obtain ⟨hreach, herror⟩ := loopReach_spec h
  have hstart := hn.isWithin_anchor .top .source
  have hfinish := hn.isWithin_anchor .right .target
  have hzero := Number.isWithin_zero 26
  have hwide : ∀ {x : Float32}, IsWithin 18 x → IsWithin 26 x := fun h => h.mono (by decide)
  obtain ⟨hsame, hx⟩ := (hwide hstart.x).add hzero (by decide)
  have hy := ((hwide hstart.y).add hreach.neg.2 (by decide)).2
  have hx' := ((hwide hfinish.x).add hreach (by decide)).2
  have hy' := ((hwide hfinish.y).add hzero (by decide)).2
  rw [Number.value_zero.2, add_zero] at hsame
  have hneg : |value (-loopReach rank) - -(50 * (rank + 1))| ≤ 4 := by
    rw [hreach.neg.1, neg_sub_neg, abs_sub_comm]
    exact herror
  exact ⟨⟨hx, hy⟩, ⟨hx', hy'⟩, hsame.value_eq hstart.x.finite,
    abs_reached_sub_le hstart.y hreach.neg.2 hneg, abs_reached_sub_le hfinish.x hreach herror⟩

/-- The points of a loop are finite. -/
theorem isFinite_loop (h : rank < 2 ^ 20) :
    ∀ p ∈ (loop n rank).curve.points, p.isFinite = true := by
  obtain ⟨hfirst, hsecond, -⟩ := loop_spec hn h
  rw [curve_loop, Curve.forall_mem_points_cubic]
  exact ⟨(hn.isWithin_anchor _ _).isFinite, hfirst.isFinite, hsecond.isFinite,
    (hn.isWithin_anchor _ _).isFinite⟩

/-- **Loops of different ranks are different.** -/
theorem not_coincides_loop (h : rank < 2 ^ 20) (h' : rank' < 2 ^ 20) (hne : rank ≠ rank') :
    ¬ (loop n rank).curve.Coincides (loop n rank').curve := by
  intro hsame
  rw [curve_loop, curve_loop] at hsame
  obtain ⟨-, -, hx, hy, -⟩ := loop_spec hn h
  obtain ⟨-, -, -, hy', hx'⟩ := loop_spec hn h'
  rcases hsame.first_control_eq with heq | ⟨hends, heq⟩
  · -- the tops of the loops are at different heights
    rw [(Point.exact_eq_iff.1 heq).2] at hy
    have hnear := abs_sub_le (value (n.anchor .top .source).y + -(50 * (rank + 1)))
      (value (n.anchor .top .source + ⟨0, -loopReach rank'⟩).y)
      (value (n.anchor .top .source).y + -(50 * (rank' + 1)))
    rw [abs_sub_comm _ (value (n.anchor .top .source + ⟨0, -loopReach rank'⟩).y),
      add_sub_add_left_eq_sub, neg_sub_neg, ← mul_sub, add_sub_add_right_eq_sub, abs_mul,
      abs_of_pos (by norm_num : (0 : ℝ) < 50)] at hnear
    have hgap : (1 : ℝ) ≤ |(rank' : ℝ) - rank| := by
      have : (1 : ℤ) ≤ |(rank' : ℤ) - rank| := Int.one_le_abs (by omega)
      exact_mod_cast this
    linarith
  · -- the one leaves straight up from where the other comes in from the right
    rw [← (Point.exact_eq_iff.1 heq).1, hx, (Point.exact_eq_iff.1 hends).1,
      sub_add_cancel_left, abs_neg, abs_of_nonneg (by positivity)] at hx'
    have : (0 : ℝ) ≤ rank' := Nat.cast_nonneg _
    linarith

end

end TextDiagram.Route
