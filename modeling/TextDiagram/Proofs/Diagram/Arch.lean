/-
**The arches of bent edges.**

The edges that are bent between two nodes all run over one arch: from the middle between the ends,
along one vector, a step further for each rank.  An edge that leads back runs over an arch with the
same middle and the same steps.  It is meant to go the opposite way, and it does unless the nodes
are tangled: the side that an edge is bent to is then told by the ends, which the edge that leads
back exchanges, and its sign by the ids, which it exchanges as well.

Main definitions:

* `TextDiagram.Route.Arch` — what tells the control point of a bent edge, but for its rank;
* `TextDiagram.Route.Arch.IsSound` — an arch with steps that rounding does not swallow;
* `TextDiagram.Route.arch` — the arch of an edge between two nodes;
* `TextDiagram.Route.AreTangled` — two nodes with one center, but with ends apart.

Main results:

* `TextDiagram.Route.Arch.control_eq_iff`, `TextDiagram.Route.Arch.control_ne` — **different ranks
  have different control points**, and so have opposite ways;
* `TextDiagram.Route.isSound_arch` — the arches of edges between ordinary nodes are sound;
* `TextDiagram.Route.way_arch_swap` — **an edge that leads back goes the opposite way** unless its
  nodes are tangled.
-/

import TextDiagram.Proofs.Diagram.Bow
import TextDiagram.Proofs.Diagram.Ends

set_option relaxedAutoImplicit false
set_option autoImplicit false

namespace TextDiagram.Route

open Number (value IsWithin)
open Diagram (Node Edge)

/-! ### Arches -/

/-- What tells the control point of a bent edge, but for its rank. -/
structure Arch where
  middle : Point Float32
  across : Point Float32
  bow : Float32
  turn : Float32

namespace Arch

/-- The control point of the edge of a rank. -/
def control (a : Arch) (multiple : ℕ) : Point Float32 :=
  a.middle + a.across.scale (a.bow * Float32.ofNat multiple * a.turn)

/-- The vector that an arch leads along. -/
noncomputable def way (a : Arch) : Point ℝ :=
  ⟨value a.across.x * value a.turn, value a.across.y * value a.turn⟩

/-- An arch whose steps are at least seven tenths long in one coordinate. -/
structure IsSound (a : Arch) : Prop where
  middle : a.middle.IsWithin 18
  across : a.across.IsWithin 1
  long : 7 / 10 ≤ |value a.across.x| ∨ 7 / 10 ≤ |value a.across.y|
  bow : a.bow.isFinite = true ∧ 1 ≤ value a.bow ∧ value a.bow ≤ 50
  turn : a.turn.isFinite = true ∧ |value a.turn| = 1

variable {a b : Arch} {m n : ℕ}

theorem IsSound.abs_way (ha : a.IsSound) :
    |a.way.x| = |value a.across.x| ∧ |a.way.y| = |value a.across.y| := by
  rw [way, abs_mul, abs_mul, ha.turn.2, mul_one, mul_one]
  exact ⟨rfl, rfl⟩

/-- A control point lies where the way leads, up to a quarter of a step. -/
theorem IsSound.control_spec (ha : a.IsSound) (hm : m ≤ 2 ^ 20) :
    (a.control m).IsWithin 28 ∧
      |value (a.control m).x - (value a.middle.x + a.way.x * (value a.bow * m))| ≤
        |a.way.x| * value a.bow / 4 + 1 / 32 ∧
      |value (a.control m).y - (value a.middle.y + a.way.y * (value a.bow * m))| ≤
        |a.way.y| * value a.bow / 4 + 1 / 32 := by
  obtain ⟨hfinite, hlow, hhigh⟩ := ha.bow
  obtain ⟨hx, hxNear⟩ := abs_control_sub_le ha.middle.x ha.across.x hfinite hlow hhigh ha.turn.1
    ha.turn.2 hm
  obtain ⟨hy, hyNear⟩ := abs_control_sub_le ha.middle.y ha.across.y hfinite hlow hhigh ha.turn.1
    ha.turn.2 hm
  rw [← mul_assoc] at hxNear hyNear
  rw [ha.abs_way.1, ha.abs_way.2]
  exact ⟨⟨hx, hy⟩, hxNear, hyNear⟩

/-- Coordinates a step apart are different, if each is off by a quarter of a step. -/
theorem ne_of_steps {middle way bow c d k l : ℝ} (hc : |c - (middle + way * (bow * k))| ≤
      |way| * bow / 4 + 1 / 32) (hd : |d - (middle + way * (bow * l))| ≤ |way| * bow / 4 + 1 / 32)
    (hway : 7 / 10 ≤ |way|) (hbow : 1 ≤ bow) (hkl : 1 ≤ |k - l|) : c ≠ d := by
  rintro rfl
  have hstep : |way| * bow ≤ |way * (bow * k) - way * (bow * l)| := by
    rw [← mul_sub, ← mul_sub, abs_mul, abs_mul, abs_of_pos (by linarith : 0 < bow), ← mul_assoc]
    exact le_mul_of_one_le_right (by positivity) hkl
  have hnear := abs_sub_le (middle + way * (bow * k)) c (middle + way * (bow * l))
  rw [add_sub_add_left_eq_sub, abs_sub_comm _ c] at hnear
  nlinarith

/-- Control points over two arches with the same middle and the same steps are different, as long as
they are a step apart: `sign` is one where the arches lead the same way, and minus one where they
lead opposite ways. -/
theorem IsSound.control_ne_of_sign (ha : a.IsSound) (hb : b.IsSound)
    (hmiddle : b.middle.exact = a.middle.exact) (hbow : value b.bow = value a.bow) {sign : ℝ}
    (hsign : |sign| = 1) (hway : b.way = ⟨a.way.x * sign, a.way.y * sign⟩) (hm : m ≤ 2 ^ 20)
    (hn : n ≤ 2 ^ 20) (hmn : 1 ≤ |m - sign * n|) : (a.control m).exact ≠ (b.control n).exact := by
  obtain ⟨-, hax, hay⟩ := ha.control_spec hm
  obtain ⟨-, hbx, hby⟩ := hb.control_spec hn
  obtain ⟨hx, hy⟩ := Point.exact_eq_iff.1 hmiddle
  have hmove : ∀ w : ℝ, w * sign * (value a.bow * n) = w * (value a.bow * (sign * n)) := by
    intro w
    ring
  rw [hway, hbow, hx, hmove, abs_mul, hsign, mul_one] at hbx
  rw [hway, hbow, hy, hmove, abs_mul, hsign, mul_one] at hby
  rw [Ne, Point.exact_eq_iff, not_and_or]
  rcases ha.long with hlong | hlong
  · exact .inl (ne_of_steps hax hbx (ha.abs_way.1 ▸ hlong) ha.bow.2.1 hmn)
  · exact .inr (ne_of_steps hay hby (ha.abs_way.2 ▸ hlong) ha.bow.2.1 hmn)

/-- A coordinate of a control point is told by the middle, the step and the way. -/
theorem value_control_eq {middle middle' across across' bow bow' turn turn' : Float32}
    (hmiddle : IsWithin 18 middle) (hmiddle' : IsWithin 18 middle') (hacross : IsWithin 1 across)
    (hacross' : IsWithin 1 across') (hbow : IsWithin 6 bow) (hbow' : IsWithin 6 bow')
    (hturn : turn.isFinite = true ∧ |value turn| = 1)
    (hturn' : turn'.isFinite = true ∧ |value turn'| = 1) (hm : m ≤ 2 ^ 20)
    (hmiddleEq : value middle' = value middle) (hbowEq : value bow' = value bow)
    (hway : value across' * value turn' = value across * value turn) :
    value (middle' + across' * (bow' * Float32.ofNat m * turn')) =
      value (middle + across * (bow * Float32.ofNat m * turn)) := by
  obtain ⟨hfar, hshift, hwithin⟩ := shift_spec hacross hbow hturn.1 hturn.2 hm
  obtain ⟨hfar', hshift', hwithin'⟩ := shift_spec hacross' hbow' hturn'.1 hturn'.2 hm
  rw [hbowEq] at hfar'
  rw [hfar'.value_unique hfar, mul_left_comm, hway, ← mul_left_comm] at hshift'
  obtain ⟨hsum, -⟩ := (hmiddle.mono (by decide)).add hwithin (by decide)
  obtain ⟨hsum', -⟩ := (hmiddle'.mono (by decide)).add hwithin' (by decide)
  rw [hmiddleEq, hshift'.value_unique hshift] at hsum'
  exact hsum'.value_unique hsum

/-- **Different ranks have different control points**, over arches that lead the same way. -/
theorem IsSound.control_eq_iff (ha : a.IsSound) (hb : b.IsSound)
    (hmiddle : b.middle.exact = a.middle.exact) (hbow : value b.bow = value a.bow)
    (hway : b.way = a.way) (hm : m ≤ 2 ^ 20) (hn : n ≤ 2 ^ 20) :
    (a.control m).exact = (b.control n).exact ↔ m = n := by
  constructor
  · intro heq
    by_contra hne
    refine ha.control_ne_of_sign hb hmiddle hbow abs_one ?_ hm hn ?_ heq
    · rw [hway, mul_one, mul_one]
    · rw [one_mul]
      have : (1 : ℤ) ≤ |(m : ℤ) - n| := Int.one_le_abs (by omega)
      exact_mod_cast this
  · rintro rfl
    obtain ⟨hx, hy⟩ := Point.exact_eq_iff.1 hmiddle
    obtain ⟨hwayX, hwayY⟩ := Point.mk.inj hway
    have hbowA := isWithin_bow ha.bow.1 ha.bow.2.1 ha.bow.2.2
    have hbowB := isWithin_bow hb.bow.1 hb.bow.2.1 hb.bow.2.2
    have hcontrolX : value (b.control m).x = value (a.control m).x :=
      value_control_eq ha.middle.x hb.middle.x ha.across.x hb.across.x hbowA hbowB ha.turn hb.turn
        hm hx hbow hwayX
    have hcontrolY : value (b.control m).y = value (a.control m).y :=
      value_control_eq ha.middle.y hb.middle.y ha.across.y hb.across.y hbowA hbowB ha.turn hb.turn
        hm hy hbow hwayY
    exact Point.exact_eq_iff.2 ⟨hcontrolX.symm, hcontrolY.symm⟩

/-- Ranks have to be bounded: from `2 ^ 24` on, not all of them are single-precision numbers. -/
theorem control_eq_of_large (a : Arch) : a.control (2 ^ 24 + 1) = a.control (2 ^ 24) := by
  have hcount : Float32.ofNat (2 ^ 24 + 1) = Float32.ofNat (2 ^ 24) := by decide +kernel
  rw [control, control, hcount]

/-- **Arches that lead opposite ways have different control points.** -/
theorem IsSound.control_ne (ha : a.IsSound) (hb : b.IsSound)
    (hmiddle : b.middle.exact = a.middle.exact) (hbow : value b.bow = value a.bow)
    (hway : b.way = ⟨-a.way.x, -a.way.y⟩) (hm : m ≤ 2 ^ 20) (hn : n ≤ 2 ^ 20) (hpos : 0 < m) :
    (a.control m).exact ≠ (b.control n).exact := by
  refine ha.control_ne_of_sign hb hmiddle hbow (abs_neg (1 : ℝ) ▸ abs_one) ?_ hm hn ?_
  · rw [hway, mul_neg_one, mul_neg_one]
  · rw [neg_one_mul, sub_neg_eq_add]
    have : (1 : ℝ) ≤ m + n := by exact_mod_cast Nat.le_add_right_of_le hpos
    exact this.trans (le_abs_self _)

end Arch

/-! ### The arch of an edge -/

/-- The vector between the centers of two nodes, from the one whose id comes first. -/
def between (e : Edge) (source target : Node Float32) : Point Float32 :=
  if decide (e.source ≤ e.target) then target.box.center - source.box.center
  else source.box.center - target.box.center

/-- The vector that an edge is bent across. -/
def axis (e : Edge) (source target : Node Float32) : Point Float32 :=
  if negligible < (between e source target).length then between e source target
  else (ends source target).finish - (ends source target).start

/-- Which way is out, by the ids of the nodes. -/
def turn (e : Edge) : Float32 := if decide (e.source ≤ e.target) then 1 else -1

/-- The arch of an edge between two nodes. -/
def arch (e : Edge) (source target : Node Float32) : Arch where
  middle := (ends source target).start.midpoint (ends source target).finish
  across := across (axis e source target)
  bow := bow (ends source target).start (ends source target).finish
  turn := turn e

theorem curve_bowed (e : Edge) (source target : Node Float32) (multiple : ℕ) :
    (bowed e source target multiple).curve = .quadratic (ends source target).start
      ((arch e source target).control multiple) (ends source target).finish := rfl

/-- The arch of an edge is told by its ends. -/
theorem arch_congr {e e' : Edge} (hs : e'.source = e.source) (ht : e'.target = e.target)
    (source target : Node Float32) : arch e' source target = arch e source target := by
  obtain ⟨⟩ := e
  obtain ⟨⟩ := e'
  obtain rfl : _ = _ := hs
  obtain rfl : _ = _ := ht
  rfl

/-- Two nodes are tangled if their centers count as one, but the ends of an edge between them do
not. -/
def AreTangled (source target : Node Float32) : Prop :=
  ¬ negligible < (target.box.center - source.box.center).length ∧
    negligible < ((ends source target).finish - (ends source target).start).length

theorem turn_spec (e : Edge) : (turn e).isFinite = true ∧ |value (turn e)| = 1 := by
  obtain ⟨hneg, hwithin⟩ := Number.isWithin_one.neg
  rw [turn]
  split
  · exact ⟨Number.value_one.1, by rw [Number.value_one.2, abs_one]⟩
  · exact ⟨hwithin.finite, by rw [hneg, Number.value_one.2, abs_neg, abs_one]⟩

section

variable {e e' : Edge} {source target : Node Float32}

/-- An edge that leads back is bent across the same centers, and turns the other way. -/
theorem between_swap (hs : e'.source = e.target) (ht : e'.target = e.source)
    (hne : e.source ≠ e.target) :
    between e' target source = between e source target ∧ value (turn e') = -value (turn e) := by
  have hneg := Number.isWithin_one.neg.1
  rw [between, between, turn, turn, hs, ht]
  by_cases hle : e.source ≤ e.target
  · have hnot : ¬ e.target ≤ e.source := fun h => hne (String.le_antisymm hle h)
    simp only [hle, hnot, decide_true, decide_false, if_true, Bool.false_eq_true, if_false]
    exact ⟨trivial, hneg⟩
  · have hback : e.target ≤ e.source := (String.le_total _ _).resolve_left hle
    simp only [hle, hback, decide_true, decide_false, if_true, Bool.false_eq_true, if_false]
    rw [hneg, neg_neg]
    exact ⟨trivial, rfl⟩

section

variable {k : ℤ} (hs : source.IsWithin k) (ht : target.IsWithin k) (hk : 0 ≤ k ∧ k ≤ 28)

include hs ht hk

/-- The vector between the ends of an edge. -/
theorem isWithin_ends_sub :
    ((ends source target).finish - (ends source target).start).IsWithin 29 := by
  obtain ⟨hstart, hfinish⟩ := ends_isWithin hs ht (by omega)
  exact (hfinish.sub hstart (by omega)).mono (by omega)

theorem isWithin_between (e : Edge) : (between e source target).IsWithin 29 := by
  have hsource := hs.box.center (by omega)
  have htarget := ht.box.center (by omega)
  rw [between]
  split
  · exact (htarget.sub hsource (by omega)).mono (by omega)
  · exact (hsource.sub htarget (by omega)).mono (by omega)

theorem isWithin_axis (e : Edge) : (axis e source target).IsWithin 29 := by
  rw [axis]
  split
  · exact isWithin_between hs ht hk e
  · exact isWithin_ends_sub hs ht hk

end

variable (hs : source.IsOrdinary) (ht : target.IsOrdinary)

include hs ht

/-- The arches of edges between ordinary nodes are sound. -/
theorem isSound_arch (e : Edge) : (arch e source target).IsSound where
  middle := ((isWithin_ends hs ht).1.midpoint (isWithin_ends hs ht).2 (by decide)).1
  across := (across_long (isWithin_axis hs.isWithin ht.isWithin (by decide) e)).1
  long := (across_long (isWithin_axis hs.isWithin ht.isWithin (by decide) e)).2
  bow := by
    obtain ⟨hfinite, hlow, hhigh, -⟩ :=
      bow_spec (isWithin_ends_sub hs.isWithin ht.isWithin (by decide))
    exact ⟨hfinite, hlow, hhigh⟩
  turn := turn_spec e

/-- Whether the centers of two nodes count as one does not depend on their order. -/
theorem negligible_lt_between_iff (e : Edge) : negligible < (between e source target).length ↔
    negligible < (target.box.center - source.box.center).length := by
  have hsub := (ht.isWithin_center.sub hs.isWithin_center (by decide)).mono (k := 29) (by decide)
  have hsub' := (hs.isWithin_center.sub ht.isWithin_center (by decide)).mono (k := 29) (by decide)
  obtain ⟨hx, hy⟩ := ht.isWithin_center.value_sub_comm hs.isWithin_center (by decide)
  rw [between]
  split
  · rfl
  · exact negligible_lt_length_iff hsub hsub' hx hy

/-- An edge that leads back runs over an arch with the same middle and the same steps. -/
theorem arch_swap (e e' : Edge) :
    (arch e' target source).middle.exact = (arch e source target).middle.exact ∧
      value (arch e' target source).bow = value (arch e source target).bow := by
  obtain ⟨hstart, hfinish⟩ := isWithin_ends hs ht
  have hsub := isWithin_ends_sub hs.isWithin ht.isWithin (by decide)
  have hsub' := (hstart.sub hfinish (by decide)).mono (k := 29) (by decide)
  obtain ⟨hx, hy⟩ := hfinish.value_sub_comm hstart (by decide)
  rw [arch, arch, ends_swap hs.handles ht.handles]
  exact ⟨(hstart.midpoint hfinish (by decide)).2.1, value_bow_comm hsub hsub' hx hy⟩

/-- **An edge that leads back goes the opposite way**, unless its nodes are tangled. -/
theorem way_arch_swap (hsource : e'.source = e.target) (htarget : e'.target = e.source)
    (hne : e.source ≠ e.target) :
    (AreTangled source target → (arch e' target source).way = (arch e source target).way) ∧
      (¬ AreTangled source target → (arch e' target source).way =
        ⟨-(arch e source target).way.x, -(arch e source target).way.y⟩) := by
  obtain ⟨hbetween, hturn⟩ := @between_swap e e' source target hsource htarget hne
  have hiff := negligible_lt_between_iff hs ht e
  have hends : (ends target source).finish - (ends target source).start =
      (ends source target).start - (ends source target).finish := by
    rw [ends_swap hs.handles ht.handles]
  have hsub := isWithin_ends_sub hs.isWithin ht.isWithin (by decide)
  have hsub' := isWithin_ends_sub ht.isWithin hs.isWithin (by decide)
  obtain ⟨hx, hy⟩ := (isWithin_ends hs ht).2.value_sub_comm (isWithin_ends hs ht).1 (by decide)
  rw [← hends] at hx hy
  constructor
  · rintro ⟨hcenters, hfar⟩
    -- both the vector across and the turn are the opposite ones
    have haxis : axis e source target = _ := if_neg (mt hiff.1 hcenters)
    have haxis' : axis e' target source = _ := if_neg (hbetween ▸ mt hiff.1 hcenters)
    obtain ⟨hacrossX, hacrossY⟩ := across_neg hsub hsub' hx hy hfar
    rw [Arch.way, Arch.way, arch, arch, haxis, haxis', hacrossX, hacrossY, hturn, neg_mul_neg,
      neg_mul_neg]
  · intro hnot
    -- the vector across is the same one, and only the turn is the opposite one
    have hacross : across (axis e' target source) = across (axis e source target) := by
      by_cases hcenters : negligible < (target.box.center - source.box.center).length
      · rw [axis, axis, hbetween, if_pos (hiff.2 hcenters), if_pos (hiff.2 hcenters)]
      · have hnear : ¬ negligible <
            ((ends source target).finish - (ends source target).start).length :=
          fun hfar => hnot ⟨hcenters, hfar⟩
        have hnear' := mt (negligible_lt_length_iff hsub hsub' hx hy).1 hnear
        rw [axis, axis, hbetween, if_neg (mt hiff.1 hcenters), if_neg (mt hiff.1 hcenters), across,
          across, if_neg hnear, if_neg hnear']
    rw [Arch.way, Arch.way, arch, arch, hacross, hturn, mul_neg, mul_neg]

end

end TextDiagram.Route
