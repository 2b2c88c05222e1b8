/-
**When two curves are the same.**

The points of a curve are numbers of a computer, but the curve that they stand for is one of the
real plane.  Two curves coincide if they have the same point at every parameter, as given or with
one of them run through backwards.  A quadratic curve is a cubic one whose control points lie two
thirds of the way, and a cubic curve is determined by its four points.

Main definitions:

* `TextDiagram.Curve.exact` — the curve of the real plane that a curve stands for;
* `TextDiagram.Curve.Coincides` — two curves that are drawn on top of each other;
* `TextDiagram.Curve.elevated`, `TextDiagram.Curve.reversed` — a curve as a cubic one, and a curve
  run through backwards.

Main results:

* `TextDiagram.Curve.coincides_iff` — **curves coincide exactly if their points do**, once they are
  cubic;
* `TextDiagram.Curve.coincides_quadratic_iff` — what this says of curves that join two points in the
  two directions.
-/

import TextDiagram.Geometry.Curve
import TextDiagram.Proofs.Number.Arithmetic

set_option relaxedAutoImplicit false
set_option autoImplicit false

namespace TextDiagram

open Number (value)

/-- The point of the real plane that a point stands for. -/
noncomputable def Point.exact (p : Point Float32) : Point ℝ := ⟨value p.x, value p.y⟩

/-- Points of the plane are the same if both coordinates are. -/
theorem Point.exact_eq_iff {p q : Point Float32} :
    p.exact = q.exact ↔ value p.x = value q.x ∧ value p.y = value q.y := by
  simp [exact]

namespace Curve

/-- The curve of the real plane that a curve stands for. -/
noncomputable def exact : Curve Float32 → Curve ℝ
  | quadratic start control finish => .quadratic start.exact control.exact finish.exact
  | cubic start control₁ control₂ finish =>
      .cubic start.exact control₁.exact control₂.exact finish.exact

section

variable {α : Type} {P : Point α → Prop}

theorem forall_mem_points_quadratic {s q f : Point α} :
    (∀ p ∈ (quadratic s q f).points, P p) ↔ P s ∧ P q ∧ P f := by
  simp [points]

theorem forall_mem_points_cubic {s c₁ c₂ f : Point α} :
    (∀ p ∈ (cubic s c₁ c₂ f).points, P p) ↔ P s ∧ P c₁ ∧ P c₂ ∧ P f := by
  simp [points]

end

/-- The point one third of the way from `q` to `p`. -/
noncomputable def third (p q : Point ℝ) : Point ℝ :=
  ⟨(p.x + q.x + q.x) / 3, (p.y + q.y + q.y) / 3⟩

theorem third_injective {p q q' : Point ℝ} (h : third p q = third p q') : q = q' := by
  obtain ⟨x, y⟩ := q
  obtain ⟨x', y'⟩ := q'
  simp only [third, Point.mk.injEq] at h ⊢
  exact ⟨by linarith, by linarith⟩

/-- A curve as a cubic one. -/
noncomputable def elevated : Curve ℝ → Curve ℝ
  | quadratic s q f => cubic s (third s q) (third f q) f
  | cubic s c₁ c₂ f => cubic s c₁ c₂ f

/-- A curve run through backwards. -/
def reversed : Curve ℝ → Curve ℝ
  | quadratic s q f => quadratic f q s
  | cubic s c₁ c₂ f => cubic f c₂ c₁ s

-- real numbers are scalars here only: elsewhere their division is meant to be that of the field
noncomputable local instance : Scalar ℝ where
  ofNat n := n
  smaller := min
  larger := max

/-- Two curves are drawn on top of each other: they have the same points, in the same or in the
opposite order. -/
def Coincides (c d : Curve Float32) : Prop :=
  (∀ t : ℝ, 0 ≤ t ∧ t ≤ 1 → c.exact.point t = d.exact.point t) ∨
    ∀ t : ℝ, 0 ≤ t ∧ t ≤ 1 → c.exact.point t = d.exact.point (1 - t)

/-! ### Cubic curves -/

variable {s q f c₁ c₂ s' q' f' c₁' c₂' : Point ℝ} {t : ℝ}

@[simp] theorem point_quadratic : (quadratic s q f).point t =
    ⟨(1 - t) ^ 2 * s.x + 2 * (1 - t) * t * q.x + t ^ 2 * f.x,
      (1 - t) ^ 2 * s.y + 2 * (1 - t) * t * q.y + t ^ 2 * f.y⟩ := by
  have hone : (Scalar.ofNat 1 : ℝ) = 1 := Nat.cast_one
  have htwo : (Scalar.ofNat 2 : ℝ) = 2 := Nat.cast_ofNat
  rw [point, hone, htwo]
  refine congrArg₂ Point.mk ?_ ?_
  · simp only [Point.add_x, Point.scale_x]
    ring
  · simp only [Point.add_y, Point.scale_y]
    ring

@[simp] theorem point_cubic : (cubic s c₁ c₂ f).point t =
    ⟨(1 - t) ^ 3 * s.x + 3 * (1 - t) ^ 2 * t * c₁.x + 3 * (1 - t) * t ^ 2 * c₂.x + t ^ 3 * f.x,
      (1 - t) ^ 3 * s.y + 3 * (1 - t) ^ 2 * t * c₁.y + 3 * (1 - t) * t ^ 2 * c₂.y +
        t ^ 3 * f.y⟩ := by
  have hone : (Scalar.ofNat 1 : ℝ) = 1 := Nat.cast_one
  have hthree : (Scalar.ofNat 3 : ℝ) = 3 := Nat.cast_ofNat
  rw [point, hone, hthree]
  refine congrArg₂ Point.mk ?_ ?_
  · simp only [Point.add_x, Point.scale_x]
    ring
  · simp only [Point.add_y, Point.scale_y]
    ring

theorem point_elevated (c : Curve ℝ) (t : ℝ) : c.elevated.point t = c.point t := by
  cases c with
  | cubic s c₁ c₂ f => rfl
  | quadratic s q f =>
      rw [elevated, point_cubic, point_quadratic]
      refine congrArg₂ Point.mk ?_ ?_
      · rw [third, third]
        ring
      · rw [third, third]
        ring

theorem point_reversed (c : Curve ℝ) (t : ℝ) : c.reversed.point t = c.point (1 - t) := by
  cases c with
  | cubic s c₁ c₂ f =>
      rw [reversed, point_cubic, point_cubic]
      refine congrArg₂ Point.mk ?_ ?_
      · ring
      · ring
  | quadratic s q f =>
      rw [reversed, point_quadratic, point_quadratic]
      refine congrArg₂ Point.mk ?_ ?_
      · ring
      · ring

/-- A cubic polynomial is determined by its values between zero and one. -/
theorem coefficients_eq {a b c d a' b' c' d' : ℝ} (h : ∀ t : ℝ, 0 ≤ t ∧ t ≤ 1 →
    (1 - t) ^ 3 * a + 3 * (1 - t) ^ 2 * t * b + 3 * (1 - t) * t ^ 2 * c + t ^ 3 * d =
      (1 - t) ^ 3 * a' + 3 * (1 - t) ^ 2 * t * b' + 3 * (1 - t) * t ^ 2 * c' + t ^ 3 * d') :
    a = a' ∧ b = b' ∧ c = c' ∧ d = d' := by
  have h0 := h 0 (by norm_num)
  have h1 := h 1 (by norm_num)
  have hlow := h (1 / 3) (by norm_num)
  have hhigh := h (2 / 3) (by norm_num)
  norm_num at h0 h1 hlow hhigh
  refine ⟨h0, ?_, ?_, h1⟩
  · linarith
  · linarith

/-- Curves with the same points between their ends are the same, once they are cubic. -/
theorem elevated_eq_iff {c d : Curve ℝ} :
    c.elevated = d.elevated ↔ ∀ t : ℝ, 0 ≤ t ∧ t ≤ 1 → c.point t = d.point t := by
  constructor
  · intro h t _
    rw [← point_elevated, h, point_elevated]
  · intro h
    have hcubic : ∀ t : ℝ, 0 ≤ t ∧ t ≤ 1 → c.elevated.point t = d.elevated.point t := by
      simpa only [point_elevated] using h
    obtain ⟨s, c₁, c₂, f, hc⟩ : ∃ s c₁ c₂ f, c.elevated = cubic s c₁ c₂ f := by
      cases c <;> exact ⟨_, _, _, _, rfl⟩
    obtain ⟨s', c₁', c₂', f', hd⟩ : ∃ s c₁ c₂ f, d.elevated = cubic s c₁ c₂ f := by
      cases d <;> exact ⟨_, _, _, _, rfl⟩
    rw [hc, hd] at hcubic ⊢
    simp only [point_cubic, Point.mk.injEq] at hcubic
    obtain ⟨hs, h₁, h₂, hf⟩ := coefficients_eq fun t ht => (hcubic t ht).1
    obtain ⟨hs', h₁', h₂', hf'⟩ := coefficients_eq fun t ht => (hcubic t ht).2
    obtain ⟨x, y⟩ := s
    obtain ⟨x₁, y₁⟩ := c₁
    obtain ⟨x₂, y₂⟩ := c₂
    obtain ⟨x₃, y₃⟩ := f
    simp only at hs hs' h₁ h₁' h₂ h₂' hf hf'
    rw [hs, hs', h₁, h₁', h₂, h₂', hf, hf']

/-! ### Coincidence -/

/-- **Curves coincide exactly if their points do**, once they are cubic, in the same or in the
opposite order. -/
theorem coincides_iff {c d : Curve Float32} : c.Coincides d ↔
    c.exact.elevated = d.exact.elevated ∨ c.exact.elevated = d.exact.reversed.elevated := by
  rw [Coincides, elevated_eq_iff, elevated_eq_iff]
  simp only [point_reversed]

theorem Coincides.symm {c d : Curve Float32} (h : c.Coincides d) : d.Coincides c := by
  refine h.imp (fun h t ht => (h t ht).symm) fun h t ht => ?_
  have := h (1 - t) ⟨by linarith, by linarith⟩
  rw [sub_sub_cancel] at this
  exact this.symm

section

variable {s q f q' c₁ c₂ c₁' c₂' : Point Float32}

/-- Quadratic curves that join two points in the two directions coincide exactly if their control
points are the same. -/
theorem coincides_quadratic_iff :
    (quadratic s q f).Coincides (quadratic f q' s) ↔ q.exact = q'.exact := by
  rw [coincides_iff]
  simp only [exact, elevated, reversed, cubic.injEq]
  constructor
  · rintro (⟨hs, h, -, -⟩ | ⟨-, h, -, -⟩)
    · rw [hs] at h
      exact third_injective h
    · exact third_injective h
  · intro h
    simp [h]

/-- Quadratic curves with the same ends that coincide have the same control point. -/
theorem Coincides.control_eq (h : (quadratic s q f).Coincides (quadratic s q' f)) :
    q.exact = q'.exact := by
  rw [coincides_iff] at h
  simp only [exact, elevated, reversed, cubic.injEq] at h
  rcases h with ⟨-, h, -, -⟩ | ⟨hs, h, -, -⟩
  · exact third_injective h
  · rw [hs] at h
    exact third_injective h

/-- A cubic curve that coincides with a quadratic one has its control points two thirds of the way
to the one of the other curve. -/
theorem Coincides.controls_eq (h : (cubic s c₁ c₂ f).Coincides (quadratic s q f)) :
    (3 * value c₁.x = value s.x + 2 * value q.x ∧ 3 * value c₁.y = value s.y + 2 * value q.y) ∧
      3 * value c₂.x = value f.x + 2 * value q.x ∧ 3 * value c₂.y = value f.y + 2 * value q.y := by
  have hthird : ∀ {c p : Point Float32}, c.exact = third p.exact q.exact →
      3 * value c.x = value p.x + 2 * value q.x ∧ 3 * value c.y = value p.y + 2 * value q.y := by
    intro c p heq
    simp only [third, Point.exact, Point.mk.injEq] at heq
    exact ⟨by linarith [heq.1], by linarith [heq.2]⟩
  rw [coincides_iff] at h
  simp only [exact, elevated, reversed, cubic.injEq] at h
  rcases h with ⟨-, h₁, h₂, -⟩ | ⟨hs, h₁, h₂, -⟩
  · exact ⟨hthird h₁, hthird h₂⟩
  · exact ⟨hthird (hs ▸ h₁), hthird (hs ▸ h₂)⟩

/-- Cubic curves with the same ends that coincide leave their start for the same control point, or
they start where they end. -/
theorem Coincides.first_control_eq (h : (cubic s c₁ c₂ f).Coincides (cubic s c₁' c₂' f)) :
    c₁.exact = c₁'.exact ∨ s.exact = f.exact ∧ c₁.exact = c₂'.exact := by
  rw [coincides_iff] at h
  simp only [exact, elevated, reversed, cubic.injEq] at h
  exact h.imp (fun h => h.2.1) fun h => ⟨h.1, h.2.1⟩

end

end Curve

end TextDiagram
