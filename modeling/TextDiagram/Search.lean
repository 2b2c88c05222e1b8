/-
**The first free one.**

Generated ids are changed until no one has them, and a node is moved until no one sits where it
sits.  All of these walk along `start`, `next start`, `next (next start)`, … to the first member
that is not taken.  The walk is given the number of steps after which it can only repeat itself:
with as many steps as there are taken members, a walk that stands on a taken member after the last
step has either met a member twice or met them all.

Main definitions:

* `TextDiagram.iterate` — a member of the walk;
* `TextDiagram.firstFree?` — the first free member of the walk.

Main results:

* `TextDiagram.firstFree?_eq_some_iff` — the answer is the least free member within the steps;
* `TextDiagram.firstFree?_eq_none_iff` — there is no answer when all members within the steps are
  taken.
-/

set_option relaxedAutoImplicit false
set_option autoImplicit false

namespace TextDiagram

variable {α : Type}

/-- The member of a walk after a number of steps. -/
def iterate (next : α → α) : Nat → α → α
  | 0, start => start
  | n + 1, start => iterate next n (next start)

/-- The first member of the walk from `start` that is not taken, within a number of steps. -/
def firstFree? (taken : α → Bool) (next : α → α) : Nat → α → Option α
  | 0, start => if taken start then none else some start
  | steps + 1, start =>
      if taken start then firstFree? taken next steps (next start) else some start

@[simp] theorem iterate_zero (next : α → α) (start : α) : iterate next 0 start = start := rfl

theorem iterate_succ (next : α → α) (n : Nat) (start : α) :
    iterate next (n + 1) start = iterate next n (next start) := rfl

/-- There is no answer exactly when every member within the steps is taken. -/
theorem firstFree?_eq_none_iff {taken : α → Bool} {next : α → α} :
    ∀ {steps : Nat} {start : α}, firstFree? taken next steps start = none ↔
      ∀ k, k ≤ steps → taken (iterate next k start) = true := by
  intro steps
  induction steps with
  | zero =>
      intro start
      simp only [firstFree?, Nat.le_zero_eq, forall_eq, iterate_zero]
      cases taken start <;> simp
  | succ steps ih =>
      intro start
      cases h : taken start with
      | false =>
          simp only [firstFree?, h, Bool.false_eq_true, if_false, reduceCtorEq, false_iff]
          intro hall
          have := hall 0 (Nat.zero_le _)
          rw [iterate_zero, h] at this
          exact absurd this (by decide)
      | true =>
          simp only [firstFree?, h, if_true, ih]
          constructor
          · intro hall k hk
            cases k with
            | zero => exact h
            | succ k => exact hall k (by omega)
          · intro hall k hk
            exact hall (k + 1) (by omega)

/-- An answer is the free member after the least number of steps. -/
theorem firstFree?_eq_some_iff {taken : α → Bool} {next : α → α} :
    ∀ {steps : Nat} {start found : α}, firstFree? taken next steps start = some found ↔
      ∃ n, n ≤ steps ∧ iterate next n start = found ∧ taken found = false ∧
        ∀ k, k < n → taken (iterate next k start) = true := by
  intro steps
  induction steps with
  | zero =>
      intro start found
      cases h : taken start with
      | false =>
          simp only [firstFree?, h, Bool.false_eq_true, if_false, Option.some.injEq]
          constructor
          · rintro rfl
            exact ⟨0, Nat.le_refl 0, rfl, h, fun k hk => absurd hk (Nat.not_lt_zero k)⟩
          · rintro ⟨n, hn, hfound, -, -⟩
            obtain rfl : n = 0 := by omega
            exact hfound
      | true =>
          simp only [firstFree?, h, if_true, reduceCtorEq, false_iff]
          rintro ⟨n, hn, hfound, hfree, -⟩
          obtain rfl : n = 0 := by omega
          rw [iterate_zero] at hfound
          rw [← hfound, h] at hfree
          exact absurd hfree (by decide)
  | succ steps ih =>
      intro start found
      cases h : taken start with
      | false =>
          simp only [firstFree?, h, Bool.false_eq_true, if_false, Option.some.injEq]
          constructor
          · rintro rfl
            exact ⟨0, Nat.zero_le _, rfl, h, fun k hk => absurd hk (Nat.not_lt_zero k)⟩
          · rintro ⟨n, -, hfound, -, hbelow⟩
            cases n with
            | zero => exact hfound
            | succ n =>
                have := hbelow 0 (Nat.succ_pos n)
                rw [iterate_zero, h] at this
                exact absurd this (by decide)
      | true =>
          simp only [firstFree?, h, if_true, ih]
          constructor
          · rintro ⟨n, hn, hfound, hfree, hbelow⟩
            refine ⟨n + 1, by omega, hfound, hfree, ?_⟩
            intro k hk
            cases k with
            | zero => exact h
            | succ k => exact hbelow k (by omega)
          · rintro ⟨n, hn, hfound, hfree, hbelow⟩
            cases n with
            | zero =>
                rw [iterate_zero] at hfound
                rw [← hfound, h] at hfree
                exact absurd hfree (by decide)
            | succ n =>
                exact ⟨n, by omega, hfound, hfree, fun k hk => hbelow (k + 1) (by omega)⟩

end TextDiagram
