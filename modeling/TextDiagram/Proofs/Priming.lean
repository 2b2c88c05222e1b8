/-
**Priming ends, and tells candidates apart.**

A generated id that is taken by a name gets a prime, and another one, until it is free.  Nothing
bounds this loop but the names themselves: the candidates with more and more primes are all
different, so each further round takes one more name.

What is generated ends in a number.  Primes behind a number can be taken off again, so two
candidates stay different, whatever numbers of primes they get.

Main definitions:

* `TextDiagram.Id.Primes` — the loop, as what becomes of a candidate round by round;
* `TextDiagram.Id.IsGenerated` — the forms of the ids that are primed.

Main results:

* `TextDiagram.Id.primes_iff_eq` — **the loop ends**, with what the bounded search finds;
* `TextDiagram.Id.exists_isLeast_primes` — with the least number of primes that sets it free;
* `TextDiagram.Id.IsGenerated.eq_of_iterate_primed_eq` — primes do not make candidates equal;
* `TextDiagram.Id.primes_isLeast_and_injective` — **priming is minimal and keeps candidates
  apart**.
-/

import Mathlib.Data.Finset.Card
import TextDiagram.Proofs.Identifier

set_option relaxedAutoImplicit false
set_option autoImplicit false

namespace TextDiagram.Id

variable {reserved : List Id} {candidate candidate' result : Id}

/-! ### The loop -/

/-- What becomes of a candidate: one that is reserved gets a prime and is looked at again, and one
that is not is the result. -/
inductive Primes (reserved : List Id) : Id → Id → Prop
  | free {id : Id} : id ∉ reserved → Primes reserved id id
  | prime {id result : Id} : id ∈ reserved → Primes reserved id.primed result →
      Primes reserved id result

/-- As many rounds as there are reserved candidates lead to a free one. -/
theorem Primes.of_iterate : ∀ {k : ℕ} {candidate : Id},
    (∀ j < k, iterate primed j candidate ∈ reserved) → iterate primed k candidate ∉ reserved →
      Primes reserved candidate (iterate primed k candidate) := by
  intro k
  induction k with
  | zero => exact fun _ hfree => .free hfree
  | succ k ih =>
      intro candidate hbelow hfree
      refine .prime (hbelow 0 (Nat.succ_pos k)) (ih (fun j hj => ?_) hfree)
      exact hbelow (j + 1) (Nat.succ_lt_succ hj)

/-- Whatever the loop ends with is free, and all candidates before it are reserved. -/
theorem Primes.exists_iterate (h : Primes reserved candidate result) :
    ∃ k, iterate primed k candidate = result ∧ result ∉ reserved ∧
      ∀ j < k, iterate primed j candidate ∈ reserved := by
  induction h with
  | free hfree => exact ⟨0, rfl, hfree, fun j hj => absurd hj (Nat.not_lt_zero j)⟩
  | prime hmem _ ih =>
      obtain ⟨k, hk, hfree, hbelow⟩ := ih
      refine ⟨k + 1, hk, hfree, fun j hj => ?_⟩
      cases j with
      | zero => exact hmem
      | succ j => exact hbelow j (Nat.lt_of_succ_lt_succ hj)

/-- **The loop ends**, and what it ends with is what the bounded search finds. -/
theorem primes_iff_eq :
    Primes reserved candidate result ↔ primedUntilFree reserved candidate = result := by
  rw [primedUntilFree_eq_iff]
  constructor
  · exact Primes.exists_iterate
  · rintro ⟨k, rfl, hfree, hbelow⟩
    exact .of_iterate hbelow hfree

/-! ### The number of primes -/

/-- The reserved candidates with fewer primes than a number are different names. -/
theorem le_card_of_forall_mem {k : ℕ} (h : ∀ j < k, iterate primed j candidate ∈ reserved) :
    k ≤ reserved.toFinset.card := by
  have hsub : (Finset.range k).image (fun j => iterate primed j candidate) ⊆
      reserved.toFinset := by
    intro id hid
    obtain ⟨j, hj, rfl⟩ := Finset.mem_image.1 hid
    exact List.mem_toFinset.2 (h j (Finset.mem_range.1 hj))
  have hcard := Finset.card_le_card hsub
  rwa [Finset.card_image_of_injective _ (iterate_primed_injective candidate), Finset.card_range]
    at hcard

/-- A candidate gets the least number of primes that sets it free, which is not larger than the
number of reserved names. -/
theorem exists_isLeast_primes (reserved : List Id) (candidate : Id) :
    ∃ k, primedUntilFree reserved candidate = iterate primed k candidate ∧
      IsLeast {j | iterate primed j candidate ∉ reserved} k ∧ k ≤ reserved.toFinset.card := by
  obtain ⟨k, hk, hfree, hbelow⟩ :=
    primedUntilFree_eq_iff.1 (Eq.refl (primedUntilFree reserved candidate))
  rw [← hk] at hfree
  refine ⟨k, hk.symm, ⟨hfree, fun j hj => ?_⟩, le_card_of_forall_mem hbelow⟩
  by_contra hlt
  exact hj (hbelow j (Nat.lt_of_not_le hlt))

/-! ### Generated candidates -/

/-- The forms of the ids that are primed: those of the edges, and those of the directives. -/
inductive IsGenerated : Id → Prop
  | edge (source target : Id) (line : ℕ) : IsGenerated (Id.edge source target line)
  | direction (line : ℕ) : IsGenerated (numbered "direction" line)
  | style (line : ℕ) : IsGenerated (numbered "style" line)

/-- A generated id is what stands before its number, and then the number. -/
theorem IsGenerated.toList_eq (h : IsGenerated candidate) :
    candidate.toList = candidate.stem ++ Nat.toDigits 10 candidate.endNumber := by
  cases h with
  | edge source target line =>
      rw [stem_edge, endNumber_edge]
      simp [Id.edge, toString]
  | direction line =>
      rw [stem_numbered, endNumber_numbered]
      simp [numbered, toString]
  | style line =>
      rw [stem_numbered, endNumber_numbered]
      simp [numbered, toString]

/-- Primes do not make generated ids equal. -/
theorem IsGenerated.eq_of_iterate_primed_eq (h : IsGenerated candidate)
    (h' : IsGenerated candidate') {k k' : ℕ}
    (heq : iterate primed k candidate = iterate primed k' candidate') : candidate = candidate' := by
  have hstem : candidate.stem = candidate'.stem := by
    rw [← stem_iterate_primed k, heq, stem_iterate_primed]
  have hnumber : candidate.endNumber = candidate'.endNumber := by
    rw [← endNumber_iterate_primed k, heq, endNumber_iterate_primed]
  rw [← String.toList_inj, h.toList_eq, h'.toList_eq, hstem, hnumber]

/-- **Priming is minimal and keeps candidates apart.**  Whatever names are reserved, the loop ends
for every candidate, in one way.  It ends with the candidate followed by primes, by the least number
of them that makes it differ from every reserved name, and that is at most one for each reserved
name.  Different ids that are generated for edges and directives stay different. -/
theorem primes_isLeast_and_injective (reserved : List Id) :
    (∀ candidate : Id, ∃ k,
      (∀ result, Primes reserved candidate result ↔ result = primedUntilFree reserved candidate) ∧
      (primedUntilFree reserved candidate).toList = candidate.toList ++ List.replicate k '\'' ∧
      IsLeast {j | String.ofList (candidate.toList ++ List.replicate j '\'') ∉ reserved} k ∧
      k ≤ reserved.toFinset.card) ∧
    ∀ candidate candidate' : Id, IsGenerated candidate → IsGenerated candidate' →
      candidate ≠ candidate' →
        primedUntilFree reserved candidate ≠ primedUntilFree reserved candidate' := by
  refine ⟨fun candidate => ?_, fun candidate candidate' h h' hne heq => ?_⟩
  · obtain ⟨k, hk, hleast, hcard⟩ := exists_isLeast_primes reserved candidate
    refine ⟨k, fun result => primes_iff_eq.trans eq_comm, ?_, ?_, hcard⟩
    · rw [hk, toList_iterate_primed]
    · simpa only [← toList_iterate_primed, String.ofList_toList] using hleast
  · obtain ⟨k, hk, -, -⟩ := exists_isLeast_primes reserved candidate
    obtain ⟨k', hk', -, -⟩ := exists_isLeast_primes reserved candidate'
    exact hne (h.eq_of_iterate_primed_eq h' (hk.symm.trans (heq.trans hk')))

/-- A candidate gets two primes, although its form with three is reserved, too.  Another candidate
that is reserved gets one, and the two stay different. -/
theorem primes_isLeast_and_injective_of_gap :
    let reserved := ["style_3", "edge_A_B_2'", "edge_A_B_2", "edge_A_B_2'''"]
    primedUntilFree reserved "edge_A_B_2" = "edge_A_B_2''" ∧
      primedUntilFree reserved "style_3" = "style_3'" ∧
      IsGenerated "edge_A_B_2" ∧ IsGenerated "style_3" ∧ "edge_A_B_2" ≠ "style_3" ∧
      primedUntilFree reserved "edge_A_B_2" ≠ primedUntilFree reserved "style_3" := by
  intro reserved
  have hedge : IsGenerated "edge_A_B_2" := .edge "A" "B" 2
  have hstyle : IsGenerated "style_3" := .style 3
  have hne : "edge_A_B_2" ≠ "style_3" := by decide
  exact ⟨by decide, by decide, hedge, hstyle, hne,
    (primes_isLeast_and_injective reserved).2 _ _ hedge hstyle hne⟩

end TextDiagram.Id
