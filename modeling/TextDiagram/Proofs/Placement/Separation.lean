/-
**Walkers that look for a free place.**

Nodes that sit at the same point are nudged on, one after the other, until each has a point of its
own.  In general, walkers set out from given places, all of them step by step along the same ways,
and each settles at the first place of its way where none has settled before.

A walker gets stuck if its way never leaves the places that are taken.  Then consider all places
from which the way never leaves them.  Whoever has settled at one of these has also set out from
one, as it has passed by taken places only.  So, with the one that is stuck, more walkers have set
out from these places than there are, and wherever along their ways they had stopped, two would have
met.  Hence the walkers settle, one after the other in any order, exactly if they can be kept apart
at all.

Main definitions:

* `TextDiagram.IsSettled` — walkers have settled at different places;
* `TextDiagram.IsStuck` — one of some walkers gets stuck;
* `TextDiagram.Grid.CanBeApart` — nudging can put the nodes at different points.

Main results:

* `TextDiagram.firstFree?_contains_eq_none_iff` — a walk that is not free within as many steps as
  there are taken places never gets free;
* `TextDiagram.IsStuck.not_injOn` — **walkers of which one gets stuck cannot be kept apart**;
* `TextDiagram.Grid.separate?_cons` — how one node settles;
* `TextDiagram.Grid.separate?_cases` — the nodes settle, or one of them gets stuck;
* `TextDiagram.Grid.separate?_nil_cases` — **the nudging ends exactly if the nodes can be nudged
  apart**.
-/

import Mathlib.Data.Finset.Card
import Mathlib.Data.Set.Function
import TextDiagram.Placement.Grid
import TextDiagram.Proofs.Catalog

set_option relaxedAutoImplicit false
set_option autoImplicit false

namespace TextDiagram

variable {ι β : Type} {next : β → β} {start final : ι → β} {settled all : List ι}

/-! ### Walks -/

theorem iterate_add (next : β → β) (m n : ℕ) (b : β) :
    iterate next (m + n) b = iterate next n (iterate next m b) := by
  induction m generalizing b with
  | zero => rw [Nat.zero_add, iterate_zero]
  | succ m ih => rw [Nat.succ_add, iterate_succ, ih, iterate_succ]

/-- A walk that is at taken places for as many steps as there are such places comes to some place
twice. -/
theorem exists_iterate_eq_of_le {taken : List β} {b : β}
    (h : ∀ k ≤ taken.length, iterate next k b ∈ taken) :
    ∃ m n, m < n ∧ n ≤ taken.length ∧ iterate next m b = iterate next n b := by
  classical
  have hcard : taken.toFinset.card < (Finset.range (taken.length + 1)).card := by
    rw [Finset.card_range]
    exact Nat.lt_succ_of_le taken.toFinset_card_le
  obtain ⟨m, hm, n, hn, hne, heq⟩ := Finset.exists_ne_map_eq_of_card_lt_of_maps_to hcard
    (f := fun k => iterate next k b) fun k hk =>
      List.mem_toFinset.2 (h k (Nat.lt_succ_iff.1 (Finset.mem_range.1 hk)))
  rw [Finset.mem_range, Nat.lt_succ_iff] at hm hn
  rcases Nat.lt_or_gt_of_ne hne with hlt | hlt
  · exact ⟨m, n, hlt, hn, heq⟩
  · exact ⟨n, m, hlt, hm, heq.symm⟩

/-- Such a walk never leaves the taken places. -/
theorem iterate_mem_of_le {taken : List β} {b : β}
    (h : ∀ k ≤ taken.length, iterate next k b ∈ taken) (k : ℕ) : iterate next k b ∈ taken := by
  obtain ⟨m, n, hlt, hn, heq⟩ := exists_iterate_eq_of_le h
  induction k using Nat.strong_induction_on with
  | _ k ih =>
      by_cases hk : k ≤ taken.length
      · exact h k hk
      · -- the same place is reached without the steps between the two visits
        have hback : iterate next k b = iterate next (m + (k - n)) b := by
          conv_lhs => rw [← Nat.add_sub_cancel' (hn.trans (Nat.le_of_not_le hk))]
          rw [iterate_add, ← heq, ← iterate_add]
        rw [hback]
        exact ih _ (by omega)

/-- A walk that is not free within as many steps as there are taken places never gets free. -/
theorem firstFree?_contains_eq_none_iff [BEq β] [LawfulBEq β] {taken : List β} {b : β} :
    firstFree? (taken.contains ·) next taken.length b = none ↔ ∀ k, iterate next k b ∈ taken := by
  simp only [firstFree?_eq_none_iff, List.contains_iff_mem]
  exact ⟨iterate_mem_of_le, fun h k _ => h k⟩

/-! ### Settling -/

/-- Walkers have settled at different places, each at the first free one of its way: what it has
passed by is taken. -/
structure IsSettled (next : β → β) (start final : ι → β) (settled : List ι) : Prop where
  nodup : (settled.map final).Nodup
  reached : ∀ i ∈ settled, ∃ n, iterate next n (start i) = final i ∧
    ∀ k < n, iterate next k (start i) ∈ settled.map final

theorem isSettled_nil : IsSettled next start final [] :=
  ⟨List.nodup_nil, fun _ h => absurd h List.not_mem_nil⟩

namespace IsSettled

/-- Where walkers have settled says nothing of the others. -/
theorem congr {final' : ι → β} (h : IsSettled next start final settled)
    (heq : ∀ i ∈ settled, final' i = final i) : IsSettled next start final' settled := by
  have hmap : settled.map final' = settled.map final := List.map_congr_left heq
  refine ⟨hmap ▸ h.nodup, fun i hi => ?_⟩
  rw [hmap, heq i hi]
  exact h.reached i hi

/-- One more walker settles. -/
theorem cons [BEq β] [LawfulBEq β] (h : IsSettled next start final settled) {i : ι}
    (hfree : firstFree? ((settled.map final).contains ·) next (settled.map final).length
      (start i) = some (final i)) : IsSettled next start final (i :: settled) := by
  obtain ⟨n, -, hn, hnew, hpassed⟩ := firstFree?_eq_some_iff.1 hfree
  simp only [List.contains_iff_mem] at hpassed
  constructor
  · rw [List.map_cons, List.nodup_cons]
    exact ⟨by simpa using hnew, h.nodup⟩
  · intro j hj
    rw [List.map_cons]
    rcases List.mem_cons.1 hj with rfl | hj
    · exact ⟨n, hn, fun k hk => List.mem_cons_of_mem _ (hpassed k hk)⟩
    · obtain ⟨m, hm, hbefore⟩ := h.reached j hj
      exact ⟨m, hm, fun k hk => List.mem_cons_of_mem _ (hbefore k hk)⟩

/-- Walkers that have settled are kept apart by the steps that they have made. -/
theorem exists_injOn (h : IsSettled next start final settled) :
    ∃ count : ι → ℕ, Set.InjOn (fun i => iterate next (count i) (start i)) {i | i ∈ settled} := by
  classical
  choose! count hcount using h.reached
  refine ⟨count, fun i hi j hj heq => ?_⟩
  simp only [(hcount i hi).1, (hcount j hj).1] at heq
  exact List.inj_on_of_nodup_map h.nodup hi hj heq

end IsSettled

/-- Some of the walkers have settled, and another one never gets free. -/
def IsStuck (next : β → β) (start : ι → β) (all : List ι) : Prop :=
  ∃ (final : ι → β) (i : ι) (settled : List ι), IsSettled next start final settled ∧
    i ∉ settled ∧ i :: settled ⊆ all ∧ ∀ k, iterate next k (start i) ∈ settled.map final

namespace IsStuck

theorem mono {more : List ι} (h : IsStuck next start all) (hsub : all ⊆ more) :
    IsStuck next start more := by
  obtain ⟨final, i, settled, hsettled, hi, hall, hstuck⟩ := h
  exact ⟨final, i, settled, hsettled, hi, fun j hj => hsub (hall hj), hstuck⟩

/-- **Walkers of which one gets stuck cannot be kept apart.** -/
theorem not_injOn (h : IsStuck next start all) (count : ι → ℕ) :
    ¬ Set.InjOn (fun i => iterate next (count i) (start i)) {i | i ∈ all} := by
  classical
  obtain ⟨final, new, settled, hsettled, hnew, hall, hstuck⟩ := h
  intro hinj
  let Trapped (b : β) : Prop := ∀ k, iterate next k b ∈ settled.map final
  let trapped := settled.filter fun i => Trapped (final i)
  have hmem : ∀ {b}, Trapped b → b ∈ trapped.map final := by
    intro b hb
    obtain ⟨i, hi, rfl⟩ := List.mem_map.1 (hb 0)
    exact List.mem_map_of_mem (List.mem_filter.2 ⟨hi, decide_eq_true hb⟩)
  -- who is trapped has set out trapped, as it has passed by taken places only
  have hstart : ∀ i ∈ new :: trapped, Trapped (start i) := by
    intro i hi k
    rcases List.mem_cons.1 hi with rfl | hi
    · exact hstuck k
    · obtain ⟨hi, hfinal⟩ := List.mem_filter.1 hi
      obtain ⟨n, hn, hpassed⟩ := hsettled.reached i hi
      rcases Nat.lt_or_ge k n with hk | hk
      · exact hpassed k hk
      · rw [← Nat.add_sub_cancel' hk, iterate_add, hn]
        exact of_decide_eq_true hfinal _
  have hnodup : (new :: trapped).Nodup :=
    List.nodup_cons.2 ⟨fun h => hnew (List.mem_of_mem_filter h),
      (List.Nodup.of_map final hsettled.nodup).filter _⟩
  have hsub : (new :: trapped).map (fun i => iterate next (count i) (start i)) ⊆
      trapped.map final := by
    intro b hb
    obtain ⟨i, hi, rfl⟩ := List.mem_map.1 hb
    refine hmem fun k => ?_
    rw [← iterate_add]
    exact hstart i hi _
  have hinj' : ∀ i ∈ new :: trapped, ∀ j ∈ new :: trapped,
      iterate next (count i) (start i) = iterate next (count j) (start j) → i = j := by
    have hin : ∀ i ∈ new :: trapped, i ∈ all := by
      intro i hi
      rcases List.mem_cons.1 hi with rfl | hi
      · exact hall List.mem_cons_self
      · exact hall (List.mem_cons_of_mem _ (List.mem_of_mem_filter hi))
    exact fun i hi j hj heq => hinj (hin i hi) (hin j hj) heq
  have hlen := (hnodup.map_on hinj').length_le_of_subset hsub
  rw [List.length_map, List.length_map, List.length_cons] at hlen
  omega

/-- The way of one of the walkers comes to some place twice, within fewer steps than there are
walkers. -/
theorem exists_iterate_eq (h : IsStuck next start all) : ∃ i ∈ all, ∃ m n, m < n ∧
    n < all.length ∧ iterate next m (start i) = iterate next n (start i) := by
  obtain ⟨final, i, settled, hsettled, hi, hall, hstuck⟩ := h
  obtain ⟨m, n, hlt, hn, heq⟩ := exists_iterate_eq_of_le fun k _ => hstuck k
  rw [List.length_map] at hn
  have hnodup : (i :: settled).Nodup :=
    List.nodup_cons.2 ⟨hi, List.Nodup.of_map final hsettled.nodup⟩
  have hlen := hnodup.length_le_of_subset hall
  rw [List.length_cons] at hlen
  exact ⟨i, hall List.mem_cons_self, m, n, hlt, by omega, heq⟩

end IsStuck

/-! ### Nudging -/

namespace Grid

variable {α : Type} [Scalar α] {positions final : Catalog (Point α)} {ids : List Id} {id : Id}

/-- Where positions put an id. -/
def placeOf (positions : Catalog (Point α)) (id : Id) : Point α :=
  (positions.get? id).getD .origin

theorem get?_eq_some_placeOf (h : id ∈ positions.ids) :
    positions.get? id = some (placeOf positions id) := by
  obtain ⟨p, hp⟩ := Catalog.mem_ids_iff.1 h
  rw [placeOf, hp, Option.getD_some]

@[simp] theorem placeOf_insert_self {p : Point α} : placeOf (positions.insert id p) id = p := by
  rw [placeOf, Catalog.get?_insert_self, Option.getD_some]

theorem placeOf_insert_of_ne {other : Id} {p : Point α} (h : other ≠ id) :
    placeOf (positions.insert id p) other = placeOf positions other := by
  rw [placeOf, placeOf, Catalog.get?_insert_of_ne _ h]

/-- Nodes that have settled stay where they are when another one settles. -/
theorem map_placeOf_insert {settled : List Id} (h : id ∉ settled) (p : Point α) :
    settled.map (placeOf (positions.insert id p)) = settled.map (placeOf positions) :=
  List.map_congr_left fun _ hother => placeOf_insert_of_ne fun heq => h (heq ▸ hother)

/-- Nudging can put the nodes at different points: there are numbers of nudges for that. -/
def CanBeApart (positions : Catalog (Point α)) : Prop :=
  ∃ count : Id → ℕ,
    Set.InjOn (fun id => iterate nudged (count id) (placeOf positions id)) {id | id ∈ positions.ids}

omit [Scalar α] in
/-- Nodes that are still to settle stay where they set out from when another one settles. -/
theorem toSettle_insert {start : Id → Point α} {rest settled : List Id}
    (hnodup : (id :: rest).Nodup)
    (h : ∀ other ∈ id :: rest, other ∉ settled ∧ positions.get? other = some (start other))
    (p : Point α) : ∀ other ∈ rest, other ∉ id :: settled ∧
      (positions.insert id p).get? other = some (start other) := by
  intro other hother
  obtain ⟨hsettled, hstart⟩ := h other (List.mem_cons_of_mem _ hother)
  have hne : other ≠ id := fun heq => (List.nodup_cons.1 hnodup).1 (heq ▸ hother)
  rw [Catalog.get?_insert_of_ne _ hne]
  exact ⟨List.not_mem_cons_of_ne_of_not_mem hne hsettled, hstart⟩

variable [DecidableEq α]

/-- One node is nudged to the first free point on its way, and then it is one of those that have
settled. -/
theorem separate?_cons {rest settled : List Id} {p : Point α} (hnew : id ∉ settled)
    (hget : positions.get? id = some p) :
    separate? (id :: rest) (settled.map (placeOf positions)) positions =
      (firstFree? ((settled.map (placeOf positions)).contains ·) nudged
          (settled.map (placeOf positions)).length p).bind fun free =>
        separate? rest ((id :: settled).map (placeOf (positions.insert id free)))
          (positions.insert id free) := by
  simp only [separate?, hget, List.map_cons, placeOf_insert_self, map_placeOf_insert hnew]

/-- The nodes settle, one after the other, or one of them gets stuck. -/
theorem separate?_cases {start : Id → Point α} : ∀ {ids settled : List Id}
    {positions : Catalog (Point α)}, ids.Nodup →
    (∀ id ∈ ids, id ∉ settled ∧ positions.get? id = some (start id)) →
    IsSettled nudged start (placeOf positions) settled →
    (∃ final, separate? ids (settled.map (placeOf positions)) positions = some final ∧
        IsSettled nudged start (placeOf final) (ids.reverse ++ settled)) ∨
      separate? ids (settled.map (placeOf positions)) positions = none ∧
        IsStuck nudged start (ids ++ settled) := by
  intro ids
  induction ids with
  | nil => intro settled positions _ _ h; exact Or.inl ⟨positions, rfl, h⟩
  | cons id rest ih =>
      intro settled positions hnodup hids h
      obtain ⟨hnew, hget⟩ := hids id List.mem_cons_self
      rw [separate?_cons hnew hget]
      cases hfree : firstFree? ((settled.map (placeOf positions)).contains ·) nudged
          (settled.map (placeOf positions)).length (start id) with
      | none =>
          refine Or.inr ⟨rfl, placeOf positions, id, settled, h, hnew, ?_, ?_⟩
          · exact List.cons_subset_cons _ (List.subset_append_right _ _)
          · exact firstFree?_contains_eq_none_iff.1 hfree
      | some free =>
          have hold : ∀ other ∈ settled,
              placeOf (positions.insert id free) other = placeOf positions other :=
            fun other hother => placeOf_insert_of_ne fun heq => hnew (heq ▸ hother)
          have hsettled : IsSettled nudged start (placeOf (positions.insert id free))
              (id :: settled) := by
            refine (h.congr hold).cons ?_
            rw [map_placeOf_insert hnew, placeOf_insert_self]
            exact hfree
          have hids' := toSettle_insert hnodup hids free
          rcases ih (List.nodup_cons.1 hnodup).2 hids' hsettled with
            ⟨final, hfinal, hall⟩ | ⟨hnone, hstuck⟩
          · refine Or.inl ⟨final, hfinal, ?_⟩
            rwa [List.reverse_cons, List.append_assoc, List.singleton_append]
          · refine Or.inr ⟨hnone, hstuck.mono ?_⟩
            exact List.perm_middle.subset

/-- **The nudging ends exactly if the nodes can be nudged apart.**  They can, unless the way of one
of them comes to some point twice.  When the nudging has ended, the nodes sit at different points,
and each at a point of its way. -/
theorem separate?_nil_cases (h : ids.Perm positions.ids) :
    (∃ final, separate? ids [] positions = some final ∧ CanBeApart positions ∧
        IsSettled nudged (placeOf positions) (placeOf final) ids.reverse) ∨
      separate? ids [] positions = none ∧ ¬ CanBeApart positions ∧
        ∃ id ∈ positions.ids, ∃ m n, m < n ∧ n < ids.length ∧
          iterate nudged m (placeOf positions id) = iterate nudged n (placeOf positions id) := by
  have hids : ∀ id ∈ ids, id ∉ ([] : List Id) ∧
      positions.get? id = some (placeOf positions id) :=
    fun id hid => ⟨List.not_mem_nil, get?_eq_some_placeOf (h.mem_iff.1 hid)⟩
  rcases separate?_cases (h.nodup_iff.2 positions.nodup_ids) hids isSettled_nil with
    ⟨final, hfinal, hsettled⟩ | ⟨hnone, hstuck⟩
  · rw [List.append_nil] at hsettled
    refine Or.inl ⟨final, hfinal, ?_, hsettled⟩
    obtain ⟨count, hcount⟩ := hsettled.exists_injOn
    refine ⟨count, hcount.mono fun id hid => ?_⟩
    exact List.mem_reverse.2 (h.mem_iff.2 hid)
  · rw [List.append_nil] at hstuck
    refine Or.inr ⟨hnone, ?_, ?_⟩
    · rintro ⟨count, hcount⟩
      exact hstuck.not_injOn count (hcount.mono fun id hid => h.mem_iff.1 hid)
    · obtain ⟨id, hid, hgoes⟩ := hstuck.exists_iterate_eq
      exact ⟨id, h.mem_iff.1 hid, hgoes⟩

end Grid

end TextDiagram
