/-
**Earlier nodes have precedence.**

The nodes are nudged apart in the order in which they are listed, whatever the order in which they
were placed.  So a node settles at the first point on its way that no earlier node has settled at,
and a node that was nudged may take the point at which a later one was placed; then that one has to
move on.  The first node never moves.

The search for a free point is given as many nudges as there are points taken.  That is no
restriction: a way that is not free by then is never free.  Hence a placement is told by its points
alone.  There is one exactly if every node can settle in its turn, and then it is the only one.

Nothing is used of nudges and points but that points can be told apart, so that it does not matter
how sums are rounded.  Points of a diagram are told apart by their bits.

Main definitions:

* `TextDiagram.SettlesInOrder` — walkers have settled one after the other;
* `TextDiagram.Point.bits` — the bits of the coordinates of a point;
* `TextDiagram.Grid.IsVacant` — none of some nodes sits at a point.

Main results:

* `TextDiagram.firstFree?_contains_eq_some_iff` — the bounded search finds the first free place of a
  walk;
* `TextDiagram.Grid.separate?_eq_some_iff` — **what the nudging leads to**: everyone settles in
  order, and nothing else;
* `TextDiagram.Grid.positions?_eq_some_iff_settlesInOrder`,
  `TextDiagram.Grid.exists_spread?_and_positions?_iff_isLeast` — what this says of a placement.
-/

import Mathlib.Order.Bounds.Basic
import TextDiagram.Proofs.Placement.Nudging

set_option relaxedAutoImplicit false
set_option autoImplicit false

namespace TextDiagram

variable {ι β : Type} {next : β → β} {start final : ι → β} {settled : List ι}

/-! ### The first free place -/

/-- The bounded search finds the first free place of a walk, whenever there is one. -/
theorem firstFree?_contains_eq_some_iff [BEq β] [LawfulBEq β] {taken : List β} {b found : β} :
    firstFree? (taken.contains ·) next taken.length b = some found ↔
      ∃ k, IsLeast {k | iterate next k b ∉ taken} k ∧ found = iterate next k b := by
  constructor
  · intro h
    obtain ⟨k, -, rfl, hfree, hbefore⟩ := firstFree?_eq_some_iff.1 h
    simp only [List.contains_iff_mem] at hbefore
    refine ⟨k, ⟨?_, fun j hj => ?_⟩, rfl⟩
    · simpa using hfree
    · by_contra hlt
      exact hj (hbefore j (Nat.lt_of_not_le hlt))
  · rintro ⟨k, ⟨hfree, hleast⟩, rfl⟩
    cases hfound : firstFree? (taken.contains ·) next taken.length b with
    | none => exact absurd (firstFree?_contains_eq_none_iff.1 hfound k) hfree
    | some other =>
        obtain ⟨j, -, rfl, hother, hbefore⟩ := firstFree?_eq_some_iff.1 hfound
        simp only [List.contains_iff_mem] at hbefore
        -- both are least
        have hkj : k ≤ j := hleast (by simpa using hother)
        rcases Nat.lt_or_eq_of_le hkj with hlt | rfl
        · exact absurd (hbefore k hlt) hfree
        · rfl

/-! ### Settling in order -/

/-- Walkers settle one after the other: each at the first place of its way that none of the earlier
ones has taken, and none of those who had settled before. -/
def SettlesInOrder (next : β → β) (start final : ι → β) (settled ids : List ι) : Prop :=
  ∀ earlier i later, ids = earlier ++ i :: later →
    ∃ k, IsLeast {k | iterate next k (start i) ∉ (earlier ++ settled).map final} k ∧
      final i = iterate next k (start i)

theorem settlesInOrder_nil : SettlesInOrder next start final settled [] := by
  intro earlier i later h
  exact absurd h.symm (by simp)

/-- The first one settles, and then it is one of those who have settled before. -/
theorem settlesInOrder_cons {i : ι} {rest : List ι} :
    SettlesInOrder next start final settled (i :: rest) ↔
      (∃ k, IsLeast {k | iterate next k (start i) ∉ settled.map final} k ∧
        final i = iterate next k (start i)) ∧
      SettlesInOrder next start final (i :: settled) rest := by
  have hmem : ∀ (earlier : List ι) (b : β), b ∈ (earlier ++ i :: settled).map final ↔
      b ∈ (i :: earlier ++ settled).map final :=
    fun earlier b => (List.perm_middle.map final).mem_iff
  constructor
  · intro h
    refine ⟨h [] i rest rfl, fun earlier j later hrest => ?_⟩
    simp only [hmem]
    exact h (i :: earlier) j later (congrArg (i :: ·) hrest)
  · rintro ⟨hfirst, hlater⟩ earlier j later h
    cases earlier with
    | nil =>
        obtain ⟨rfl, -⟩ := List.cons.inj h
        exact hfirst
    | cons _ earlier =>
        obtain ⟨rfl, hrest⟩ := List.cons.inj h
        simpa only [hmem] using hlater earlier j later hrest

/-- Who set out from different places settle there. -/
theorem settlesInOrder_of_nodup {ids : List ι} (h : (ids.map start).Nodup) :
    SettlesInOrder next start start [] ids := by
  rintro earlier i later rfl
  refine ⟨0, ⟨?_, fun _ _ => Nat.zero_le _⟩, rfl⟩
  rw [List.map_append, List.map_cons] at h
  rw [List.append_nil]
  exact fun hmem => (List.nodup_append.1 h).2.2 _ hmem _ List.mem_cons_self rfl

/-! ### Points and their bits -/

/-- The bits of the coordinates of a point. -/
def Point.bits (p : Point Float32) : UInt32 × UInt32 := (p.x.toBits, p.y.toBits)

/-- Points are told apart by their bits. -/
theorem Point.bits_injective : Function.Injective Point.bits := by
  rintro ⟨x, y⟩ ⟨x', y'⟩ h
  obtain ⟨hx, hy⟩ := Prod.mk.inj h
  obtain rfl : x = x' := Float32.toBits_inj.1 hx
  obtain rfl : y = y' := Float32.toBits_inj.1 hy
  rfl

/-! ### Nudging -/

/-- A catalog is another one with an entry, as far as some ids are concerned. -/
theorem Catalog.forall_get?_eq_insert_iff {α : Type} {c c' : Catalog α} {id : Id} {value : α}
    {rest : List Id} (hid : id ∉ rest) :
    (∀ other, other ∉ rest → c'.get? other = (c.insert id value).get? other) ↔
      c'.get? id = some value ∧ ∀ other, other ∉ id :: rest → c'.get? other = c.get? other := by
  constructor
  · intro h
    refine ⟨(h id hid).trans (get?_insert_self c id value), fun other hother => ?_⟩
    obtain ⟨hne, hother⟩ := not_or.1 (List.mem_cons.not.1 hother)
    rw [h other hother, get?_insert_of_ne _ hne]
  · rintro ⟨hself, h⟩ other hother
    rcases eq_or_ne other id with rfl | hne
    · rw [hself, get?_insert_self]
    · rw [get?_insert_of_ne _ hne, h other (List.not_mem_cons_of_ne_of_not_mem hne hother)]

namespace Grid

section nudging

variable {α : Type} [Scalar α] [DecidableEq α] {final : Catalog (Point α)}

/-- **What the nudging leads to.**  The given nodes settle in order, and the others stay.  There is
an end exactly if they can settle. -/
theorem separate?_eq_some_iff {start : Id → Point α} : ∀ {ids settled : List Id}
    {positions : Catalog (Point α)}, ids.Nodup →
    (∀ id ∈ ids, id ∉ settled ∧ positions.get? id = some (start id)) →
    (separate? ids (settled.map (placeOf positions)) positions = some final ↔
      final.ids = positions.ids ∧ (∀ id, id ∉ ids → final.get? id = positions.get? id) ∧
        SettlesInOrder nudged start (placeOf final) settled ids) := by
  intro ids
  induction ids with
  | nil =>
      intro settled positions _ _
      rw [separate?, Option.some.injEq]
      constructor
      · rintro rfl
        exact ⟨rfl, fun _ _ => rfl, settlesInOrder_nil⟩
      · rintro ⟨hids, hget, -⟩
        exact Catalog.ext_get? hids.symm fun id => (hget id List.not_mem_nil).symm
  | cons id rest ih =>
      intro settled positions hnodup hids
      obtain ⟨hid, hrest⟩ := List.nodup_cons.1 hnodup
      obtain ⟨hnew, hget⟩ := hids id List.mem_cons_self
      have hmem : id ∈ positions.ids := Catalog.mem_ids_iff.2 ⟨_, hget⟩
      -- whoever has settled stays
      have hstays : (∀ other, other ∉ id :: rest → final.get? other = positions.get? other) →
          settled.map (placeOf final) = settled.map (placeOf positions) := by
        intro hothers
        refine List.map_congr_left fun other hother => ?_
        rw [placeOf, placeOf, hothers other fun hin => (hids other hin).1 hother]
      simp only [separate?_cons hnew hget, Option.bind_eq_some_iff,
        ih hrest (toSettle_insert hnodup hids _), firstFree?_contains_eq_some_iff,
        Catalog.ids_insert, if_pos hmem, Catalog.forall_get?_eq_insert_iff hid,
        settlesInOrder_cons]
      constructor
      · rintro ⟨free, hfree, hfinal, ⟨hself, hothers⟩, hlater⟩
        refine ⟨hfinal, hothers, ?_, hlater⟩
        rwa [hstays hothers, placeOf, hself, Option.getD_some]
      · rintro ⟨hfinal, hothers, hfree, hlater⟩
        rw [hstays hothers] at hfree
        exact ⟨placeOf final id, hfree, hfinal,
          ⟨get?_eq_some_placeOf (hfinal ▸ hmem), hothers⟩, hlater⟩

/-- **A placement is told by its points**: it is the grid with all nodes settled in order, and there
is one exactly if they can settle. -/
theorem positions?_eq_some_iff_settlesInOrder {nodes : List Node} {spacing : GridSpacing α}
    {spread : Catalog (Point α)} (hnodup : (nodes.map Node.id).Nodup)
    (hspread : spread? nodes spacing = some spread) :
    positions? nodes spacing = some final ↔ final.ids = spread.ids ∧
      SettlesInOrder nudged (placeOf spread) (placeOf final) [] (nodes.map Node.id) := by
  have hperm := ids_spread?_perm hnodup hspread
  have hids : ∀ id ∈ nodes.map Node.id,
      id ∉ ([] : List Id) ∧ spread.get? id = some (placeOf spread id) :=
    fun id hid => ⟨List.not_mem_nil, get?_eq_some_placeOf (hperm.mem_iff.2 hid)⟩
  rw [positions?, hspread, Option.bind_some]
  refine (separate?_eq_some_iff hnodup hids).trans ?_
  refine and_congr_right fun hfinal => and_iff_right fun id hid => ?_
  -- there is nothing besides the nodes
  rw [← hperm.mem_iff] at hid
  rw [Catalog.get?_eq_none_iff.2 hid, Catalog.get?_eq_none_iff.2 (hfinal ▸ hid)]

end nudging

/-! ### Placements -/

/-- None of some nodes sits at a point. -/
def IsVacant (positions : Catalog (Point Float32)) (ids : List Id) (p : Point Float32) : Prop :=
  ∀ id ∈ ids, p.bits ≠ (placeOf positions id).bits

theorem isVacant_iff {positions : Catalog (Point Float32)} {ids : List Id} {p : Point Float32} :
    IsVacant positions ids p ↔ p ∉ ids.map (placeOf positions) := by
  simp only [IsVacant, Point.bits_injective.ne_iff, List.mem_map, not_exists, not_and, ne_comm]

/-- **The separation is exact.**  There is a placement exactly if every node can be nudged, in its
turn, to a point at which no earlier node sits.  Then each node sits where the least number of such
nudges leads, no two sit at one point, and a node that meets no earlier one is not moved. -/
theorem exists_spread?_and_positions?_iff_isLeast {nodes : List Node}
    (hnodup : (nodes.map Node.id).Nodup) (spacing : GridSpacing Float32) :
    ∃ spread, spread? nodes spacing = some spread ∧ spread.ids.Perm (nodes.map Node.id) ∧
      ∀ final,
        (positions? nodes spacing = some final ↔ final.ids = spread.ids ∧
          ∀ earlier id later, nodes.map Node.id = earlier ++ id :: later →
            ∃ k, IsLeast {k | IsVacant final earlier (iterate nudged k (placeOf spread id))} k ∧
              placeOf final id = iterate nudged k (placeOf spread id)) ∧
        (positions? nodes spacing = some final →
          (final.values.map Point.bits).Nodup ∧
          ∀ earlier id later, nodes.map Node.id = earlier ++ id :: later →
            IsVacant final earlier (placeOf spread id) →
              placeOf final id = placeOf spread id) := by
  obtain ⟨spread, hspread, hopen⟩ := exists_spread? hnodup spacing
  refine ⟨spread, hspread, hopen.ids_perm hnodup, fun final => ?_⟩
  have hiff : positions? nodes spacing = some final ↔ _ :=
    positions?_eq_some_iff_settlesInOrder hnodup hspread
  simp only [SettlesInOrder, List.append_nil, ← isVacant_iff] at hiff
  refine ⟨hiff, fun hfinal => ⟨?_, ?_⟩⟩
  · exact (nodup_values_of_positions? hnodup hspread hfinal).map Point.bits_injective
  · intro earlier id later hids hvacant
    obtain ⟨k, hk, hplace⟩ := (hiff.1 hfinal).2 earlier id later hids
    -- no nudge at all is the least number of nudges
    obtain rfl : k = 0 := Nat.le_zero.1 (hk.2 hvacant)
    exact hplace

/-- A group and two nodes. -/
def crammed : List Node := [⟨"G", none, true⟩, ⟨"A", none, false⟩, ⟨"B", none, false⟩]

/-- Distances that put the first node below the groups at the first group, and the second one a
nudge away. -/
def tight : GridSpacing Float32 := { GridSpacing.standard with group := 0, node := 10 }

/-- The first node is nudged away from the group, to where the second one was placed, and so the
second one has to move on as well. -/
theorem exists_positions?_crammed : (crammed.map Node.id).Nodup ∧
    ∃ spread final, spread? crammed tight = some spread ∧
      spread.get? "G" = some ⟨50, 50⟩ ∧ spread.get? "A" = some ⟨50, 50⟩ ∧
      spread.get? "B" = some ⟨60, 50⟩ ∧ positions? crammed tight = some final ∧
      (final.values.map Point.bits).Nodup ∧ placeOf final "G" = placeOf spread "G" ∧
      final.get? "A" = some ⟨60, 50⟩ ∧ final.get? "B" = some ⟨70, 50⟩ ∧
      ∃ k, IsLeast {k | IsVacant final ["G", "A"] (iterate nudged k (placeOf spread "B"))} k ∧
        placeOf final "B" = iterate nudged k (placeOf spread "B") := by
  have hnodup : (crammed.map Node.id).Nodup := by decide
  obtain ⟨spread, hspread, -, hall⟩ := exists_spread?_and_positions?_iff_isLeast hnodup tight
  have hends : (positions? crammed tight).isSome = true := by decide +kernel
  obtain ⟨final, hfinal⟩ := Option.isSome_iff_exists.1 hends
  obtain ⟨hiff, hthen⟩ := hall final
  obtain ⟨hbits, hstays⟩ := hthen hfinal
  have hbefore : (spread? crammed tight).all fun spread =>
      spread.get? "G" = some ⟨50, 50⟩ ∧ spread.get? "A" = some ⟨50, 50⟩ ∧
        spread.get? "B" = some ⟨60, 50⟩ := by
    decide +kernel
  have hafter : (positions? crammed tight).all fun final =>
      final.get? "A" = some ⟨60, 50⟩ ∧ final.get? "B" = some ⟨70, 50⟩ := by
    decide +kernel
  rw [hspread] at hbefore
  rw [hfinal] at hafter
  obtain ⟨hG, hA, hB⟩ := of_decide_eq_true hbefore
  obtain ⟨hA', hB'⟩ := of_decide_eq_true hafter
  exact ⟨hnodup, spread, final, hspread, hG, hA, hB, hfinal, hbits,
    hstays [] "G" ["A", "B"] rfl fun _ h => absurd h List.not_mem_nil, hA', hB',
    (hiff.1 hfinal).2 ["G", "A"] "B" [] rfl⟩

end Grid

end TextDiagram
