/-
**When the grid keeps nodes apart.**

A nudge adds ten to a coordinate in single precision.  Up to `2 ^ 27` that moves a node on, so that
a node that is nudged again and again comes to ever new points.  From `2 ^ 28` on, ten is less than
half of the last place, and the nudge has no effect: of two nodes that sit at one point out there,
the second one is never free.  A nudge neither leads to infinity nor back from it.

So a placement is finite exactly if the grid is before the nudging, and there is one exactly if the
nodes can be nudged apart.  Both hold while the distances, taken once for each node, stay within
`2 ^ 27`, which leaves room for a quarter of a million nodes at the standard distances.

Points are told apart by their bits, and so by the sign of a zero.  That matters only if the origin
of the grid is the negative zero.

Main definitions:

* `TextDiagram.Point.isSameAs` — points with equal coordinates;
* `TextDiagram.GridSpacing.isFinite` — distances that are all finite;
* `TextDiagram.Grid.KeepsApart` — the grid puts the nodes at finite points that are not equal.

Main results:

* `TextDiagram.Grid.isFinite_nudged` — a nudge does not change whether a point is finite;
* `TextDiagram.Grid.iterate_nudged_ne` — up to `2 ^ 27`, a nudged node does not come back;
* `TextDiagram.Grid.keepsApart_iff`, `TextDiagram.Grid.keepsApart_standard` — when the grid keeps
  nodes apart, and that it does so at the standard distances;
* `TextDiagram.Grid.exists_spread?_and_positions?_iff` — **when there is a placement, and what it is
  like**.
-/

import TextDiagram.Proofs.Placement.Extent
import TextDiagram.Proofs.Placement.Separation

set_option relaxedAutoImplicit false
set_option autoImplicit false

namespace TextDiagram

open Number (value)

/-! ### Points -/

/-- Whether two points have equal coordinates, as numbers. -/
def Point.isSameAs (p q : Point Float32) : Bool := p.x == q.x && p.y == q.y

/-- Finite points with equal coordinates are the same, unless one has a negative zero. -/
theorem Point.eq_of_isSameAs {p q : Point Float32} (hp : p.isFinite = true) (hq : q.isFinite = true)
    (hp0 : ¬ p.HasNegativeZero) (hq0 : ¬ q.HasNegativeZero) (h : p.isSameAs q = true) : p = q := by
  obtain ⟨hpx, hpy⟩ := Bool.and_eq_true_iff.1 hp
  obtain ⟨hqx, hqy⟩ := Bool.and_eq_true_iff.1 hq
  obtain ⟨hx, hy⟩ := Bool.and_eq_true_iff.1 h
  obtain ⟨hpx0, hpy0⟩ := not_or.1 hp0
  obtain ⟨hqx0, hqy0⟩ := not_or.1 hq0
  have hxeq := Number.eq_of_value_eq hpx hqx hpx0 hqx0 ((Number.beq_iff_value_eq hpx hqx).1 hx)
  have hyeq := Number.eq_of_value_eq hpy hqy hpy0 hqy0 ((Number.beq_iff_value_eq hpy hqy).1 hy)
  obtain ⟨x, y⟩ := p
  obtain ⟨x', y'⟩ := q
  obtain rfl : x = x' := hxeq
  obtain rfl : y = y' := hyeq
  rfl

/-- The values of positions are where they put their ids. -/
theorem Grid.values_eq_map_placeOf {α : Type} [Scalar α] (positions : Catalog (Point α)) :
    positions.values = positions.ids.map (placeOf positions) := by
  rw [Catalog.values, Catalog.ids, List.map_map]
  refine List.map_congr_left ?_
  rintro ⟨id, p⟩ hmem
  rw [Function.comp_apply, placeOf, Catalog.get?_eq_some_iff.2 hmem, Option.getD_some]

/-- Whether all distances are finite. -/
def GridSpacing.isFinite (s : GridSpacing Float32) : Bool :=
  s.node.isFinite && s.group.isFinite && s.origin.isFinite && s.childOffset.isFinite &&
    s.childColumn.isFinite && s.childRow.isFinite

namespace Grid

/-! ### Nudges -/

section nudges

variable {p : Point Float32} {m n most : ℕ}

/-- A nudge does not change whether a point is finite. -/
@[simp] theorem isFinite_nudged (p : Point Float32) : (nudged p).isFinite = p.isFinite := by
  have hsmall : ∀ {k : ℕ} {x : Float32}, k ≤ 10 →
      (x + Float32.ofNat k).isFinite = x.isFinite := by
    intro k x hk
    have hnear := Number.isNearestTo_ofNat (n := k) (by omega)
    refine Number.isFinite_add hnear.finite ?_
    rw [Number.value_ofNat (by omega), abs_of_nonneg k.cast_nonneg]
    have hk' : (k : ℝ) ≤ 10 := by exact_mod_cast hk
    exact hk'.trans (by norm_num)
  have hx : (nudged p).x.isFinite = p.x.isFinite := hsmall le_rfl
  have hy : (nudged p).y.isFinite = p.y.isFinite := hsmall (Nat.zero_le 10)
  rw [Point.isFinite, Point.isFinite, hx, hy]

@[simp] theorem isFinite_iterate_nudged (n : ℕ) (p : Point Float32) :
    (iterate nudged n p).isFinite = p.isFinite := by
  induction n generalizing p with
  | zero => rfl
  | succ n ih => rw [iterate_succ, ih, isFinite_nudged]

/-- No number of nudges brings in a negative zero. -/
theorem hasNegativeZero_of_iterate_nudged (h : (iterate nudged n p).HasNegativeZero) :
    p.HasNegativeZero := by
  induction n generalizing p with
  | zero => exact h
  | succ n ih => exact (ih h).of_add

/-- Within `2 ^ 27`, each nudge moves a point to the right. -/
theorem value_iterate_nudged (hp : p.x.isFinite = true) (h : |value p.x| + 19 * n ≤ 2 ^ 27) :
    (iterate nudged n p).x.isFinite = true ∧ value p.x + n ≤ value (iterate nudged n p).x ∧
      value (iterate nudged n p).x ≤ value p.x + 19 * n := by
  induction n generalizing p with
  | zero => simpa using hp
  | succ n ih =>
      push_cast at h ⊢
      obtain ⟨hfinite, hlow, hhigh⟩ := Number.value_add_ten hp (by
        have : (0 : ℝ) ≤ n := n.cast_nonneg
        linarith)
      have hle : |value (nudged p).x| ≤ |value p.x| + 19 := by
        have hself := abs_le.1 (le_refl |value p.x|)
        refine abs_le.2 ⟨?_, ?_⟩
        · change -(|value p.x| + 19) ≤ value (p.x + Float32.ofNat 10)
          linarith
        · change value (p.x + Float32.ofNat 10) ≤ |value p.x| + 19
          linarith
      obtain ⟨hfinite', hlow', hhigh'⟩ := ih (p := nudged p) hfinite (by linarith)
      have hlow : value p.x + 1 ≤ value (nudged p).x := hlow
      have hhigh : value (nudged p).x ≤ value p.x + 19 := hhigh
      rw [iterate_succ]
      exact ⟨hfinite', by linarith, by linarith⟩

/-- Within `2 ^ 27`, a nudged point does not come back. -/
theorem iterate_nudged_ne (hp : p.x.isFinite = true) (h : |value p.x| + 19 * n ≤ 2 ^ 27)
    (hmn : m < n) : iterate nudged m p ≠ iterate nudged n p := by
  intro heq
  obtain ⟨k, rfl⟩ := Nat.exists_eq_add_of_lt hmn
  rw [add_assoc] at h heq
  push_cast at h
  have hk : (0 : ℝ) ≤ k := k.cast_nonneg
  obtain ⟨hfinite, hlow, hhigh⟩ := value_iterate_nudged (n := m) hp (by linarith)
  rw [iterate_add] at heq
  set q := iterate nudged m p
  have hq : |value q.x| ≤ |value p.x| + 19 * m := by
    have hself := abs_le.1 (le_refl |value p.x|)
    have hm : (0 : ℝ) ≤ m := m.cast_nonneg
    exact abs_le.2 ⟨by linarith, by linarith⟩
  obtain ⟨-, hmoved, -⟩ := value_iterate_nudged (n := k + 1) hfinite (by push_cast; linarith)
  rw [← heq] at hmoved
  push_cast at hmoved
  linarith

end nudges

/-! ### Placements -/

variable {nodes : List Node} {spacing : GridSpacing Float32} {k : ℕ}
  {spread final : Catalog (Point Float32)}

/-- All positions are finite. -/
def AreFinite (positions : Catalog (Point Float32)) : Prop :=
  ∀ p ∈ positions.values, p.isFinite = true

theorem areFinite_iff {positions : Catalog (Point Float32)} :
    AreFinite positions ↔ ∀ id ∈ positions.ids, (placeOf positions id).isFinite = true := by
  rw [AreFinite, values_eq_map_placeOf, List.forall_mem_map]

/-- The placement has an end, and puts every node at a finite point, and no two at equal ones. -/
def KeepsApart (nodes : List Node) (spacing : GridSpacing Float32) : Prop :=
  ∃ final ∈ positions? nodes spacing, final.ids.Perm (nodes.map Node.id) ∧ AreFinite final ∧
    final.values.Pairwise fun p q => p.isSameAs q = false

instance (positions : Catalog (Point Float32)) : Decidable (AreFinite positions) :=
  inferInstanceAs (Decidable (∀ p ∈ positions.values, p.isFinite = true))

instance (nodes : List Node) (spacing : GridSpacing Float32) :
    Decidable (KeepsApart nodes spacing) :=
  inferInstanceAs (Decidable (∃ final ∈ positions? nodes spacing, _ ∧ _ ∧ _))

section

variable (hnodup : (nodes.map Node.id).Nodup) (hspread : spread? nodes spacing = some spread)

include hnodup hspread

/-- The nudging ends exactly if it can put the nodes at different points.  Then they have settled,
and if it does not end, one of them comes back to a point within fewer nudges than there are
nodes. -/
theorem positions?_cases :
    (∃ final, positions? nodes spacing = some final ∧ CanBeApart spread ∧
        IsSettled nudged (placeOf spread) (placeOf final) (nodes.map Node.id).reverse) ∨
      positions? nodes spacing = none ∧ ¬ CanBeApart spread ∧
        ∃ id ∈ spread.ids, ∃ m n, m < n ∧ n < nodes.length ∧
          iterate nudged m (placeOf spread id) = iterate nudged n (placeOf spread id) := by
  have hcases := separate?_nil_cases (ids_spread?_perm hnodup hspread).symm
  rwa [List.length_map, ← Option.bind_some spread (separate? (nodes.map Node.id) []), ← hspread]
    at hcases

theorem exists_positions?_iff :
    (∃ final, positions? nodes spacing = some final) ↔ CanBeApart spread := by
  rcases positions?_cases hnodup hspread with ⟨final, hfinal, hapart, -⟩ | ⟨hnone, hapart, -⟩
  · exact ⟨fun _ => hapart, fun _ => ⟨final, hfinal⟩⟩
  · refine ⟨?_, fun h => absurd h hapart⟩
    rintro ⟨final, hfinal⟩
    exact nomatch hnone.symm.trans hfinal

/-- In a placement the nodes have settled. -/
theorem isSettled_of_positions? (hfinal : positions? nodes spacing = some final) :
    IsSettled nudged (placeOf spread) (placeOf final) (nodes.map Node.id).reverse := by
  rcases positions?_cases hnodup hspread with ⟨other, hother, -, hsettled⟩ | ⟨hnone, -⟩
  · obtain rfl : other = final := Option.some.inj (hother.symm.trans hfinal)
    exact hsettled
  · exact nomatch hnone.symm.trans hfinal

/-- The points of a placement are those before the nudging, nudged. -/
theorem exists_iterate_eq_of_positions? (hfinal : positions? nodes spacing = some final) {id : Id}
    (hid : id ∈ nodes.map Node.id) :
    ∃ n, iterate nudged n (placeOf spread id) = placeOf final id := by
  obtain ⟨n, hn, -⟩ := (isSettled_of_positions? hnodup hspread hfinal).reached id
    (List.mem_reverse.2 hid)
  exact ⟨n, hn⟩

/-- The points of a placement have different bits. -/
theorem nodup_values_of_positions? (hfinal : positions? nodes spacing = some final) :
    final.values.Nodup := by
  have hperm : (nodes.map Node.id).reverse.Perm final.ids :=
    (List.reverse_perm _).trans (ids_positions?_perm hnodup hfinal).symm
  rw [values_eq_map_placeOf]
  exact (hperm.map _).nodup_iff.1 (isSettled_of_positions? hnodup hspread hfinal).nodup

/-- A placement is finite exactly if the grid is before the nudging. -/
theorem areFinite_iff_of_positions? (hfinal : positions? nodes spacing = some final) :
    AreFinite final ↔ AreFinite spread := by
  have hids := ids_positions?_perm hnodup hfinal
  have hat : ∀ id ∈ nodes.map Node.id,
      (placeOf final id).isFinite = (placeOf spread id).isFinite := by
    intro id hid
    obtain ⟨n, hn⟩ := exists_iterate_eq_of_positions? hnodup hspread hfinal hid
    rw [← hn, isFinite_iterate_nudged]
  simp only [areFinite_iff, hids.mem_iff, (ids_spread?_perm hnodup hspread).mem_iff]
  exact forall₂_congr fun id hid => by rw [hat id hid]

/-- Finite points of a placement are not equal either, unless the origin is the negative zero. -/
theorem pairwise_isSameAs (horigin : spacing.origin ≠ -0)
    (hfinal : positions? nodes spacing = some final) (hfinite : AreFinite final) :
    final.values.Pairwise fun p q => p.isSameAs q = false := by
  have hzero : ∀ p ∈ final.values, ¬ p.HasNegativeZero := by
    rw [values_eq_map_placeOf, List.forall_mem_map]
    intro id hid hnegative
    rw [(ids_positions?_perm hnodup hfinal).mem_iff] at hid
    obtain ⟨n, hn⟩ := exists_iterate_eq_of_positions? hnodup hspread hfinal hid
    rw [← (ids_spread?_perm hnodup hspread).mem_iff] at hid
    rw [← hn] at hnegative
    exact not_hasNegativeZero_of_spread? hnodup horigin hspread (get?_eq_some_placeOf hid)
      (hasNegativeZero_of_iterate_nudged hnegative)
  refine List.Pairwise.imp_of_mem ?_ (nodup_values_of_positions? hnodup hspread hfinal)
  intro p q hp hq hne
  by_contra hsame
  exact hne (Point.eq_of_isSameAs (hfinite p hp) (hfinite q hq) (hzero p hp) (hzero q hq)
    (Bool.not_eq_false _ ▸ hsame))

/-- The grid keeps the nodes apart exactly if it is finite before the nudging and they can be nudged
apart, unless its origin is the negative zero. -/
theorem keepsApart_iff (horigin : spacing.origin ≠ -0) :
    KeepsApart nodes spacing ↔ AreFinite spread ∧ CanBeApart spread := by
  rw [← exists_positions?_iff hnodup hspread]
  constructor
  · rintro ⟨final, hfinal, -, hfinite, -⟩
    exact ⟨(areFinite_iff_of_positions? hnodup hspread hfinal).1 hfinite, final, hfinal⟩
  · rintro ⟨hfinite, final, hfinal⟩
    rw [← areFinite_iff_of_positions? hnodup hspread hfinal] at hfinite
    exact ⟨final, hfinal, ids_positions?_perm hnodup hfinal, hfinite,
      pairwise_isSameAs hnodup hspread horigin hfinal hfinite⟩

/-- Where the distances, taken once for each node, stay within `2 ^ 27` with room for the nudges,
the nodes are finite, and they can be nudged apart. -/
theorem canBeApart_of_isUpTo (hspacing : spacing.IsUpTo k)
    (h : nodes.length * (2 ^ k + 19) ≤ 2 ^ 27) : AreFinite spread ∧ CanBeApart spread := by
  have hlength : nodes.length < 2 ^ 23 := by
    have hpos := Nat.two_pow_pos k
    nlinarith
  have hreach : nodes.length * 2 ^ k ≤ 2 ^ 27 :=
    (Nat.mul_le_mul_left _ (Nat.le_add_right _ _)).trans h
  have hat : ∀ id ∈ spread.ids, (placeOf spread id).IsUpTo k nodes.length := by
    intro id hid
    exact isUpTo_of_spread? hnodup hspacing hlength hreach hspread (get?_eq_some_placeOf hid)
  refine ⟨areFinite_iff.2 fun id hid => (hat id hid).isFinite, ?_⟩
  rcases positions?_cases hnodup hspread with ⟨-, -, hapart, -⟩ | ⟨-, -, id, hid, m, n, hmn, hn, heq⟩
  · exact hapart
  · -- a node would come back, with fewer nudges than there are nodes
    refine absurd heq (iterate_nudged_ne (hat id hid).1.finite ?_ hmn)
    have hn' : (n : ℝ) ≤ nodes.length := by exact_mod_cast hn.le
    have h' : (nodes.length : ℝ) * (2 ^ k + 19) ≤ 2 ^ 27 := by exact_mod_cast h
    have hle := (hat id hid).1.le
    linarith

/-- No node is nudged more often than there are nodes: after that it would come back. -/
theorem exists_nudges_le_of_positions? (hspacing : spacing.IsUpTo k)
    (h : nodes.length * (2 ^ k + 19) ≤ 2 ^ 27) (hfinal : positions? nodes spacing = some final)
    {id : Id} (hid : id ∈ nodes.map Node.id) : (placeOf spread id).IsUpTo k nodes.length ∧
      ∃ n ≤ nodes.length, iterate nudged n (placeOf spread id) = placeOf final id := by
  have hpos := Nat.two_pow_pos k
  have hplace : (placeOf spread id).IsUpTo k nodes.length := by
    refine isUpTo_of_spread? hnodup hspacing (by nlinarith)
      ((Nat.mul_le_mul_left _ (Nat.le_add_right _ _)).trans h) hspread (get?_eq_some_placeOf ?_)
    rwa [(ids_spread?_perm hnodup hspread).mem_iff]
  refine ⟨hplace, ?_⟩
  obtain ⟨n, hn, hpassed⟩ := (isSettled_of_positions? hnodup hspread hfinal).reached id
    (List.mem_reverse.2 hid)
  refine ⟨n, ?_, hn⟩
  by_contra hlt
  set taken := (nodes.map Node.id).reverse.map (placeOf final) with htaken
  have hlength : taken.length = nodes.length := by simp [htaken]
  have hall : ∀ m ≤ taken.length, iterate nudged m (placeOf spread id) ∈ taken :=
    fun m hm => hpassed m (by omega)
  obtain ⟨i, j, hij, hj, heq⟩ := exists_iterate_eq_of_le hall
  refine iterate_nudged_ne hplace.1.finite ?_ hij heq
  have hj' : (j : ℝ) ≤ nodes.length := by exact_mod_cast hlength ▸ hj
  have h' : (nodes.length : ℝ) * (2 ^ k + 19) ≤ 2 ^ 27 := by exact_mod_cast h
  have hle := hplace.1.le
  linarith

end

/-- At the standard distances the grid keeps a quarter of a million nodes apart. -/
theorem keepsApart_standard (hnodup : (nodes.map Node.id).Nodup) (h : nodes.length ≤ 250000) :
    KeepsApart nodes .standard := by
  obtain ⟨spread, hspread, -⟩ := exists_spread? hnodup .standard
  rw [keepsApart_iff hnodup hspread (by decide +kernel)]
  exact canBeApart_of_isUpTo hnodup hspread GridSpacing.isUpTo_standard (by omega)

/-- **When there is a placement, and what it is like.**  Before the nudging every node has its
point.  The nudging ends exactly if it can put the nodes at different points at all.  Then every
node is at a point of its own, told apart by bits, and all are finite exactly if they were before;
and finite points of different bits are not equal as numbers either, unless the origin of the grid
is the negative zero.  All is well as long as the distances, taken once for each node, stay within
`2 ^ 27` with room for the nudges. -/
theorem exists_spread?_and_positions?_iff (hnodup : (nodes.map Node.id).Nodup)
    (spacing : GridSpacing Float32) :
    ∃ spread, spread? nodes spacing = some spread ∧ spread.ids.Perm (nodes.map Node.id) ∧
      ((∃ final, positions? nodes spacing = some final) ↔ CanBeApart spread) ∧
      (∀ final, positions? nodes spacing = some final → final.ids.Perm (nodes.map Node.id) ∧
        final.values.Nodup ∧ (AreFinite final ↔ AreFinite spread)) ∧
      (spacing.origin ≠ -0 →
        (KeepsApart nodes spacing ↔ AreFinite spread ∧ CanBeApart spread)) ∧
      ∀ k, spacing.IsUpTo k → nodes.length * (2 ^ k + 19) ≤ 2 ^ 27 →
        AreFinite spread ∧ CanBeApart spread := by
  obtain ⟨spread, hspread, hopen⟩ := exists_spread? hnodup spacing
  refine ⟨spread, hspread, hopen.ids_perm hnodup, exists_positions?_iff hnodup hspread, ?_,
    keepsApart_iff hnodup hspread, fun k => canBeApart_of_isUpTo hnodup hspread⟩
  intro final hfinal
  exact ⟨ids_positions?_perm hnodup hfinal, nodup_values_of_positions? hnodup hspread hfinal,
    areFinite_iff_of_positions? hnodup hspread hfinal⟩

/-- Six nodes of which two share a cell: the second one inside a child, and the first one inside the
next child. -/
def crowded : List Node :=
  [⟨"P", none, false⟩, ⟨"C1", some "P", false⟩, ⟨"C2", some "P", false⟩,
    ⟨"D1", some "C1", false⟩, ⟨"D2", some "C1", false⟩, ⟨"E1", some "C2", false⟩]

/-- At the standard distances the second one of the two is nudged away. -/
theorem exists_positions?_crowded : (crowded.map Node.id).Nodup ∧
    GridSpacing.standard.IsUpTo 9 ∧ KeepsApart crowded .standard ∧
    ∃ spread final, spread? crowded .standard = some spread ∧
      positions? crowded .standard = some final ∧ final.values.Nodup ∧
      spread.get? "D2" = some ⟨250, 150⟩ ∧ spread.get? "E1" = some ⟨250, 150⟩ ∧
      final.get? "D2" = some ⟨250, 150⟩ ∧ final.get? "E1" = some ⟨260, 150⟩ := by
  have hnodup : (crowded.map Node.id).Nodup := by decide
  obtain ⟨spread, hspread, -, hends, hfinal, hkeeps, hup⟩ :=
    exists_spread?_and_positions?_iff hnodup .standard
  have hwell := hup 9 GridSpacing.isUpTo_standard (by decide)
  obtain ⟨final, hpositions⟩ := hends.2 hwell.2
  have horigin : GridSpacing.standard.origin ≠ -0 := by decide +kernel
  refine ⟨hnodup, GridSpacing.isUpTo_standard, (hkeeps horigin).2 hwell, spread, final, hspread,
    hpositions, (hfinal final hpositions).2.1, ?_⟩
  have hbefore : (spread? crowded .standard).all fun spread =>
      spread.get? "D2" = some ⟨250, 150⟩ ∧ spread.get? "E1" = some ⟨250, 150⟩ := by
    decide +kernel
  have hafter : (positions? crowded .standard).all fun final =>
      final.get? "D2" = some ⟨250, 150⟩ ∧ final.get? "E1" = some ⟨260, 150⟩ := by
    decide +kernel
  rw [hspread] at hbefore
  rw [hpositions] at hafter
  obtain ⟨hD2, hE1⟩ := of_decide_eq_true hbefore
  exact ⟨hD2, hE1, of_decide_eq_true hafter⟩

/-- Two nodes without a parent. -/
def couple : List Node := [⟨"A", none, false⟩, ⟨"B", none, false⟩]

/-- A group and a node. -/
def mixedCouple : List Node := [⟨"G", none, true⟩, ⟨"A", none, false⟩]

/-- Distances that are finite, with a sum that is not. -/
def vast : GridSpacing Float32 := { GridSpacing.standard with origin := 3e38, node := 3e38 }

/-- Distances that put all nodes at one point, far out. -/
def remote : GridSpacing Float32 := { GridSpacing.standard with origin := 3e8, node := 0 }

/-- Distances that lead to zeros of either sign. -/
def signed : GridSpacing Float32 :=
  { GridSpacing.standard with origin := -0, group := -0, node := -1 }

/-- Finite distances do not keep all nodes apart: a node is put at infinity, or nudged for ever, or
told apart from another one by the sign of a zero. -/
theorem not_keepsApart_of_isFinite :
    ((couple.map Node.id).Nodup ∧ vast.isFinite = true ∧ ¬ KeepsApart couple vast ∧
      (positions? couple vast).any fun final =>
        final.get? "B" = some ⟨Float32.ofBits 0x7F800000, 3e38⟩) ∧
    (remote.isFinite = true ∧ ¬ KeepsApart couple remote ∧ positions? couple remote = none) ∧
    ((mixedCouple.map Node.id).Nodup ∧ signed.isFinite = true ∧
      ¬ KeepsApart mixedCouple signed ∧ (positions? mixedCouple signed).any fun final =>
        final.get? "G" = some ⟨-0, -0⟩ ∧ final.get? "A" = some ⟨0, -0⟩) := by
  refine ⟨⟨by decide, by decide +kernel, by decide +kernel, by decide +kernel⟩,
    ⟨by decide +kernel, by decide +kernel, ?_⟩,
    by decide, by decide +kernel, by decide +kernel, by decide +kernel⟩
  rw [← Option.isNone_iff_eq_none]
  decide +kernel

end Grid

end TextDiagram
