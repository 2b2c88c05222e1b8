/-
**The two tiers of the grid.**

When no node is inside another one, the grid has two tiers: the groups fill a square of wide cells,
and below them the other nodes fill a square of cells of their own.  In exact arithmetic, with cells
that are not empty, no two nodes sit at one point.  Within a tier, the column and the row of a cell
tell which cell it is.  Between the tiers there is the lower end of the band of groups: as the
number of rows is rounded up, the last row of groups begins above it, and the other nodes begin at
it.  Hence nothing has to be nudged.

That cells have two different sizes plays no role, and neither does whether there are groups and
other nodes at all.

Main definitions:

* `TextDiagram.Grid.groupIds`, `TextDiagram.Grid.otherIds` — the nodes of the tiers, in order;
* `TextDiagram.Grid.FillsSquare` — nodes sit in the cells of a square, row by row;
* `TextDiagram.Grid.bandEnd` — where the groups end and the other nodes begin;
* `TextDiagram.Grid.IsTiered` — the nodes of both tiers sit in their cells, apart from each other.

Main results:

* `TextDiagram.Grid.spread?_eq_topPositions` — without nesting, the tiers are the grid;
* `TextDiagram.Grid.get?_topPositions_group`, `TextDiagram.Grid.get?_topPositions_other` — the cells
  of the tiers;
* `TextDiagram.Grid.div_columns_lt_rows` — the rows hold all cells;
* `TextDiagram.Grid.exists_positions?_isTiered` — **the tiers never collide**.
-/

import Mathlib.Algebra.Order.Field.Basic
import Mathlib.Algebra.Order.Ring.Rat
import Mathlib.Tactic.Linarith
import TextDiagram.Proofs.Placement.Precedence

set_option relaxedAutoImplicit false
set_option autoImplicit false

namespace TextDiagram

namespace Grid

variable {nodes : List Node} {id : Id}

/-! ### Nodes that are inside no other -/

/-- The groups, in order. -/
def groupIds (nodes : List Node) : List Id := (nodes.filter fun n => n.isGroup).map Node.id

/-- The nodes that are not groups, in order. -/
def otherIds (nodes : List Node) : List Id := (nodes.filter fun n => !n.isGroup).map Node.id

section

variable (htop : ∀ n ∈ nodes, usableParent? nodes n = none)

include htop

theorem topLevel_true : topLevel nodes true = groupIds nodes := by
  refine congrArg (List.map Node.id) (List.filter_congr fun n hn => ?_)
  simp [htop n hn]

theorem topLevel_false : topLevel nodes false = otherIds nodes := by
  refine congrArg (List.map Node.id) (List.filter_congr fun n hn => ?_)
  simp [htop n hn]

theorem children_eq_nil (parent : Id) : children nodes parent = [] := by
  rw [children, List.map_eq_nil_iff, List.filter_eq_nil_iff]
  intro n hn
  simp [htop n hn]

variable {α : Type} [Scalar α]

/-- There is nothing to place inside the nodes of a level. -/
theorem foldl_fillInside_eq_self (spacing : GridSpacing α) (positions : Catalog (Point α))
    (level : List Id) : level.foldl (fillInside nodes spacing) positions = positions := by
  induction level with
  | nil => rfl
  | cons parent rest ih =>
      have hinside : fillInside nodes spacing positions parent = positions := by
        rw [fillInside, children_eq_nil htop]
        cases positions.get? parent <;> rfl
      rw [List.foldl_cons, hinside, ih]

/-- There is at most one level. -/
theorem fillLevels_succ_eq_some (spacing : GridSpacing α) (positions : Catalog (Point α))
    (level : List Id) (depth : ℕ) :
    fillLevels nodes spacing (depth + 1) level positions = some positions := by
  cases level with
  | nil => rfl
  | cons parent rest =>
      have hnext : (parent :: rest).flatMap (children nodes) = [] :=
        List.flatMap_eq_nil_iff.2 fun parent _ => children_eq_nil htop parent
      rw [fillLevels, foldl_fillInside_eq_self htop, hnext]
      · cases depth <;> rfl
      · exact List.cons_ne_nil parent rest

/-- Without nesting, the tiers are the whole grid. -/
theorem spread?_eq_topPositions (spacing : GridSpacing α) :
    spread? nodes spacing = some (topPositions nodes spacing) := by
  cases hnodes : nodes with
  | nil => rfl
  | cons n rest =>
      rw [spread?, ← hnodes, show nodes.length = rest.length + 1 from hnodes ▸ rfl]
      exact fillLevels_succ_eq_some htop spacing _ _ _

end

/-! ### The cells of the tiers -/

section

variable {α : Type} [Scalar α] {spacing : GridSpacing α} (hnodup : (nodes.map Node.id).Nodup)

include hnodup

/-- A group that is inside no other node sits in its cell. -/
theorem get?_topPositions_group {i : ℕ} (hi : (topLevel nodes true)[i]? = some id) :
    (topPositions nodes spacing).get? id = some (⟨spacing.origin, spacing.origin⟩ +
      cell (columns (topLevel nodes true).length) spacing.group spacing.group i) := by
  have hall := nodup_topLevel hnodup
  have hgroups : ((Catalog.empty : Catalog (Point α)).ids ++ topLevel nodes true).Nodup :=
    (List.nodup_append.1 hall).1
  rw [topPositions, get?_fill_of_mem (by rwa [ids_fill hgroups]), get?_fill_of_getElem? hgroups hi]
  rw [ids_fill hgroups]
  exact List.mem_of_getElem? hi

/-- Any other node that is inside no other sits in its cell, below the groups. -/
theorem get?_topPositions_other {i : ℕ} (hi : (topLevel nodes false)[i]? = some id) :
    (topPositions nodes spacing).get? id = some (⟨spacing.origin, spacing.origin⟩ +
        ⟨Scalar.ofNat 0, Scalar.ofNat (rows (topLevel nodes true).length) * spacing.group⟩ +
      cell (columns (topLevel nodes false).length) spacing.node spacing.node i) := by
  have hall := nodup_topLevel hnodup
  have hgroups : ((Catalog.empty : Catalog (Point α)).ids ++ topLevel nodes true).Nodup :=
    (List.nodup_append.1 hall).1
  exact get?_fill_of_getElem? (by rwa [ids_fill hgroups]) hi

end

/-! ### Rows and columns -/

/-- The rows hold all cells. -/
theorem div_columns_lt_rows {cells i : ℕ} (hi : i < cells) : i / columns cells < rows cells := by
  have hpos := columns_pos cells
  rw [rows, Nat.div_lt_iff_lt_mul hpos]
  have h := Nat.lt_mul_div_succ (cells + columns cells - 1) hpos
  rw [Nat.mul_add, Nat.mul_one, Nat.mul_comm] at h
  omega

/-- The column and the row of a cell tell which one it is. -/
theorem eq_of_mod_eq_of_div_eq {c i j : ℕ} (hmod : i % c = j % c) (hdiv : i / c = j / c) :
    i = j := by
  rw [← Nat.div_add_mod i c, ← Nat.div_add_mod j c, hmod, hdiv]

/-! ### Tiers in exact numbers -/

/-- Nodes fill a square of cells, row by row from a corner on. -/
def FillsSquare (positions : Catalog (Point ℚ)) (ids : List Id) (x y step : ℚ) : Prop :=
  ∀ i id, ids[i]? = some id → positions.get? id = some
    ⟨x + (i % columns ids.length : ℕ) * step, y + (i / columns ids.length : ℕ) * step⟩

namespace FillsSquare

variable {positions : Catalog (Point ℚ)} {ids : List Id} {x y step : ℚ} {p : Point ℚ}

/-- If the cells are not empty, different nodes sit at different points. -/
theorem eq_of_get? (h : FillsSquare positions ids x y step) (hstep : 0 < step) {id' : Id}
    (hid : id ∈ ids) (hid' : id' ∈ ids) (hp : positions.get? id = some p)
    (hp' : positions.get? id' = some p) : id = id' := by
  obtain ⟨i, hi⟩ := List.mem_iff_getElem?.1 hid
  obtain ⟨j, hj⟩ := List.mem_iff_getElem?.1 hid'
  rw [h i id hi] at hp
  rw [h j id' hj, ← hp, Option.some.injEq, Point.mk.injEq] at hp'
  obtain ⟨hx, hy⟩ := hp'
  have hmod := mul_right_cancel₀ hstep.ne' (add_left_cancel hx)
  have hdiv := mul_right_cancel₀ hstep.ne' (add_left_cancel hy)
  obtain rfl := eq_of_mod_eq_of_div_eq (Nat.cast_injective hmod) (Nat.cast_injective hdiv)
  exact Option.some.inj (hi.symm.trans hj)

/-- No row begins above the corner. -/
theorem le_y (h : FillsSquare positions ids x y step) (hstep : 0 < step) (hid : id ∈ ids)
    (hp : positions.get? id = some p) : y ≤ p.y := by
  obtain ⟨i, hi⟩ := List.mem_iff_getElem?.1 hid
  obtain rfl := Option.some.inj ((h i id hi).symm.trans hp)
  exact le_add_of_nonneg_right (mul_nonneg (Nat.cast_nonneg _) hstep.le)

/-- Every row begins above the end of the last one. -/
theorem y_lt (h : FillsSquare positions ids x y step) (hstep : 0 < step) (hid : id ∈ ids)
    (hp : positions.get? id = some p) : p.y < y + rows ids.length * step := by
  obtain ⟨i, hi⟩ := List.mem_iff_getElem?.1 hid
  obtain rfl := Option.some.inj ((h i id hi).symm.trans hp)
  have hrow := div_columns_lt_rows (List.getElem?_eq_some_iff.1 hi).1
  exact add_lt_add_right (mul_lt_mul_of_pos_right (Nat.cast_lt.2 hrow) hstep) _

end FillsSquare

/-- Where the band of groups ends and the other nodes begin. -/
def bandEnd (nodes : List Node) (spacing : GridSpacing ℚ) : ℚ :=
  spacing.origin + rows (groupIds nodes).length * spacing.group

/-- The groups fill a square of cells, and the other nodes another one below the band of groups; no
two nodes sit at one point. -/
structure IsTiered (nodes : List Node) (spacing : GridSpacing ℚ) (positions : Catalog (Point ℚ)) :
    Prop where
  /-- The groups come first. -/
  ids : positions.ids = groupIds nodes ++ otherIds nodes
  /-- The groups have wide cells. -/
  groups : FillsSquare positions (groupIds nodes) spacing.origin spacing.origin spacing.group
  /-- The other nodes have cells of their own, moved down by the whole band of groups. -/
  others : FillsSquare positions (otherIds nodes) spacing.origin (bandEnd nodes spacing)
    spacing.node
  /-- The groups sit above the end of their band. -/
  above : ∀ id ∈ groupIds nodes, ∀ p, positions.get? id = some p → p.y < bandEnd nodes spacing
  /-- The other nodes sit at the end of the band of groups, or below. -/
  below : ∀ id ∈ otherIds nodes, ∀ p, positions.get? id = some p → bandEnd nodes spacing ≤ p.y
  /-- The points are all different. -/
  apart : positions.values.Nodup

/-- If the cells are not empty, two squares one below the other are apart. -/
theorem isTiered_of_fillsSquare {spacing : GridSpacing ℚ} {positions : Catalog (Point ℚ)}
    (hgroup : 0 < spacing.group) (hnode : 0 < spacing.node)
    (hids : positions.ids = groupIds nodes ++ otherIds nodes)
    (hgroups : FillsSquare positions (groupIds nodes) spacing.origin spacing.origin spacing.group)
    (hothers : FillsSquare positions (otherIds nodes) spacing.origin (bandEnd nodes spacing)
      spacing.node) :
    IsTiered nodes spacing positions where
  ids := hids
  groups := hgroups
  others := hothers
  above := fun _ hid _ hp => hgroups.y_lt hgroup hid hp
  below := fun _ hid _ hp => hothers.le_y hnode hid hp
  apart := by
    refine Catalog.nodup_values fun id id' p hp hp' => ?_
    have hmem : ∀ {id}, positions.get? id = some p → id ∈ groupIds nodes ∨ id ∈ otherIds nodes :=
      fun hp => List.mem_append.1 (hids ▸ Catalog.mem_ids_iff.2 ⟨p, hp⟩)
    rcases hmem hp with hid | hid <;> rcases hmem hp' with hid' | hid'
    · exact hgroups.eq_of_get? hgroup hid hid' hp hp'
    · exact absurd (hgroups.y_lt hgroup hid hp) (hothers.le_y hnode hid' hp').not_gt
    · exact absurd (hgroups.y_lt hgroup hid' hp') (hothers.le_y hnode hid hp).not_gt
    · exact hothers.eq_of_get? hnode hid hid' hp hp'

-- exact numbers are scalars here only; elsewhere their operations are those of the field
local instance : Scalar ℚ where
  ofNat n := n
  smaller := min
  larger := max

/-- **The tiers never collide.**  In exact arithmetic, and if no node is inside another one and the
cells are not empty, the groups and the other nodes fill their squares one below the other, no two
nodes sit at one point, and nothing is nudged. -/
theorem exists_positions?_isTiered (hnodup : (nodes.map Node.id).Nodup)
    (htop : ∀ n ∈ nodes, usableParent? nodes n = none) {spacing : GridSpacing ℚ}
    (hgroup : 0 < spacing.group) (hnode : 0 < spacing.node) :
    ∃ final, spread? nodes spacing = some final ∧
      separate? (nodes.map Node.id) [] final = some final ∧
      positions? nodes spacing = some final ∧ final.ids.Perm (nodes.map Node.id) ∧
      IsTiered nodes spacing final := by
  have hspread := spread?_eq_topPositions htop spacing
  have hids : (topPositions nodes spacing).ids = groupIds nodes ++ otherIds nodes := by
    rw [ids_topPositions hnodup, topLevel_true htop, topLevel_false htop]
  have hgroups : FillsSquare (topPositions nodes spacing) (groupIds nodes) spacing.origin
      spacing.origin spacing.group := by
    intro i id hi
    rw [← topLevel_true htop] at hi ⊢
    exact get?_topPositions_group hnodup hi
  have hothers : FillsSquare (topPositions nodes spacing) (otherIds nodes) spacing.origin
      (bandEnd nodes spacing) spacing.node := by
    intro j id hj
    rw [← topLevel_false htop] at hj ⊢
    rw [get?_topPositions_other hnodup hj, topLevel_true htop]
    -- the band moves the corner down only
    have hx : spacing.origin + ((0 : ℕ) : ℚ) = spacing.origin := by rw [Nat.cast_zero, add_zero]
    exact congrArg (fun x : ℚ => some (Point.mk (x + _) _)) hx
  have htiered := isTiered_of_fillsSquare hgroup hnode hids hgroups hothers
  have hfinal : positions? nodes spacing = some (topPositions nodes spacing) := by
    rw [positions?_eq_some_iff_settlesInOrder hnodup hspread]
    refine ⟨rfl, settlesInOrder_of_nodup ?_⟩
    have hapart := htiered.apart
    rw [values_eq_map_placeOf] at hapart
    exact ((ids_spread?_perm hnodup hspread).map _).nodup_iff.1 hapart
  refine ⟨_, hspread, ?_, hfinal, ids_spread?_perm hnodup hspread, htiered⟩
  rwa [positions?, hspread, Option.bind_some] at hfinal

/-- Two groups and two other nodes.  One of them has a parent that does not exist, and two are said
to be inside each other. -/
def unnested : List Node :=
  [⟨"A", some "X", false⟩, ⟨"G", none, true⟩, ⟨"P", some "Q", false⟩, ⟨"Q", some "P", true⟩]

/-- The groups sit in one row of wide cells, and the others in one row below it. -/
theorem exists_positions?_unnested : (unnested.map Node.id).Nodup ∧
    (∀ n ∈ unnested, usableParent? unnested n = none) ∧
    ∃ final : Catalog (Point ℚ), positions? unnested ⟨200, 300, 50, 50, 100, 80⟩ = some final ∧
      final.ids = ["G", "Q", "A", "P"] ∧ final.values.Nodup ∧
      final.get? "Q" = some ⟨350, 50⟩ ∧ final.get? "P" = some ⟨250, 350⟩ := by
  have hnodup : (unnested.map Node.id).Nodup := by decide
  have htop : ∀ n ∈ unnested, usableParent? unnested n = none := by decide +kernel
  let spacing : GridSpacing ℚ := ⟨200, 300, 50, 50, 100, 80⟩
  have hgroup : 0 < spacing.group := by decide
  have hnode : 0 < spacing.node := by decide
  obtain ⟨final, -, -, hfinal, -, htiered⟩ :=
    exists_positions?_isTiered hnodup htop hgroup hnode
  have hQ := htiered.groups 1 "Q" rfl
  have hP := htiered.others 1 "P" rfl
  refine ⟨hnodup, htop, final, hfinal, htiered.ids, htiered.apart, hQ.trans ?_, hP.trans ?_⟩
  · decide +kernel
  · decide +kernel

end Grid

end TextDiagram
