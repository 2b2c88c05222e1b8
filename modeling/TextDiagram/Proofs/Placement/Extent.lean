/-
**How far the grid reaches.**

The cells of the nodes that are inside no other come first, and then the cells inside them, level by
level.  What holds of the first cells, and is passed down from a point to the cells inside it, holds
of all nodes.

So the grid reaches no further than one distance for each node.  Whatever is placed last, at most
all nodes stand in the bands, columns and rows that lead to it, and as many distances can be added
up, in single precision, without leaving that bound.  Likewise the negative zero comes in with the
origin of the grid only.

Main definitions:

* `TextDiagram.Grid.IsPassedDown` — a property of points holds of the first cells and is passed down
  to the others;
* `TextDiagram.Point.IsUpTo`, `TextDiagram.GridSpacing.IsUpTo` — bounds on points and distances;
* `TextDiagram.Point.HasNegativeZero` — one of the coordinates of a point is the negative zero.

Main results:

* `TextDiagram.Grid.IsPassedDown.of_spread?` — what is passed down holds of all nodes;
* `TextDiagram.Grid.isUpTo_of_spread?` — **the grid reaches no further than one distance for each
  node**;
* `TextDiagram.Grid.not_hasNegativeZero_of_spread?` — the negative zero comes in with the origin
  only.
-/

import TextDiagram.Proofs.Number.Sum
import TextDiagram.Proofs.Placement.Coverage

set_option relaxedAutoImplicit false
set_option autoImplicit false

namespace TextDiagram

open Number (IsUpTo)

/-! ### Passing down -/

namespace Grid

section passing

variable {α : Type} [Scalar α] {nodes : List Node} {spacing : GridSpacing α}
  {Q : ℕ → Point α → Prop}

/-- A property of points, which may depend on how many nodes have been placed and is not lost when
there are more, holds of the first cells, and is passed down from a point to the cells inside it. -/
structure IsPassedDown (nodes : List Node) (spacing : GridSpacing α) (Q : ℕ → Point α → Prop) :
    Prop where
  mono : ∀ {m n : ℕ} {p : Point α}, m ≤ n → Q m p → Q n p
  group : ∀ i < (topLevel nodes true).length,
    Q (topLevel nodes true).length (⟨spacing.origin, spacing.origin⟩ +
      cell (columns (topLevel nodes true).length) spacing.group spacing.group i)
  node : ∀ i < (topLevel nodes false).length,
    Q ((topLevel nodes true).length + (topLevel nodes false).length)
      (⟨spacing.origin, spacing.origin⟩ +
          ⟨Scalar.ofNat 0, Scalar.ofNat (rows (topLevel nodes true).length) * spacing.group⟩ +
        cell (columns (topLevel nodes false).length) spacing.node spacing.node i)
  child : ∀ {n m i : ℕ} {p : Point α}, Q n p → i < m →
    Q (n + m) (p + ⟨spacing.childOffset, spacing.childOffset⟩ +
      cell (columns m) spacing.childColumn spacing.childRow i)

/-- A property holds of all positions. -/
def HoldsOf (Q : ℕ → Point α → Prop) (positions : Catalog (Point α)) : Prop :=
  ∀ id p, positions.get? id = some p → Q positions.ids.length p

/-- It holds of the positions with those of a grid if it holds of its cells. -/
theorem HoldsOf.fill {corner : Point α} {columnStep rowStep : α} {new : List Id}
    {positions : Catalog (Point α)} (h : HoldsOf Q positions)
    (hmono : ∀ {m n : ℕ} {p : Point α}, m ≤ n → Q m p → Q n p)
    (hnodup : (positions.ids ++ new).Nodup)
    (hnew : ∀ i < new.length, Q (positions.ids.length + new.length)
      (corner + cell (columns new.length) columnStep rowStep i)) :
    HoldsOf Q (Grid.fill corner columnStep rowStep new positions) := by
  intro id p hget
  rw [ids_fill hnodup, List.length_append]
  rw [Catalog.get?_eq_some_iff, entries_fill hnodup, List.mem_append, List.mem_map] at hget
  rcases hget with hold | ⟨⟨other, i⟩, hi, heq⟩
  · exact hmono (Nat.le_add_right _ _) (h id p (Catalog.get?_eq_some_iff.2 hold))
  · obtain ⟨-, rfl⟩ := Prod.mk.inj heq
    obtain ⟨hlt, -⟩ := List.getElem?_eq_some_iff.1 (List.mem_zipIdx_iff_getElem?.1 hi)
    exact hnew i hlt

namespace IsPassedDown

variable (hQ : IsPassedDown nodes spacing Q) (hnodup : (nodes.map Node.id).Nodup)

include hQ hnodup

theorem topPositions : HoldsOf Q (Grid.topPositions nodes spacing) := by
  have hall := nodup_topLevel hnodup
  have hgroups : ((Catalog.empty : Catalog (Point α)).ids ++ topLevel nodes true).Nodup :=
    (List.nodup_append.1 hall).1
  have hempty : HoldsOf Q (Catalog.empty : Catalog (Point α)) := by
    intro id p h
    exact nomatch h
  rw [Grid.topPositions]
  refine (hempty.fill hQ.mono hgroups ?_).fill hQ.mono (by rwa [ids_fill hgroups]) ?_
  · intro i hi
    rw [Catalog.ids_empty, List.length_nil, Nat.zero_add]
    exact hQ.group i hi
  · intro i hi
    rw [ids_fill hgroups, Catalog.ids_empty, List.nil_append]
    exact hQ.node i hi

/-- What one waiting node passes down to its children. -/
theorem fillInside {waiting : List Id} {parent : Id} {positions : Catalog (Point α)}
    (hopen : IsOpenAt nodes spacing waiting positions) (hwaits : parent ∈ waiting)
    (h : HoldsOf Q positions) : HoldsOf Q (Grid.fillInside nodes spacing positions parent) := by
  obtain ⟨corner, hcorner⟩ := Catalog.mem_ids_iff.1 (hopen.placed parent hwaits)
  simp only [Grid.fillInside, hcorner]
  refine h.fill hQ.mono (hopen.nodup_append_children hnodup hwaits) ?_
  exact fun i hi => hQ.child (h parent corner hcorner) hi

/-- What one round passes down. -/
theorem foldl_fillInside : ∀ {level later : List Id} {positions : Catalog (Point α)},
    IsOpenAt nodes spacing (level ++ later) positions → HoldsOf Q positions →
    HoldsOf Q (level.foldl (Grid.fillInside nodes spacing) positions) := by
  intro level
  induction level with
  | nil => intro later positions _ h; exact h
  | cons parent rest ih =>
      intro later positions hopen h
      have hnext : IsOpenAt nodes spacing (rest ++ later ++ children nodes parent) _ :=
        hopen.fillInside hnodup
      rw [List.append_assoc] at hnext
      exact ih hnext (hQ.fillInside hnodup hopen List.mem_cons_self h)

/-- What all rounds pass down. -/
theorem fillLevels : ∀ {depth : ℕ} {level : List Id} {positions all : Catalog (Point α)},
    IsOpenAt nodes spacing level positions → HoldsOf Q positions →
    Grid.fillLevels nodes spacing depth level positions = some all → HoldsOf Q all := by
  intro depth
  induction depth with
  | zero =>
      intro level positions all _ h hall
      cases level with
      | nil => exact Option.some.inj hall ▸ h
      | cons parent rest => exact nomatch hall
  | succ depth ih =>
      intro level positions all hopen h hall
      cases level with
      | nil => exact Option.some.inj hall ▸ h
      | cons parent rest =>
          have hlevel : IsOpenAt nodes spacing ((parent :: rest) ++ []) positions := by
            rwa [List.append_nil]
          have hround := (IsOpenAt.foldl_fillInside hnodup hlevel).1
          exact ih hround (hQ.foldl_fillInside hnodup hlevel h) hall

/-- What is passed down holds of all nodes. -/
theorem of_spread? {spread : Catalog (Point α)} (hspread : spread? nodes spacing = some spread)
    {id : Id} {p : Point α} (hget : spread.get? id = some p) : Q nodes.length p := by
  have hlength : spread.ids.length = nodes.length := by
    rw [(ids_spread?_perm hnodup hspread).length_eq, List.length_map]
  rw [← hlength]
  exact hQ.fillLevels hnodup (isOpenAt_topPositions hnodup) (hQ.topPositions hnodup) hspread id p
    hget

end IsPassedDown

end passing

/-! ### Rows and columns -/

theorem columns_pos (cells : ℕ) : 0 < columns cells := by
  have hpos : ∀ n c : ℕ, 0 < c → 0 < iterate (· + 1) n c := by
    intro n
    induction n with
    | zero => exact fun c hc => hc
    | succ n ih => exact fun c _ => ih (c + 1) (Nat.succ_pos c)
  rw [columns]
  cases h : firstFree? (fun c => decide (c * c < cells)) (· + 1) cells 1 with
  | none => exact Nat.one_pos
  | some c =>
      obtain ⟨n, -, rfl, -⟩ := firstFree?_eq_some_iff.1 h
      exact hpos n 1 Nat.one_pos

/-- There are no more rows than cells. -/
theorem rows_le (cells : ℕ) : rows cells ≤ cells := by
  have hpos := columns_pos cells
  rw [rows, Nat.div_le_iff_le_mul_add_pred hpos]
  have hle : cells ≤ columns cells * cells := Nat.le_mul_of_pos_left cells hpos
  omega

end Grid

/-! ### Bounds -/

/-- Both coordinates of a point are up to `c · 2 ^ k`. -/
def Point.IsUpTo (k c : ℕ) (p : Point Float32) : Prop :=
  Number.IsUpTo k c p.x ∧ Number.IsUpTo k c p.y

/-- All distances of a grid are up to `2 ^ k`. -/
structure GridSpacing.IsUpTo (k : ℕ) (s : GridSpacing Float32) : Prop where
  node : Number.IsUpTo k 1 s.node
  group : Number.IsUpTo k 1 s.group
  origin : Number.IsUpTo k 1 s.origin
  childOffset : Number.IsUpTo k 1 s.childOffset
  childColumn : Number.IsUpTo k 1 s.childColumn
  childRow : Number.IsUpTo k 1 s.childRow

theorem GridSpacing.isUpTo_standard : GridSpacing.standard.IsUpTo 9 :=
  ⟨.ofNat (n := 200) (by decide) (by decide), .ofNat (n := 300) (by decide) (by decide),
    .ofNat (n := 50) (by decide) (by decide), .ofNat (n := 50) (by decide) (by decide),
    .ofNat (n := 100) (by decide) (by decide), .ofNat (n := 80) (by decide) (by decide)⟩

section bounds

variable {k c d : ℕ} {p q : Point Float32}

theorem Point.IsUpTo.isFinite (h : p.IsUpTo k c) : p.isFinite = true := by
  rw [Point.isFinite, h.1.finite, h.2.finite, Bool.and_self]

theorem Point.IsUpTo.mono (h : p.IsUpTo k c) (hcd : c ≤ d) : p.IsUpTo k d :=
  ⟨h.1.mono hcd, h.2.mono hcd⟩

theorem Point.IsUpTo.add (hp : p.IsUpTo k c) (hq : q.IsUpTo k d) (h : (c + d) * 2 ^ k ≤ 2 ^ 27)
    (hcd : c + d < 2 ^ 24) : (p + q).IsUpTo k (c + d) :=
  ⟨hp.1.add hq.1 h hcd, hp.2.add hq.2 h hcd⟩

/-- The corner of a cell is up to its number. -/
theorem Grid.isUpTo_cell {columnStep rowStep : Float32} (columns : ℕ) {i : ℕ}
    (hcolumn : IsUpTo k 1 columnStep) (hrow : IsUpTo k 1 rowStep) (hi : i < 2 ^ 23)
    (h : i * 2 ^ k ≤ 2 ^ 27) : (Grid.cell columns columnStep rowStep i).IsUpTo k i := by
  have hmul : ∀ {j : ℕ} {step : Float32}, IsUpTo k 1 step → j ≤ i →
      IsUpTo k i (Scalar.ofNat j * step) := by
    intro j step hstep hj
    have hle : j * 2 ^ k ≤ 2 ^ 27 := (Nat.mul_le_mul_right _ hj).trans h
    exact (hstep.ofNat_mul (hj.trans_lt hi) hle).mono hj
  exact ⟨hmul hcolumn (Nat.mod_le _ _), hmul hrow (Nat.div_le_self _ _)⟩

variable {nodes : List Grid.Node} {spacing : GridSpacing Float32}

/-- As long as there are not too many nodes, the grid reaches no further than one distance for each
node that is placed. -/
theorem Grid.isPassedDown_isUpTo (hspacing : spacing.IsUpTo k) {most : ℕ} (hmost : most < 2 ^ 23)
    (h : most * 2 ^ k ≤ 2 ^ 27) :
    IsPassedDown nodes spacing fun n p => n ≤ most → p.IsUpTo k n := by
  have hle : ∀ {n : ℕ}, n ≤ most → n * 2 ^ k ≤ 2 ^ 27 :=
    fun hn => (Nat.mul_le_mul_right _ hn).trans h
  have hadd : ∀ {p q : Point Float32} {c d n : ℕ}, p.IsUpTo k c → q.IsUpTo k d → c + d ≤ n →
      n ≤ most → (p + q).IsUpTo k n := by
    intro p q c d n hp hq hcd hn
    exact (hp.add hq (hle (hcd.trans hn)) (by omega)).mono hcd
  have hcell : ∀ {columnStep rowStep : Float32} (columns : ℕ) {i : ℕ}, IsUpTo k 1 columnStep →
      IsUpTo k 1 rowStep → i ≤ most → (cell columns columnStep rowStep i).IsUpTo k i := by
    intro columnStep rowStep columns i hcolumn hrow hi
    exact isUpTo_cell columns hcolumn hrow (by omega) (hle hi)
  have hcorner : (⟨spacing.origin, spacing.origin⟩ : Point Float32).IsUpTo k 1 :=
    ⟨hspacing.origin, hspacing.origin⟩
  constructor
  case mono => exact fun hmn hp hn => (hp (hmn.trans hn)).mono hmn
  case group =>
    intro i hi hn
    exact hadd hcorner (hcell _ hspacing.group hspacing.group (by omega)) (by omega) hn
  case node =>
    intro i hi hn
    -- there are no more rows of groups than groups, which are placed before
    have hrows := rows_le (topLevel nodes true).length
    have hband : (⟨Scalar.ofNat 0, Scalar.ofNat (rows (topLevel nodes true).length) *
        spacing.group⟩ : Point Float32).IsUpTo k (topLevel nodes true).length :=
      ⟨IsUpTo.zero.mono (Nat.zero_le _),
        (hspacing.group.ofNat_mul (by omega) (hle (by omega))).mono hrows⟩
    have hbelow := hadd hcorner hband le_rfl (by omega)
    exact hadd hbelow (hcell _ hspacing.node hspacing.node (by omega)) (by omega) hn
  case child =>
    intro n m i p hp hi hn
    have hoffset : (⟨spacing.childOffset, spacing.childOffset⟩ : Point Float32).IsUpTo k 1 :=
      ⟨hspacing.childOffset, hspacing.childOffset⟩
    have hinset := hadd (hp (by omega)) hoffset le_rfl (by omega)
    exact hadd hinset (hcell _ hspacing.childColumn hspacing.childRow (by omega)) (by omega) hn

/-- **The grid reaches no further than one distance for each node.** -/
theorem Grid.isUpTo_of_spread? (hnodup : (nodes.map Node.id).Nodup) (hspacing : spacing.IsUpTo k)
    (hlength : nodes.length < 2 ^ 23) (h : nodes.length * 2 ^ k ≤ 2 ^ 27)
    {spread : Catalog (Point Float32)} (hspread : spread? nodes spacing = some spread) {id : Id}
    (hget : spread.get? id = some p) : p.IsUpTo k nodes.length :=
  (isPassedDown_isUpTo hspacing hlength h).of_spread? hnodup hspread hget le_rfl

end bounds

/-! ### Negative zero -/

/-- One of the coordinates of a point is the negative zero. -/
def Point.HasNegativeZero (p : Point Float32) : Prop := p.x = -0 ∨ p.y = -0

/-- The sum of a point and a vector has no negative zero unless the point has one. -/
theorem Point.HasNegativeZero.of_add {p q : Point Float32} (h : (p + q).HasNegativeZero) :
    p.HasNegativeZero :=
  h.imp (fun hx => (Number.add_eq_neg_zero hx).1) fun hy => (Number.add_eq_neg_zero hy).1

/-- The negative zero comes in with the origin only. -/
theorem Grid.not_hasNegativeZero_of_spread? {nodes : List Grid.Node}
    {spacing : GridSpacing Float32} (hnodup : (nodes.map Node.id).Nodup)
    (horigin : spacing.origin ≠ -0) {spread : Catalog (Point Float32)}
    (hspread : spread? nodes spacing = some spread) {id : Id} {p : Point Float32}
    (hget : spread.get? id = some p) : ¬ p.HasNegativeZero := by
  have hcorner : ¬ (⟨spacing.origin, spacing.origin⟩ : Point Float32).HasNegativeZero :=
    fun h => h.elim horigin horigin
  have hpassed : IsPassedDown nodes spacing fun _ p => ¬ p.HasNegativeZero :=
    { mono := fun _ hp => hp
      group := fun _ _ h => hcorner h.of_add
      node := fun _ _ h => hcorner h.of_add.of_add
      child := fun hp _ h => hp h.of_add.of_add }
  exact hpassed.of_spread? hnodup hspread hget

end TextDiagram
