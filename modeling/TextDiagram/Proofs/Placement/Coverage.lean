/-
**The grid places every node, and places it inside its parent.**

The levels are filled from the top.  At any time some of the placed nodes are waiting for their
children: whatever is inside another placed node is placed as well, unless that one is waiting.
Each round places the children of all waiting nodes, none of which was placed before, and they wait
from then on.  As every round but the last places a node, the rounds end, and in the end no one
waits.

So what is inside a placed node is placed, and the nodes that are inside no other are placed from
the start.  These are all.

Main definitions:

* `TextDiagram.Grid.IsInside` — a node has its cell of the grid inside another one;
* `TextDiagram.Grid.IsOpenAt` — what the rounds keep.

Main results:

* `TextDiagram.Grid.IsOpenAt.fillInside`, `TextDiagram.Grid.IsOpenAt.fillLevels` — what one waiting
  node does, and what all rounds lead to;
* `TextDiagram.Grid.exists_spread?`, `TextDiagram.Grid.ids_positions?_perm` — the rounds end, and a
  placement places exactly the nodes;
* `TextDiagram.Grid.spread?_covers` — **every node is placed, and inside its parent where it has a
  usable one**.
-/

import TextDiagram.Proofs.Catalog
import TextDiagram.Proofs.Placement.Parent

set_option relaxedAutoImplicit false
set_option autoImplicit false

namespace TextDiagram.Grid

variable {α : Type} [Scalar α] {nodes : List Node} {spacing : GridSpacing α} {id parent : Id}

/-! ### Filling a grid -/

section fill

variable {corner : Point α} {columnStep rowStep : α} {new : List Id}
  {positions : Catalog (Point α)}

/-- New nodes that fill a grid come in one after the other, each with its cell. -/
theorem entries_fill (h : (positions.ids ++ new).Nodup) :
    (fill corner columnStep rowStep new positions).entries =
      positions.entries ++ new.zipIdx.map fun (id, i) =>
        (id, corner + cell (columns new.length) columnStep rowStep i) := by
  have hids : (new.zipIdx.map fun (id, i) =>
      (id, corner + cell (columns new.length) columnStep rowStep i)).map Prod.fst = new := by
    rw [List.map_map]
    exact List.zipIdx_map_fst 0 new
  rw [← Catalog.entries_foldl_insert _ positions (by rwa [hids]), List.foldl_map]
  rfl

theorem ids_fill (h : (positions.ids ++ new).Nodup) :
    (fill corner columnStep rowStep new positions).ids = positions.ids ++ new := by
  rw [Catalog.ids, entries_fill h, List.map_append, List.map_map]
  exact congrArg (positions.ids ++ ·) (List.zipIdx_map_fst 0 new)

/-- Filling a grid with new nodes leaves the others where they are. -/
theorem get?_fill_of_mem (h : (positions.ids ++ new).Nodup) (hid : id ∈ positions.ids) :
    (fill corner columnStep rowStep new positions).get? id = positions.get? id := by
  obtain ⟨p, hp⟩ := Catalog.mem_ids_iff.1 hid
  rw [hp, Catalog.get?_eq_some_iff, entries_fill h]
  exact List.mem_append_left _ (Catalog.get?_eq_some_iff.1 hp)

/-- A new node of a grid sits in its cell. -/
theorem get?_fill_of_getElem? (h : (positions.ids ++ new).Nodup) {i : Nat}
    (hi : new[i]? = some id) :
    (fill corner columnStep rowStep new positions).get? id =
      some (corner + cell (columns new.length) columnStep rowStep i) := by
  rw [Catalog.get?_eq_some_iff, entries_fill h]
  refine List.mem_append_right _ (List.mem_map.2 ⟨(id, i), ?_, rfl⟩)
  exact List.mem_zipIdx_iff_getElem?.2 hi

end fill

/-! ### Rounds -/

/-- A node is placed inside another one: at the corner of that one, moved by the offset of children
and by the cell that is the node's own among the children. -/
def IsInside (nodes : List Node) (spacing : GridSpacing α) (positions : Catalog (Point α))
    (parent child : Id) : Prop :=
  ∃ corner i, positions.get? parent = some corner ∧ (children nodes parent)[i]? = some child ∧
    positions.get? child =
      some (corner + ⟨spacing.childOffset, spacing.childOffset⟩ +
        cell (columns (children nodes parent).length) spacing.childColumn spacing.childRow i)

/-- While some of the placed nodes wait for their children, the nodes inside all others are placed.
The nodes that are inside no other stay where they were placed at first. -/
structure IsOpenAt (nodes : List Node) (spacing : GridSpacing α) (waiting : List Id)
    (positions : Catalog (Point α)) : Prop where
  nodup : waiting.Nodup
  placed : ∀ id ∈ waiting, id ∈ positions.ids
  known : ∀ id ∈ positions.ids, id ∈ nodes.map Node.id
  top : ∀ id ∈ topLevel nodes true ++ topLevel nodes false,
    id ∈ positions.ids ∧ positions.get? id = (topPositions nodes spacing).get? id
  mem_iff : ∀ parent child, child ∈ children nodes parent →
    (child ∈ positions.ids ↔ parent ∈ positions.ids ∧ parent ∉ waiting)
  inside : ∀ parent child, child ∈ children nodes parent → child ∈ positions.ids →
    IsInside nodes spacing positions parent child

section

variable (hnodup : (nodes.map Node.id).Nodup)

include hnodup

/-- The nodes that are inside no other are all different. -/
theorem nodup_topLevel : (topLevel nodes true ++ topLevel nodes false).Nodup := by
  rw [List.nodup_append]
  refine ⟨hnodup.sublist (List.filter_sublist.map _), hnodup.sublist (List.filter_sublist.map _),
    ?_⟩
  rintro id htrue other hfalse rfl
  obtain ⟨m, hm, hid⟩ := List.mem_map.1 htrue
  obtain ⟨n, hn, rfl⟩ := List.mem_map.1 hfalse
  simp only [List.mem_filter, Bool.and_eq_true, beq_iff_eq] at hm hn
  rw [List.inj_on_of_nodup_map hnodup hm.1 hn.1 hid, hn.2.2] at hm
  exact nomatch hm.2.2

/-- At first exactly the nodes that are inside no other are placed. -/
theorem ids_topPositions :
    (topPositions nodes spacing).ids = topLevel nodes true ++ topLevel nodes false := by
  have hall := nodup_topLevel hnodup
  have hgroups : ((Catalog.empty : Catalog (Point α)).ids ++ topLevel nodes true).Nodup :=
    (List.nodup_append.1 hall).1
  rw [topPositions, ids_fill (by rwa [ids_fill hgroups]), ids_fill hgroups]
  rfl

/-- A node that is inside another one is not among those that are inside no other. -/
theorem notMem_topLevel_of_mem_children (h : id ∈ children nodes parent) :
    id ∉ topLevel nodes true ++ topLevel nodes false := by
  obtain ⟨n, hn, rfl⟩ := List.mem_map.1 ((children_sublist nodes parent).subset h)
  rw [mem_topLevel_iff hnodup hn]
  exact ((mem_children_iff hnodup hn).1 h).2

/-- At first, the nodes that are inside no other wait. -/
theorem isOpenAt_topPositions :
    IsOpenAt nodes spacing (topLevel nodes true ++ topLevel nodes false)
      (topPositions nodes spacing) := by
  have hids : (topPositions nodes spacing).ids = _ := ids_topPositions hnodup
  refine ⟨nodup_topLevel hnodup, fun id hid => hids ▸ hid, ?_, fun id hid => ⟨hids ▸ hid, rfl⟩,
    ?_, ?_⟩
  · intro id hid
    rw [hids, List.mem_append] at hid
    rcases hid with hid | hid
    · exact (List.filter_sublist.map _).subset hid
    · exact (List.filter_sublist.map _).subset hid
  · intro parent child hchild
    rw [hids]
    exact ⟨fun htop => absurd htop (notMem_topLevel_of_mem_children hnodup hchild),
      fun hparent => absurd hparent.1 hparent.2⟩
  · intro parent child hchild hplaced
    rw [hids] at hplaced
    exact absurd hplaced (notMem_topLevel_of_mem_children hnodup hchild)

namespace IsOpenAt

variable {waiting level later : List Id} {positions : Catalog (Point α)}

omit hnodup in
/-- The children of a waiting node are new. -/
theorem notMem_of_waiting (h : IsOpenAt nodes spacing waiting positions) (hwaits : parent ∈ waiting)
    (hid : id ∈ children nodes parent) : id ∉ positions.ids := by
  rw [h.mem_iff parent id hid]
  exact fun hparent => hparent.2 hwaits

theorem nodup_append_children (h : IsOpenAt nodes spacing waiting positions)
    (hwaits : parent ∈ waiting) : (positions.ids ++ children nodes parent).Nodup := by
  rw [List.nodup_append]
  refine ⟨positions.nodup_ids, hnodup.sublist (children_sublist nodes parent), ?_⟩
  rintro id hplaced other hid rfl
  exact h.notMem_of_waiting hwaits hid hplaced

/-- The children of a waiting node come in after the nodes that are placed. -/
theorem ids_fillInside (h : IsOpenAt nodes spacing waiting positions) (hwaits : parent ∈ waiting) :
    (Grid.fillInside nodes spacing positions parent).ids =
      positions.ids ++ children nodes parent := by
  obtain ⟨corner, hcorner⟩ := Catalog.mem_ids_iff.1 (h.placed parent hwaits)
  simp only [Grid.fillInside, hcorner]
  exact ids_fill (h.nodup_append_children hnodup hwaits)

/-- One waiting node after the other places its children, which wait from then on. -/
theorem fillInside (h : IsOpenAt nodes spacing (parent :: waiting) positions) :
    IsOpenAt nodes spacing (waiting ++ children nodes parent)
      (Grid.fillInside nodes spacing positions parent) := by
  have hwaits : parent ∈ parent :: waiting := List.mem_cons_self ..
  have hnew : ∀ {id}, id ∈ children nodes parent → id ∉ positions.ids :=
    h.notMem_of_waiting hwaits
  have hfresh := h.nodup_append_children hnodup hwaits
  obtain ⟨hself, hwaiting⟩ := List.nodup_cons.1 h.nodup
  have hparent := h.placed parent hwaits
  have hids := h.ids_fillInside hnodup hwaits
  obtain ⟨corner, hcorner⟩ := Catalog.mem_ids_iff.1 hparent
  have hold : ∀ {id}, id ∈ positions.ids →
      (Grid.fillInside nodes spacing positions parent).get? id = positions.get? id := by
    intro id hid
    simp only [Grid.fillInside, hcorner]
    exact get?_fill_of_mem hfresh hid
  constructor
  case nodup =>
    rw [List.nodup_append]
    refine ⟨hwaiting, hnodup.sublist (children_sublist nodes parent), ?_⟩
    rintro id hid other hchild rfl
    exact hnew hchild (h.placed id (List.mem_cons_of_mem _ hid))
  case placed =>
    intro id hid
    rw [hids]
    rcases List.mem_append.1 hid with hid | hid
    · exact List.mem_append_left _ (h.placed id (List.mem_cons_of_mem _ hid))
    · exact List.mem_append_right _ hid
  case known =>
    intro id hid
    rw [hids] at hid
    rcases List.mem_append.1 hid with hid | hid
    · exact h.known id hid
    · exact (children_sublist nodes parent).subset hid
  case top =>
    intro id hid
    obtain ⟨hplaced, hget⟩ := h.top id hid
    exact ⟨hids ▸ List.mem_append_left _ hplaced, (hold hplaced).trans hget⟩
  case mem_iff =>
    intro other child hchild
    rw [hids, List.mem_append, List.mem_append, List.mem_append, h.mem_iff other child hchild,
      List.mem_cons]
    by_cases heq : other = parent
    · subst heq
      have hnotchild : other ∉ children nodes other := fun hchild => hnew hchild hparent
      tauto
    · have hnotchild : child ∉ children nodes parent :=
        fun hchild' => heq (eq_of_mem_children hnodup hchild hchild')
      have hdisjoint : other ∈ children nodes parent → other ∉ positions.ids := hnew
      tauto
  case inside =>
    intro other child hchild hplaced
    rw [hids] at hplaced
    rcases List.mem_append.1 hplaced with hplaced | hchild'
    · -- placed before, and so was the node that it is inside
      obtain ⟨corner', i, hcorner', hi, hget⟩ := h.inside other child hchild hplaced
      exact ⟨corner', i, (hold (Catalog.mem_ids_iff.2 ⟨corner', hcorner'⟩)).trans hcorner', hi,
        (hold hplaced).trans hget⟩
    · obtain rfl := eq_of_mem_children hnodup hchild hchild'
      obtain ⟨i, hi⟩ := List.mem_iff_getElem?.1 hchild
      refine ⟨corner, i, (hold hparent).trans hcorner, hi, ?_⟩
      simp only [Grid.fillInside, hcorner]
      exact get?_fill_of_getElem? hfresh hi

/-- One round places the children of all nodes that wait, and they wait for the next one. -/
theorem foldl_fillInside : ∀ {level later : List Id} {positions : Catalog (Point α)},
    IsOpenAt nodes spacing (level ++ later) positions →
    IsOpenAt nodes spacing (later ++ level.flatMap (children nodes))
        (level.foldl (Grid.fillInside nodes spacing) positions) ∧
      (level.foldl (Grid.fillInside nodes spacing) positions).ids =
        positions.ids ++ level.flatMap (children nodes) := by
  intro level
  induction level with
  | nil =>
      intro later positions h
      simpa using h
  | cons parent rest ih =>
      intro later positions h
      have hstep : IsOpenAt nodes spacing (rest ++ later ++ children nodes parent) _ :=
        h.fillInside hnodup
      rw [List.append_assoc] at hstep
      obtain ⟨hround, hids⟩ := ih hstep
      rw [h.ids_fillInside hnodup (List.mem_cons_self ..), List.append_assoc] at hids
      rw [List.append_assoc] at hround
      exact ⟨hround, hids⟩

/-- The rounds end, as each one before the last places a node, and then no one waits. -/
theorem fillLevels : ∀ {depth : Nat} {level : List Id} {positions : Catalog (Point α)},
    IsOpenAt nodes spacing level positions →
    (level ≠ [] → nodes.length + 1 ≤ depth + positions.ids.length) →
    ∃ all, Grid.fillLevels nodes spacing depth level positions = some all ∧
      IsOpenAt nodes spacing [] all := by
  intro depth
  induction depth with
  | zero =>
      intro level positions h hdepth
      cases level with
      | nil => exact ⟨positions, rfl, h⟩
      | cons parent rest =>
          -- more nodes would be placed than there are
          have hle := (List.subperm_of_subset positions.nodup_ids h.known).length_le
          rw [List.length_map] at hle
          have := hdepth (List.cons_ne_nil _ _)
          omega
  | succ depth ih =>
      intro level positions h hdepth
      cases level with
      | nil => exact ⟨positions, rfl, h⟩
      | cons parent rest =>
          have hlevel : IsOpenAt nodes spacing ((parent :: rest) ++ []) positions := by
            rwa [List.append_nil]
          obtain ⟨hround, hids⟩ := foldl_fillInside hnodup hlevel
          refine ih hround ?_
          intro hne
          have hpos := List.length_pos_iff.2 hne
          have := hdepth (List.cons_ne_nil _ _)
          rw [hids, List.length_append]
          omega

/-- When no one waits, every node is placed. -/
theorem mem_ids (h : IsOpenAt nodes spacing [] positions) (hid : id ∈ nodes.map Node.id) :
    id ∈ positions.ids := by
  refine induction_children hnodup (motive := (· ∈ positions.ids)) ?_ hid
  intro id hid ih
  obtain ⟨n, hn, rfl⟩ := List.mem_map.1 hid
  by_cases htop : IsTop nodes n
  · exact (h.top n.id ((mem_topLevel_iff hnodup hn).2 htop)).1
  · cases hparent : usableParent? nodes n with
    | none => exact absurd ((usableParent?_eq_none_iff hnodup).1 hparent) htop
    | some parent =>
        have hchild : n.id ∈ children nodes parent :=
          (mem_children_iff hnodup hn).2 ((usableParent?_eq_some_iff_not_isTop hnodup).1 hparent)
        exact (h.mem_iff parent n.id hchild).2 ⟨ih parent hchild, List.not_mem_nil⟩

end IsOpenAt

end

/-! ### Nudging -/

/-- Nudging places no node that was not placed, and takes none away. -/
theorem ids_separate? [DecidableEq α] : ∀ {ids : List Id} {occupied : List (Point α)}
    {positions final : Catalog (Point α)}, separate? ids occupied positions = some final →
    final.ids = positions.ids := by
  intro ids
  induction ids with
  | nil =>
      intro occupied positions final h
      rw [Option.some.inj h]
  | cons id rest ih =>
      intro occupied positions final h
      cases hget : positions.get? id with
      | none =>
          simp only [separate?, hget] at h
          exact ih h
      | some p =>
          simp only [separate?, hget, Option.bind_eq_some_iff] at h
          obtain ⟨free, -, h⟩ := h
          rw [ih h, Catalog.ids_insert, if_pos (Catalog.mem_ids_iff.2 ⟨p, hget⟩)]

/-! ### All nodes -/

section

variable (hnodup : (nodes.map Node.id).Nodup)

include hnodup

/-- When no one waits, exactly the nodes are placed. -/
theorem IsOpenAt.ids_perm {positions : Catalog (Point α)}
    (h : IsOpenAt nodes spacing [] positions) : positions.ids.Perm (nodes.map Node.id) := by
  rw [List.perm_ext_iff_of_nodup positions.nodup_ids hnodup]
  exact fun id => ⟨h.known id, h.mem_ids hnodup⟩

/-- The rounds end, and then no one waits. -/
theorem exists_spread? (spacing : GridSpacing α) :
    ∃ positions, spread? nodes spacing = some positions ∧ IsOpenAt nodes spacing [] positions := by
  refine (isOpenAt_topPositions hnodup).fillLevels hnodup ?_
  intro hne
  have := List.length_pos_iff.2 hne
  rw [ids_topPositions hnodup]
  omega

/-- Before the nudging exactly the nodes are placed. -/
theorem ids_spread?_perm {spread : Catalog (Point α)} (h : spread? nodes spacing = some spread) :
    spread.ids.Perm (nodes.map Node.id) := by
  obtain ⟨positions, hspread, hopen⟩ := exists_spread? hnodup spacing
  obtain rfl : positions = spread := Option.some.inj (hspread.symm.trans h)
  exact hopen.ids_perm hnodup

/-- A placement on the grid places exactly the nodes. -/
theorem ids_positions?_perm [DecidableEq α] {spacing : GridSpacing α}
    {final : Catalog (Point α)} (h : positions? nodes spacing = some final) :
    final.ids.Perm (nodes.map Node.id) := by
  obtain ⟨positions, hspread, hfinal⟩ := Option.bind_eq_some_iff.1 h
  rw [ids_separate? hfinal]
  exact ids_spread?_perm hnodup hspread

end

/-- **Every node is placed, and inside its parent where it has a usable one.**  The levels end, and
every node has a position, also after the nudging.  A node counts as one that is inside no other
exactly if it names no parent, or one that is not there, or is on a cycle of parent links.  Any
other node sits in the cell of the grid inside its parent that is its own among the children of the
parent, and these stand in the order of all nodes. -/
theorem spread?_covers [DecidableEq α] (hnodup : (nodes.map Node.id).Nodup)
    (spacing : GridSpacing α) :
    ∃ positions, spread? nodes spacing = some positions ∧
      positions.ids.Perm (nodes.map Node.id) ∧
      (∀ n ∈ nodes, (n.id ∈ topLevel nodes true ++ topLevel nodes false ↔ IsTop nodes n) ∧
        (IsTop nodes n → positions.get? n.id = (topPositions nodes spacing).get? n.id) ∧
        (¬ IsTop nodes n → ∃ parent, n.parent = some parent ∧
          IsInside nodes spacing positions parent n.id)) ∧
      (∀ parent, (children nodes parent).Sublist (nodes.map Node.id) ∧
        ∀ n ∈ nodes, n.id ∈ children nodes parent ↔ n.parent = some parent ∧ ¬ IsTop nodes n) ∧
      ∀ final, positions? nodes spacing = some final → final.ids = positions.ids := by
  obtain ⟨positions, hspread, hopen⟩ := exists_spread? hnodup spacing
  refine ⟨positions, hspread, hopen.ids_perm hnodup, ?_, ?_, ?_⟩
  · intro n hn
    refine ⟨mem_topLevel_iff hnodup hn, ?_, ?_⟩
    · intro htop
      exact (hopen.top n.id ((mem_topLevel_iff hnodup hn).2 htop)).2
    · intro htop
      cases hparent : usableParent? nodes n with
      | none => exact absurd ((usableParent?_eq_none_iff hnodup).1 hparent) htop
      | some parent =>
          have hnamed := (usableParent?_eq_some_iff_not_isTop hnodup).1 hparent
          refine ⟨parent, hnamed.1, ?_⟩
          exact hopen.inside parent n.id ((mem_children_iff hnodup hn).2 hnamed)
            (hopen.mem_ids hnodup (List.mem_map_of_mem (f := Node.id) hn))
  · exact fun parent => ⟨children_sublist nodes parent, fun n hn => mem_children_iff hnodup hn⟩
  · intro final hfinal
    rw [positions?, hspread, Option.bind_some] at hfinal
    exact ids_separate? hfinal

/-- Nodes of which two are each other's parent, one is its own parent, one has a parent that is not
there, one is inside a node of the cycle, and one is inside that one. -/
def tangled : List Node :=
  [⟨"deep", some "ball", false⟩, ⟨"hen", some "egg", false⟩, ⟨"egg", some "hen", true⟩,
    ⟨"ball", some "hen", true⟩, ⟨"self", some "self", false⟩, ⟨"lost", some "nowhere", false⟩]

/-- The node that leads into the cycle is inside the node of the cycle, with its own child in it. -/
theorem spread?_tangled : (tangled.map Node.id).Nodup ∧
    ∃ positions, spread? tangled .standard = some positions ∧
      positions.ids.Perm ["deep", "hen", "egg", "ball", "self", "lost"] ∧
      IsInside tangled .standard positions "hen" "ball" ∧
      IsInside tangled .standard positions "ball" "deep" := by
  have hnodup : (tangled.map Node.id).Nodup := by decide
  obtain ⟨positions, hspread, hids, hplaced, -⟩ := spread?_covers hnodup .standard
  refine ⟨hnodup, positions, hspread, hids, ?_, ?_⟩
  · obtain ⟨htop, -, hinside⟩ := hplaced ⟨"ball", some "hen", true⟩ (by decide)
    obtain ⟨parent, hparent, h⟩ := hinside (htop.not.1 (by decide))
    rwa [← Option.some.inj hparent] at h
  · obtain ⟨htop, -, hinside⟩ := hplaced ⟨"deep", some "ball", false⟩ (by decide)
    obtain ⟨parent, hparent, h⟩ := hinside (htop.not.1 (by decide))
    rwa [← Option.some.inj hparent] at h

end TextDiagram.Grid
