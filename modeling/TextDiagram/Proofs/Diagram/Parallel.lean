/-
**Ranks of parallel edges.**

The edges in one direction between two nodes are told apart by their ranks.  The ranks can be found
for all edges at once: the edges are collected by their ends in a table, each group is sorted, and
the places in the groups are written to a second table.  The groups come out of the first table in
any order.  This makes no difference, as each rank is the number of parallel edges with a smaller id,
which is told by the edge alone.

So the edges from one node to another have all ranks up to their number, each once and in the order
of their ids, and the multiples by which they are bent follow each other without a gap.  The control
point of a bent edge is that multiple of the least bow away from the middle between its ends.

Main definitions:

* `TextDiagram.ranked` — the edges from one node to another one, in order;
* `TextDiagram.siblings`, `TextDiagram.rankTable` — the edges by their ends, and the ranks of all
  edges;
* `TextDiagram.IsBowed` — an edge is drawn by a given multiple of the least bow.

Main results:

* `TextDiagram.parallelRank_of_getElem?_ranked` — the rank of an edge is its place among the edges
  from the one node to the other;
* `TextDiagram.getElem?_rankTable` — the table of ranks has the rank of each edge;
* `TextDiagram.IsBowed.multiple_unique` — the curve of a bent edge tells its multiple;
* `TextDiagram.map_rankTable_ranked` — **parallel edges have all ranks in the order of their ids**,
  and are bent by the multiples that follow from them.
-/

import Mathlib.Data.List.Sort
import TextDiagram.Proofs.Diagram.Coincidence
import TextDiagram.Proofs.Diagram.Identity

set_option relaxedAutoImplicit false
set_option autoImplicit false

namespace TextDiagram

open Diagram (Node Edge)

variable {edges : Catalog Edge} {ends : Id × Id} {id : Id} {e : Edge} {i : ℕ}

/-! ### Edges in order -/

/-- Ids in order. -/
def inOrder (ids : List Id) : List Id := ids.mergeSort fun a b => decide (a ≤ b)

/-- The ids of the edges with given ends, in the order in which they came in. -/
def idsBetween (entries : List (Id × Edge)) (ends : Id × Id) : List Id :=
  (entries.filter fun entry => entry.2.ends = ends).map Prod.fst

/-- The ids of the edges from one node to another one, in order. -/
def ranked (edges : Catalog Edge) (ends : Id × Id) : List Id :=
  inOrder (idsBetween edges.entries ends)

theorem mem_idsBetween {entries : List (Id × Edge)} :
    id ∈ idsBetween entries ends ↔ ∃ e, (id, e) ∈ entries ∧ e.ends = ends := by
  simp [idsBetween]

theorem inOrder_perm (ids : List Id) : (inOrder ids).Perm ids := List.mergeSort_perm _ _

/-- Ids in order are told by their order. -/
theorem inOrder_eq {ids sorted : List Id} (hperm : ids.Perm sorted)
    (hsorted : sorted.Pairwise (· ≤ ·)) : inOrder ids = sorted :=
  ((inOrder_perm ids).trans hperm).eq_of_pairwise (fun _ _ _ _ => le_antisymm)
    (pairwise_mergeSort_le ids) hsorted

theorem mem_ranked :
    id ∈ ranked edges ends ↔ ∃ e, edges.get? id = some e ∧ e.ends = ends := by
  simp only [ranked, (inOrder_perm _).mem_iff, mem_idsBetween, Catalog.get?_eq_some_iff]

/-- Each edge is there once, and its id is larger than those before it. -/
theorem pairwise_ranked (edges : Catalog Edge) (ends : Id × Id) :
    (ranked edges ends).Pairwise (· < ·) := by
  have hnodup : (ranked edges ends).Nodup :=
    (inOrder_perm _).nodup_iff.2 (edges.distinct.sublist (List.filter_sublist.map _))
  have hsorted : (ranked edges ends).Pairwise (· ≤ ·) := pairwise_mergeSort_le _
  exact hsorted.imp₂ (fun _ _ => lt_of_le_of_ne) hnodup

/-- The order in which the edges came in does not matter. -/
theorem ranked_congr {edges' : Catalog Edge} (h : edges'.entries.Perm edges.entries) :
    ranked edges' ends = ranked edges ends :=
  mergeSort_eq_mergeSort_iff.2 ((h.filter _).map _)

/-! ### Ranks and places -/

/-- As many items of an increasing list are smaller than an item as stand before it. -/
theorem countP_lt_of_getElem? {α : Type} [LinearOrder α] {a : α} {l : List α}
    (hsorted : l.Pairwise (· < ·)) : ∀ {i : ℕ}, l[i]? = some a →
      l.countP (fun other => decide (other < a)) = i := by
  induction hsorted with
  | nil => simp
  | @cons head rest hhead _ ih =>
      intro i hi
      cases i with
      | zero =>
          obtain rfl : head = a := by simpa using hi
          simpa using fun other hother => (hhead other hother).le
      | succ i =>
          have hi' : rest[i]? = some a := by simpa using hi
          have hlt : head < a := hhead a (List.mem_of_getElem? hi')
          simp [hlt, ih hi']

/-- The parallel edges that come before an edge are those of the edges with its ends that have a
smaller id. -/
theorem parallelRank_eq_countP :
    parallelRank edges id e = (ranked edges e.ends).countP fun other => decide (other < id) := by
  rw [ranked, (inOrder_perm _).countP_eq, idsBetween, List.countP_map, List.countP_filter,
    parallelRank]
  refine List.countP_congr fun entry _ => ?_
  simp [Diagram.areParallel_iff, and_comm]

/-- **The rank of an edge is its place** among the edges from the one node to the other. -/
theorem parallelRank_of_getElem?_ranked (h : (ranked edges ends)[i]? = some id)
    (he : edges.get? id = some e) : e.ends = ends ∧ parallelRank edges id e = i := by
  obtain ⟨e', he', hends⟩ := mem_ranked.1 (List.mem_of_getElem? h)
  obtain rfl : e' = e := Option.some.inj (he'.symm.trans he)
  subst hends
  exact ⟨rfl, parallelRank_eq_countP.trans (countP_lt_of_getElem? (pairwise_ranked edges _) h)⟩

/-! ### The table of ranks -/

/-- The edges by their ends, each group in the order in which it came in. -/
def siblings (entries : List (Id × Edge)) : Std.HashMap (Id × Id) (List Id) :=
  entries.foldl
    (fun table (id, e) => table.insert e.ends (table.getD e.ends [] ++ [id])) ∅

/-- The ranks that groups of edges give to their edges: the places when each group is in order. -/
def placesIn (groups : List (List Id)) : List (Id × ℕ) :=
  groups.flatMap fun ids => (inOrder ids).zipIdx

/-- The table of the ranks, to which one group is written after the other. -/
def rankTable (groups : List (List Id)) : Std.HashMap Id ℕ :=
  (placesIn groups).foldl (fun table (id, rank) => table.insert id rank) ∅

theorem getD_siblings (entries : List (Id × Edge)) (ends : Id × Id) :
    (siblings entries).getD ends [] = idsBetween entries ends := by
  induction entries using List.reverseRecOn with
  | nil => simp [siblings, idsBetween]
  | append_singleton entries entry ih =>
      obtain ⟨id, e⟩ := entry
      rw [siblings, List.foldl_concat, ← siblings, Std.HashMap.getD_insert, idsBetween,
        List.filter_append, List.map_append, ← idsBetween]
      by_cases h : e.ends = ends
      · subst h
        simp [ih]
      · simp [h, ih]

/-- The groups are the edges with the same ends. -/
theorem exists_eq_idsBetween {entries : List (Id × Edge)} {ids : List Id}
    (h : ids ∈ (siblings entries).toList.map Prod.snd) : ∃ ends, ids = idsBetween entries ends := by
  obtain ⟨⟨ends, ids'⟩, hmem, rfl⟩ := List.mem_map.1 h
  have hget := Std.HashMap.mem_toList_iff_getElem?_eq_some.1 hmem
  exact ⟨ends, by rw [← getD_siblings, Std.HashMap.getD_eq_getD_getElem?, hget]; rfl⟩

/-- Every edge is in the group of its ends. -/
theorem idsBetween_mem_groups {entries : List (Id × Edge)} (h : (id, e) ∈ entries) :
    idsBetween entries e.ends ∈ (siblings entries).toList.map Prod.snd := by
  have hmem : id ∈ (siblings entries).getD e.ends [] :=
    getD_siblings entries e.ends ▸ mem_idsBetween.2 ⟨e, h, rfl⟩
  rw [← getD_siblings]
  rw [Std.HashMap.getD_eq_getD_getElem?] at hmem ⊢
  cases hget : (siblings entries)[e.ends]? with
  | none => simp [hget] at hmem
  | some ids =>
      exact List.mem_map.2 ⟨(e.ends, ids), Std.HashMap.mem_toList_iff_getElem?_eq_some.2 hget, rfl⟩

/-- A table to which only values of a function are written has the value of each key. -/
theorem getElem?_foldl_insert {f : Id → ℕ} {pairs : List (Id × ℕ)}
    (h : ∀ p ∈ pairs, p.2 = f p.1) (key : Id) :
    (pairs.foldl (fun table (id, rank) => table.insert id rank) (∅ : Std.HashMap Id ℕ))[key]? =
      if key ∈ pairs.map Prod.fst then some (f key) else none := by
  induction pairs using List.reverseRecOn with
  | nil => simp
  | append_singleton pairs p ih =>
      obtain ⟨id, rank⟩ := p
      have hrank : rank = f id := h (id, rank) (by simp)
      have hbefore := ih fun q hq => h q (List.mem_append_left _ hq)
      rw [List.foldl_concat, Std.HashMap.getElem?_insert, hbefore]
      by_cases heq : id = key
      · subst heq
        simp [hrank]
      · have hkeys : key ∈ (pairs ++ [(id, rank)]).map Prod.fst ↔ key ∈ pairs.map Prod.fst := by
          simp [Ne.symm heq]
        simp only [beq_iff_eq, heq, if_false, hkeys]

section

variable {groups : List (List Id)}
  (hgroups : groups.Perm ((siblings edges.entries).toList.map Prod.snd))

include hgroups

/-- The groups give each edge its rank. -/
theorem mem_placesIn_iff {rank : ℕ} : (id, rank) ∈ placesIn groups ↔
    ∃ e, edges.get? id = some e ∧ rank = parallelRank edges id e := by
  simp only [placesIn, List.mem_flatMap, List.mem_zipIdx_iff_getElem?]
  constructor
  · rintro ⟨ids, hids, hplace⟩
    obtain ⟨ends, rfl⟩ := exists_eq_idsBetween (hgroups.mem_iff.1 hids)
    obtain ⟨e, he, -⟩ := mem_ranked.1 (List.mem_of_getElem? hplace)
    exact ⟨e, he, (parallelRank_of_getElem?_ranked hplace he).2.symm⟩
  · rintro ⟨e, he, rfl⟩
    have hgroup := idsBetween_mem_groups (Catalog.get?_eq_some_iff.1 he)
    obtain ⟨i, hi⟩ := List.getElem?_of_mem (mem_ranked.2 ⟨e, he, rfl⟩)
    exact ⟨_, hgroups.mem_iff.2 hgroup, by rwa [(parallelRank_of_getElem?_ranked hi he).2]⟩

/-- **The table of ranks has the rank of each edge**, in whatever order the groups are written to
it. -/
theorem getElem?_rankTable (id : Id) :
    (rankTable groups)[id]? = (edges.get? id).map (parallelRank edges id) := by
  let f : Id → ℕ := fun id => ((edges.get? id).map (parallelRank edges id)).getD 0
  have hvalues : ∀ p ∈ placesIn groups, p.2 = f p.1 := by
    rintro ⟨other, rank⟩ hp
    obtain ⟨e, he, rfl⟩ := (mem_placesIn_iff hgroups).1 hp
    simp [f, he]
  have hkeys : id ∈ (placesIn groups).map Prod.fst ↔ ∃ e, edges.get? id = some e := by
    simp [mem_placesIn_iff hgroups]
  rw [rankTable, getElem?_foldl_insert hvalues]
  cases he : edges.get? id with
  | none => simp [hkeys, he]
  | some e => simp [hkeys, f, he]

end

/-! ### Multiples -/

section

variable {nodes : Catalog (Node Float32)} {s t : Id} {source target : Node Float32}

/-- An edge is drawn between two nodes by a given multiple of the least bow: along a quadratic curve,
the control point of which is the middle between the ends, moved by that much across the line between
the nodes.  Which way is out is told by the ids of the nodes. -/
def IsBowed (nodes : Catalog (Node Float32)) (edges : Catalog Edge) (source target : Node Float32)
    (id : Id) (multiple : ℕ) : Prop :=
  ∃ e route, edges.get? id = some e ∧ (routes nodes edges).get? id = some route ∧
    let start := (Route.ends source target).start
    let finish := (Route.ends source target).finish
    let sign : Float32 := if e.source ≤ e.target then 1 else -1
    let offset := Route.bow start finish * Float32.ofNat multiple * sign
    let across := Route.across (Route.axis e source target)
    route.curve = .quadratic start (start.midpoint finish + across.scale offset) finish

/-- An edge is drawn along a cubic curve. -/
def IsCubic (nodes : Catalog (Node Float32)) (edges : Catalog Edge) (id : Id) : Prop :=
  ∃ route a b c d, (routes nodes edges).get? id = some route ∧ route.curve = .cubic a b c d

/-- The edges that are bent between two nodes run over one arch. -/
theorem isBowed_iff {multiple : ℕ} : IsBowed nodes edges source target id multiple ↔
    ∃ e route, edges.get? id = some e ∧ (routes nodes edges).get? id = some route ∧
      route.curve = .quadratic (Route.ends source target).start
        ((Route.arch e source target).control multiple) (Route.ends source target).finish := by
  simp only [IsBowed, Route.Arch.control, Route.arch, Route.turn, decide_eq_true_eq]

theorem isBowed_of_get? {multiple : ℕ} (he : edges.get? id = some e)
    (h : (routes nodes edges).get? id = some (Route.bowed e source target multiple)) :
    IsBowed nodes edges source target id multiple :=
  isBowed_iff.2 ⟨e, _, he, h, Route.curve_bowed e source target multiple⟩

/-- An edge that is bent is drawn along a quadratic curve. -/
theorem IsBowed.not_isCubic {multiple : ℕ} (h : IsBowed nodes edges source target id multiple) :
    ¬ IsCubic nodes edges id := by
  rintro ⟨route, a, b, c, d, hroute, hcurve⟩
  obtain ⟨e, route', -, hroute', hbowed⟩ := h
  obtain rfl := Option.some.inj (hroute.symm.trans hroute')
  rw [hcurve] at hbowed
  cases hbowed

/-- The multiple by which an edge is bent is told by its curve. -/
theorem IsBowed.multiple_unique {m n : ℕ} (h : IsBowed nodes edges source target id m)
    (h' : IsBowed nodes edges source target id n) (hsource : source.IsOrdinary)
    (htarget : target.IsOrdinary) (hm : m ≤ 2 ^ 20) (hn : n ≤ 2 ^ 20) : m = n := by
  obtain ⟨e, route, he, hroute, hcurve⟩ := isBowed_iff.1 h
  obtain ⟨e', route', he', hroute', hcurve'⟩ := isBowed_iff.1 h'
  obtain rfl := Option.some.inj (he.symm.trans he')
  obtain rfl := Option.some.inj (hroute.symm.trans hroute')
  obtain ⟨-, hcontrol, -⟩ := Curve.quadratic.inj (hcurve.symm.trans hcurve')
  have hsound := Route.isSound_arch hsource htarget e
  exact (hsound.control_eq_iff hsound rfl rfl rfl hm hn).1 (congrArg Point.exact hcontrol)

/-- An edge that is drawn as if it were alone is drawn along a cubic curve. -/
theorem isCubic_of_direct (h : (routes nodes edges).get? id = some (Route.direct source target)) :
    IsCubic nodes edges id :=
  ⟨_, _, _, _, _, h, Route.curve_direct source target⟩

/-- Some edge leads back exactly if there are edges from the target to the source. -/
theorem hasReverse_iff_ranked (he : e.ends = (s, t)) :
    hasReverse edges e = true ↔ ranked edges (t, s) ≠ [] := by
  obtain ⟨rfl, rfl⟩ := Prod.mk.inj he
  rw [← List.length_pos_iff, List.length_pos_iff_exists_mem]
  simp only [mem_ranked, hasReverse, Catalog.any, List.any_eq_true, Catalog.get?_eq_some_iff,
    Diagram.Edge.ends, Prod.exists, Prod.mk.injEq, Bool.and_eq_true, decide_eq_true_eq]

variable (hne : s ≠ t) (hs : nodes.get? s = some source) (ht : nodes.get? t = some target)

include hne hs ht

/-- The first edge is drawn as if it were alone, and each further one is bent once more than the one
before it. -/
theorem get?_routes_of_getElem?_ranked (hreverse : ranked edges (t, s) = [])
    (h : (ranked edges (s, t))[i]? = some id) :
    if i = 0 then (routes nodes edges).get? id = some (Route.direct source target)
    else IsBowed nodes edges source target id i := by
  obtain ⟨e, he, hends⟩ := mem_ranked.1 (List.mem_of_getElem? h)
  obtain ⟨rfl, rfl⟩ := Prod.mk.inj hends
  obtain ⟨-, hrank⟩ := parallelRank_of_getElem?_ranked h he
  have hiff : hasReverse edges e = true ↔ ranked edges (e.target, e.source) ≠ [] :=
    hasReverse_iff_ranked hends
  have hback : hasReverse edges e = false := by simpa [hreverse] using hiff
  have hshape := get?_routes_eq_shape he hs ht
  have hbend : bend edges id e = i := by simp [bend, hback, hrank]
  rw [shape, if_neg (by simpa [Diagram.Edge.isLoop] using hne), hbend] at hshape
  split
  · next hzero => rwa [if_pos hzero] at hshape
  · next hpos => exact isBowed_of_get? he (by rwa [if_neg hpos] at hshape)

/-- Where edges lead back, the first edge is bent, too. -/
theorem isBowed_of_getElem?_ranked (hreverse : ranked edges (t, s) ≠ [])
    (h : (ranked edges (s, t))[i]? = some id) :
    IsBowed nodes edges source target id (i + 1) := by
  obtain ⟨e, he, hends⟩ := mem_ranked.1 (List.mem_of_getElem? h)
  obtain ⟨rfl, rfl⟩ := Prod.mk.inj hends
  obtain ⟨-, hrank⟩ := parallelRank_of_getElem?_ranked h he
  have hback : hasReverse edges e = true := (hasReverse_iff_ranked hends).2 hreverse
  have hshape := get?_routes_eq_shape he hs ht
  have hbend : bend edges id e = i + 1 := by simp [bend, hback, hrank]
  rw [shape, if_neg (by simpa [Diagram.Edge.isLoop] using hne), hbend, if_neg i.succ_ne_zero]
    at hshape
  exact isBowed_of_get? he hshape

/-- Without edges that lead back, all edges but the first one are bent. -/
theorem forall₂_isBowed_of_eq_nil (hreverse : ranked edges (t, s) = []) {first : Id}
    {rest : List Id} (h : ranked edges (s, t) = first :: rest) :
    (routes nodes edges).get? first = some (Route.direct source target) ∧
      List.Forall₂ (IsBowed nodes edges source target) rest (List.range' 1 rest.length) := by
  refine ⟨get?_routes_of_getElem?_ranked hne hs ht hreverse (i := 0) (by rw [h]; rfl), ?_⟩
  refine List.forall₂_iff_get.2 ⟨List.length_range'.symm, fun i hi hi' => ?_⟩
  have hplace : (ranked edges (s, t))[i + 1]? = some rest[i] := by simp [h, hi]
  have hbowed := get?_routes_of_getElem?_ranked hne hs ht hreverse hplace
  rw [if_neg i.succ_ne_zero] at hbowed
  simpa [Nat.add_comm] using hbowed

/-- With edges that lead back, all edges are bent. -/
theorem forall₂_isBowed_of_ne_nil (hreverse : ranked edges (t, s) ≠ []) :
    List.Forall₂ (IsBowed nodes edges source target) (ranked edges (s, t))
      (List.range' 1 (ranked edges (s, t)).length) := by
  refine List.forall₂_iff_get.2 ⟨List.length_range'.symm, fun i hi hi' => ?_⟩
  simpa [Nat.add_comm] using isBowed_of_getElem?_ranked hne hs ht hreverse
    (List.getElem?_eq_getElem hi)

/-- The one edge that may be drawn along a cubic curve is the first, and it is if none leads
back. -/
theorem isCubic_iff (hid : id ∈ ranked edges (s, t)) : IsCubic nodes edges id ↔
    ranked edges (t, s) = [] ∧ (ranked edges (s, t)).head? = some id := by
  obtain ⟨i, hi⟩ := List.getElem?_of_mem hid
  by_cases hreverse : ranked edges (t, s) = []
  · have hdrawn := get?_routes_of_getElem?_ranked hne hs ht hreverse hi
    have hhead : (ranked edges (s, t)).head? = some id ↔ i = 0 := by
      rw [List.head?_eq_getElem?, ← hi, eq_comm]
      exact (List.getElem?_inj (List.getElem?_eq_some_iff.1 hi).1 (pairwise_ranked edges _).nodup)
    split at hdrawn
    · next hzero => exact iff_of_true (isCubic_of_direct hdrawn) ⟨hreverse, hhead.2 hzero⟩
    · next hpos => exact iff_of_false hdrawn.not_isCubic fun h => hpos (hhead.1 h.2)
  · exact iff_of_false (isBowed_of_getElem?_ranked hne hs ht hreverse hi).not_isCubic
      fun h => hreverse h.1

end

/-- **Parallel edges have all ranks in the order of their ids.**  For the edges from one node to
another one, in whatever order all edges came in and the groups are written to the table:

* in the order of their ids, they have the ranks from zero on, each once, and these are the numbers
  of parallel edges with smaller ids;
* if none leads back, then the first of them is the one that is drawn along a cubic curve, and the
  others are bent by the multiples from one on;
* if some edge leads back, then all of them are bent by the multiples from one on;
* by which multiple an edge is bent is told by its curve, as long as its nodes are ordinary and there
  are not too many edges. -/
theorem map_rankTable_ranked (edges : Catalog Edge) (s t : Id) :
    let ids := ranked edges (s, t)
    (ids.Pairwise (· < ·) ∧
      ∀ id, id ∈ ids ↔ ∃ e, edges.get? id = some e ∧ e.source = s ∧ e.target = t) ∧
    (∀ groups, groups.Perm ((siblings edges.entries).toList.map Prod.snd) →
      ids.map (fun id => (rankTable groups)[id]?) = (List.range ids.length).map some ∧
      ∀ id, (rankTable groups)[id]? = (edges.get? id).map (parallelRank edges id)) ∧
    (∀ edges' : Catalog Edge, edges'.entries.Perm edges.entries → ranked edges' (s, t) = ids ∧
      ∀ id e, parallelRank edges' id e = parallelRank edges id e) ∧
    ∀ nodes source target, s ≠ t → nodes.get? s = some source → nodes.get? t = some target →
      (∀ id ∈ ids, IsCubic nodes edges id ↔ ranked edges (t, s) = [] ∧ ids.head? = some id) ∧
      (ranked edges (t, s) = [] → List.Forall₂ (IsBowed nodes edges source target) ids.tail
        (List.range' 1 (ids.length - 1))) ∧
      (ranked edges (t, s) ≠ [] → List.Forall₂ (IsBowed nodes edges source target) ids
        (List.range' 1 ids.length)) ∧
      (source.IsOrdinary → target.IsOrdinary → ∀ id m n, m ≤ 2 ^ 20 → n ≤ 2 ^ 20 →
        IsBowed nodes edges source target id m → IsBowed nodes edges source target id n →
          m = n) := by
  intro ids
  refine ⟨⟨pairwise_ranked edges (s, t), fun id => ?_⟩, fun groups hgroups => ⟨?_, ?_⟩,
    fun edges' hperm => ⟨ranked_congr hperm, fun id e => ?_⟩,
    fun nodes source target hne hs ht => ⟨fun id => isCubic_iff hne hs ht, fun hreverse => ?_,
      forall₂_isBowed_of_ne_nil hne hs ht, fun hsource htarget id m n hm hn h h' =>
        h.multiple_unique h' hsource htarget hm hn⟩⟩
  · simp only [ids, mem_ranked, Diagram.Edge.ends, Prod.mk.injEq]
  · refine List.ext_getElem (by simp) fun i hi hi' => ?_
    rw [List.length_map] at hi
    have hplace : ids[i]? = some ids[i] := List.getElem?_eq_getElem hi
    obtain ⟨e, he, -⟩ := mem_ranked.1 (List.mem_of_getElem? hplace)
    simp [getElem?_rankTable hgroups, he, (parallelRank_of_getElem?_ranked hplace he).2]
  · exact getElem?_rankTable hgroups
  · rw [parallelRank_eq_countP, parallelRank_eq_countP, ranked_congr hperm]
  · cases hids : ids with
    | nil => simp
    | cons first rest => exact (forall₂_isBowed_of_eq_nil hne hs ht hreverse hids).2

/-- Three edges from the node to the group, which came in out of order. -/
def threeEdges : List (Id × Edge) :=
  [("edge_A_G_2", toGroup), ("edge_A_G_3", toGroup), ("edge_A_G_1", toGroup)]

/-- Of three edges, the first is cubic and the others are bent once and twice.  With an edge that
leads back, they are bent once, twice and three times. -/
theorem map_rankTable_ranked_threeEdges :
    let nodes := groupAndNode ⟨400, 125⟩
    let edges : Catalog Edge := ⟨threeEdges, by decide⟩
    let reordered : Catalog Edge := ⟨threeEdges.reverse, by decide⟩
    let returning : Catalog Edge := ⟨("edge_G_A_4", fromGroup) :: threeEdges, by decide⟩
    (ranked edges ("A", "G") = ["edge_A_G_1", "edge_A_G_2", "edge_A_G_3"] ∧
      ["edge_A_G_1", "edge_A_G_2", "edge_A_G_3"].map
        (fun id => (rankTable ((siblings edges.entries).toList.map Prod.snd).reverse)[id]?) =
          [some 0, some 1, some 2] ∧
      ranked reordered ("A", "G") = ranked edges ("A", "G")) ∧
    (IsCubic nodes edges "edge_A_G_1" ∧
      IsBowed nodes edges (smallNode ⟨400, 125⟩) wideGroup "edge_A_G_2" 1 ∧
      IsBowed nodes edges (smallNode ⟨400, 125⟩) wideGroup "edge_A_G_3" 2) ∧
    IsBowed nodes returning (smallNode ⟨400, 125⟩) wideGroup "edge_A_G_1" 1 ∧
      IsBowed nodes returning (smallNode ⟨400, 125⟩) wideGroup "edge_A_G_2" 2 ∧
      IsBowed nodes returning (smallNode ⟨400, 125⟩) wideGroup "edge_A_G_3" 3 := by
  intro nodes edges reordered returning
  have hids : ranked edges ("A", "G") = ["edge_A_G_1", "edge_A_G_2", "edge_A_G_3"] :=
    inOrder_eq (by decide) (by decide)
  have hback : ranked edges ("G", "A") = [] := inOrder_eq (by decide) (by decide)
  have hids' : ranked returning ("A", "G") = ["edge_A_G_1", "edge_A_G_2", "edge_A_G_3"] :=
    inOrder_eq (by decide) (by decide)
  have hback' : ranked returning ("G", "A") ≠ [] :=
    List.ne_nil_of_mem (mem_ranked.2 ⟨fromGroup, (rfl : returning.get? "edge_G_A_4" = _), rfl⟩)
  obtain ⟨-, htable, hperm, hroutes⟩ := map_rankTable_ranked edges "A" "G"
  obtain ⟨-, -, -, hroutes'⟩ := map_rankTable_ranked returning "A" "G"
  obtain ⟨hcubic, hbowed, -⟩ :=
    hroutes nodes (smallNode ⟨400, 125⟩) wideGroup (by decide) rfl rfl
  obtain ⟨-, -, hbowed', -⟩ :=
    hroutes' nodes (smallNode ⟨400, 125⟩) wideGroup (by decide) rfl rfl
  have hranks := (htable _ (List.reverse_perm _)).1
  have hbent := hbowed hback
  have hbent' := hbowed' hback'
  rw [hids] at hcubic hranks hbent
  rw [hids'] at hbent'
  refine ⟨⟨hids, hranks, (hperm reordered (List.reverse_perm _)).1⟩,
    ⟨(hcubic "edge_A_G_1" (by simp)).2 ⟨hback, rfl⟩, ?_⟩, ?_⟩
  · simpa [List.range'] using hbent
  · simpa [List.range'] using hbent'

end TextDiagram
