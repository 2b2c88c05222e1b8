/-
**Which edges are drawn on top of each other.**

Edges between the same two nodes are ranked by their ids, so that each of them gets a shape of its
own: in one direction the ranks are different, and the other direction is bent to the other side.
The one exception are tangled nodes, the centers of which are in the same place while the ends of an
edge between them are not: there both directions are bent to the same side, and edges of the same
rank coincide.

Main definitions:

* `TextDiagram.parallelCount` — how many edges lead from the same node to the same node.

Main results:

* `TextDiagram.parallelRank_ne` — parallel edges have different ranks;
* `TextDiagram.exists_routes_coincides_iff` — **when two edges that join the same two nodes
  coincide**.
-/

import TextDiagram.Proofs.Diagram.Shapes
import TextDiagram.Proofs.Diagram.Locality

set_option relaxedAutoImplicit false
set_option autoImplicit false

namespace TextDiagram

open Diagram (Node Edge Joins)

/-! ### Ranks -/

section

variable {edges : Catalog Edge} {id id' : Id} {e e' : Edge}

/-- How many edges lead from the same node to the same node as a given one, itself among them. -/
def parallelCount (edges : Catalog Edge) (e : Edge) : ℕ :=
  edges.entries.countP fun (_, f) => areParallel e f

theorem areParallel_congr (h : e'.ends = e.ends) (f : Edge) :
    areParallel e' f = areParallel e f := by
  rw [Bool.eq_iff_iff, Diagram.areParallel_iff, Diagram.areParallel_iff, h]

/-- An edge does not come before itself. -/
theorem parallelRank_lt_parallelCount (he : edges.get? id = some e) :
    parallelRank edges id e < parallelCount edges e := by
  refine Catalog.countP_lt_countP (Catalog.get?_eq_some_iff.1 he) (fun x _ hx => ?_) ?_ ?_
  · exact (Bool.and_eq_true_iff.1 hx).1
  · exact Diagram.areParallel_iff.2 rfl
  · simp

theorem parallelRank_lt (he : edges.get? id = some e) (hends : e'.ends = e.ends) (hlt : id < id') :
    parallelRank edges id e < parallelRank edges id' e' := by
  refine Catalog.countP_lt_countP (Catalog.get?_eq_some_iff.1 he) (fun x _ hx => ?_) ?_ ?_
  · obtain ⟨hpar, hless⟩ := Bool.and_eq_true_iff.1 hx
    exact Bool.and_eq_true_iff.2 ⟨areParallel_congr hends x.2 ▸ hpar,
      decide_eq_true ((of_decide_eq_true hless).trans hlt)⟩
  · exact Bool.and_eq_true_iff.2 ⟨Diagram.areParallel_iff.2 hends.symm, decide_eq_true hlt⟩
  · simp

/-- Parallel edges have different ranks. -/
theorem parallelRank_ne (he : edges.get? id = some e) (he' : edges.get? id' = some e')
    (hends : e'.ends = e.ends) (hne : id ≠ id') :
    parallelRank edges id e ≠ parallelRank edges id' e' := by
  rcases lt_or_gt_of_ne hne with hlt | hlt
  · exact (parallelRank_lt he hends hlt).ne
  · exact (parallelRank_lt he' hends.symm hlt).ne'

/-- An edge that leads back gives both a reverse. -/
theorem hasReverse_of_get? (he' : edges.get? id' = some e')
    (hends : e'.ends = (e.target, e.source)) : hasReverse edges e = true := by
  rw [hasReverse, Catalog.any, List.any_eq_true]
  refine ⟨(id', e'), Catalog.get?_eq_some_iff.1 he', ?_⟩
  obtain ⟨hs, ht⟩ := Prod.mk.inj hends
  simp [hs, ht]

/-- An edge is bent at most as often as it has parallels, itself among them. -/
theorem bend_le (he : edges.get? id = some e) : bend edges id e ≤ parallelCount edges e := by
  have hlt := parallelRank_lt_parallelCount he
  rw [bend]
  split
  · omega
  · omega

end

/-! ### The shape of an edge -/

/-- How an edge is drawn between two nodes that exist. -/
def shape (edges : Catalog Edge) (id : Id) (e : Edge) (source target : Node Float32) :
    Route Float32 :=
  if e.isLoop then Route.loop source (parallelRank edges id e)
  else if bend edges id e = 0 then Route.direct source target
  else Route.bowed e source target (bend edges id e)

section

variable {nodes : Catalog (Node Float32)} {edges : Catalog Edge} {id id' : Id} {e e' : Edge}
  {source target : Node Float32}

theorem get?_routes_eq_shape (he : edges.get? id = some e)
    (hsource : nodes.get? e.source = some source) (htarget : nodes.get? e.target = some target) :
    (routes nodes edges).get? id = some (shape edges id e source target) := by
  rw [routes, Catalog.get?_filterMap, he, Option.bind_some, routeOf?, hsource, htarget, shape]
  simp only [Option.bind_eq_bind, Option.bind_some]
  split
  · rfl
  · cases bend edges id e with
    | zero => rfl
    | succ n => rfl

variable (he : edges.get? id = some e) (he' : edges.get? id' = some e')
  (hs : source.IsOrdinary) (ht : target.IsOrdinary) (hcount : parallelCount edges e ≤ 2 ^ 20)
  (hcount' : parallelCount edges e' ≤ 2 ^ 20)

include he hs ht hcount

theorem isFinite_shape :
    ∀ p ∈ (shape edges id e source target).curve.points, p.isFinite = true := by
  rw [shape]
  split
  · exact Route.isFinite_loop hs ((parallelRank_lt_parallelCount he).trans_le hcount)
  · split
    · exact Route.isFinite_direct hs ht
    · exact Route.isFinite_bowed hs ht e ((bend_le he).trans hcount)

include he' hcount'

/-- Edges in the same direction are drawn apart. -/
theorem not_coincides_of_ends_eq (hne : id ≠ id') (hends : e'.ends = e.ends) :
    ¬ (shape edges id e source target).curve.Coincides
      (shape edges id' e' source target).curve := by
  have hrank := parallelRank_ne he he' hends hne
  obtain ⟨hsourceEq, htargetEq⟩ := Prod.mk.inj hends
  have hloop : e'.isLoop = e.isLoop := by rw [Edge.isLoop, Edge.isLoop, hsourceEq, htargetEq]
  have hreverse : hasReverse edges e' = hasReverse edges e := by
    rw [hasReverse, hasReverse, hsourceEq, htargetEq]
  have hbend : bend edges id e ≠ bend edges id' e' := by
    rw [bend, bend, hreverse]
    omega
  have hle := (bend_le he).trans hcount
  have hle' := (bend_le he').trans hcount'
  rw [shape, shape, hloop]
  split
  · exact Route.not_coincides_loop hs ((parallelRank_lt_parallelCount he).trans_le hcount)
      ((parallelRank_lt_parallelCount he').trans_le hcount') hrank
  · split
    · next hzero =>
        rw [if_neg (hzero ▸ hbend.symm)]
        exact Route.not_coincides_direct_bowed hs ht e' (by omega) hle'
    · next hpos =>
        split
        · intro h
          exact Route.not_coincides_direct_bowed hs ht e (by omega) hle h.symm
        · rw [Route.curve_bowed, Route.curve_bowed, Route.arch_congr hsourceEq htargetEq]
          intro h
          have hsound := Route.isSound_arch hs ht e
          exact hbend ((hsound.control_eq_iff hsound rfl rfl rfl hle hle').1 h.control_eq)

/-- Edges in opposite directions coincide exactly if they have the same rank and their nodes are
tangled. -/
theorem coincides_iff_of_ends_swap (hne : e.source ≠ e.target)
    (hends : e'.ends = (e.target, e.source)) :
    (shape edges id e source target).curve.Coincides (shape edges id' e' target source).curve ↔
      parallelRank edges id e = parallelRank edges id' e' ∧ Route.AreTangled source target := by
  obtain ⟨hsourceEq, htargetEq⟩ := Prod.mk.inj hends
  have hback : e.ends = (e'.target, e'.source) := by rw [Edge.ends, hsourceEq, htargetEq]
  have hbend : bend edges id e = parallelRank edges id e + 1 := by
    rw [bend, if_pos (hasReverse_of_get? he' hends)]
  have hbend' : bend edges id' e' = parallelRank edges id' e' + 1 := by
    rw [bend, if_pos (hasReverse_of_get? he hback)]
  have hloop : e.isLoop = false := by rw [Edge.isLoop, decide_eq_false hne]
  have hloop' : e'.isLoop = false := by
    rw [Edge.isLoop, hsourceEq, htargetEq, decide_eq_false (Ne.symm hne)]
  have hle := hbend ▸ (bend_le he).trans hcount
  have hle' := hbend' ▸ (bend_le he').trans hcount'
  have hsound := Route.isSound_arch hs ht e
  have hsound' := Route.isSound_arch ht hs e'
  obtain ⟨hmiddle, hbow⟩ := Route.arch_swap hs ht e e'
  obtain ⟨hsame, hopposite⟩ := Route.way_arch_swap hs ht hsourceEq htargetEq hne
  rw [shape, shape, hloop, hloop', hbend, hbend']
  simp only [Bool.false_eq_true, if_false, Nat.succ_ne_zero]
  rw [Route.curve_bowed, Route.curve_bowed, Route.ends_swap hs.handles ht.handles,
    Curve.coincides_quadratic_iff]
  by_cases htangled : Route.AreTangled source target
  · rw [hsound.control_eq_iff hsound' hmiddle hbow (hsame htangled) hle hle', Nat.succ_inj]
    exact (and_iff_left htangled).symm
  · exact iff_of_false (hsound.control_ne hsound' hmiddle hbow (hopposite htangled) hle hle'
      (Nat.succ_pos _)) fun h => htangled h.2

/-- **When two edges that join the same two nodes coincide.**  Both are drawn, with finite points,
and on top of each other exactly if they lead in opposite directions, have the same rank, and their
nodes are tangled. -/
theorem exists_routes_coincides_iff (hne : id ≠ id') (hjoins : Joins e.source e.target e'.ends)
    (hsource : nodes.get? e.source = some source) (htarget : nodes.get? e.target = some target) :
    ∃ route route', (routes nodes edges).get? id = some route ∧
      (routes nodes edges).get? id' = some route' ∧
      (∀ p ∈ route.curve.points ++ route'.curve.points, p.isFinite = true) ∧
      (route.curve.Coincides route'.curve ↔
        e.source ≠ e.target ∧ e'.ends = (e.target, e.source) ∧
          parallelRank edges id e = parallelRank edges id' e' ∧
          Route.AreTangled source target) := by
  by_cases hsame : e'.ends = e.ends
  · obtain ⟨hsourceEq, htargetEq⟩ := Prod.mk.inj hsame
    refine ⟨_, _, get?_routes_eq_shape he hsource htarget,
      get?_routes_eq_shape he' (hsourceEq ▸ hsource) (htargetEq ▸ htarget), ?_, ?_⟩
    · rw [List.forall_mem_append]
      exact ⟨isFinite_shape he hs ht hcount, isFinite_shape he' hs ht hcount'⟩
    · refine iff_of_false (not_coincides_of_ends_eq he he' hs ht hcount hcount' hne hsame) ?_
      rintro ⟨hdifferent, hback, -⟩
      exact hdifferent (Prod.mk.inj (hsame.symm.trans hback)).1
  · have hends : e'.ends = (e.target, e.source) := hjoins.resolve_left hsame
    have hdifferent : e.source ≠ e.target := by
      intro heq
      exact hsame (by rw [hends, Edge.ends, heq])
    obtain ⟨hsourceEq, htargetEq⟩ := Prod.mk.inj hends
    refine ⟨_, _, get?_routes_eq_shape he hsource htarget,
      get?_routes_eq_shape he' (hsourceEq ▸ htarget) (htargetEq ▸ hsource), ?_, ?_⟩
    · rw [List.forall_mem_append]
      exact ⟨isFinite_shape he hs ht hcount, isFinite_shape he' ht hs hcount'⟩
    · rw [coincides_iff_of_ends_swap he he' hs ht hcount hcount' hdifferent hends,
        and_iff_right hdifferent, and_iff_right hends]

end

/-! ### A group and a node -/

/-- Between a group and a node to the right of it, both edges are drawn apart. -/
theorem exists_routes_not_coincides_of_apart :
    Joins toGroup.source toGroup.target fromGroup.ends ∧ wideGroup.IsOrdinary ∧
      (smallNode ⟨400, 125⟩).IsOrdinary ∧
      ∃ route route',
        (routes (groupAndNode ⟨400, 125⟩) bothWays).get? "edge_A_G_1" = some route ∧
        (routes (groupAndNode ⟨400, 125⟩) bothWays).get? "edge_G_A_2" = some route' ∧
        ¬ route.curve.Coincides route'.curve := by
  have hsource : (groupAndNode ⟨400, 125⟩).get? toGroup.source = some (smallNode ⟨400, 125⟩) := rfl
  have htarget : (groupAndNode ⟨400, 125⟩).get? toGroup.target = some wideGroup := rfl
  have hgroup : wideGroup.IsOrdinary := by decide +kernel
  have hnode : (smallNode ⟨400, 125⟩).IsOrdinary := by decide +kernel
  have hcenters :
      Route.negligible < (wideGroup.box.center - (smallNode ⟨400, 125⟩).box.center).length := by
    decide +kernel
  have he : bothWays.get? "edge_A_G_1" = some toGroup := rfl
  have he' : bothWays.get? "edge_G_A_2" = some fromGroup := rfl
  obtain ⟨route, route', hroute, hroute', -, hiff⟩ := exists_routes_coincides_iff he he' hnode
    hgroup (by decide) (by decide) (by decide) (.inr rfl) hsource htarget
  exact ⟨.inr rfl, hgroup, hnode, route, route', hroute, hroute',
    fun h => (hiff.1 h).2.2.2.1 hcenters⟩

/-- Between a group and a node in the middle of it, both edges are drawn along one curve. -/
theorem coincides_of_concentric :
    (wideGroup.IsOrdinary ∧ (smallNode ⟨125, 125⟩).IsOrdinary) ∧
      (0 ≤ wideGroup.size.width ∧ 0 ≤ wideGroup.size.height) ∧
      (0 ≤ (smallNode ⟨125, 125⟩).size.width ∧ 0 ≤ (smallNode ⟨125, 125⟩).size.height) ∧
      Joins toGroup.source toGroup.target fromGroup.ends ∧
      ∃ route route',
        (routes (groupAndNode ⟨125, 125⟩) bothWays).get? "edge_A_G_1" = some route ∧
        (routes (groupAndNode ⟨125, 125⟩) bothWays).get? "edge_G_A_2" = some route' ∧
        route.curve.Coincides route'.curve := by
  have hthere : (routes (groupAndNode ⟨125, 125⟩) bothWays).get? "edge_A_G_1" =
      some ⟨.top, .top, .quadratic ⟨200, 125⟩ ⟨222.5, 87.5⟩ ⟨200, 50⟩, ⟨222.5, 87.5⟩⟩ := by
    decide +kernel
  have hback : (routes (groupAndNode ⟨125, 125⟩) bothWays).get? "edge_G_A_2" =
      some ⟨.top, .top, .quadratic ⟨200, 50⟩ ⟨222.5, 87.5⟩ ⟨200, 125⟩, ⟨222.5, 87.5⟩⟩ := by
    decide +kernel
  exact ⟨by decide +kernel, by decide +kernel, by decide +kernel, .inr rfl, _, _, hthere, hback,
    Curve.coincides_quadratic_iff.2 rfl⟩

end TextDiagram
