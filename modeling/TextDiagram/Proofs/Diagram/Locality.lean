/-
**Routes are local.**

The route of an edge is drawn from its two nodes and from the edges that join them, in the one
direction or the other.  Of a node it takes the position, the size and the handles, and of an edge
the id and the ends.  Whatever else a diagram has, and in whatever order its nodes and edges came
in, makes no difference.

So an edit redraws only what it touches: a node that is moved or measured changes the routes of its
own edges, and an edge that is added or led elsewhere those of the edges that join the same two
nodes as it does, or as it did before.

Main definitions:

* `TextDiagram.Diagram.Node.outline` — what a route takes of a node;
* `TextDiagram.Diagram.Joins` — an edge joins two nodes, in either direction;
* `TextDiagram.Diagram.AgreesAt` — two diagrams agree at two nodes and on the edges between them;
* `TextDiagram.Diagram.RedrawsOnly` — an edit leaves the routes of all edges but some.

Main results:

* `TextDiagram.Catalog.countP_entries_congr` — counting does not depend on the order of a catalog;
* `TextDiagram.Diagram.AgreesAt.get?_routes` — **diagrams that agree at the ends of an edge draw it
  alike**;
* `TextDiagram.Diagram.routes_are_local` — and what follows for the edits.
-/

import Mathlib.Data.List.Perm.Basic
import TextDiagram.Proofs.Diagram.Edit

set_option relaxedAutoImplicit false
set_option autoImplicit false

namespace TextDiagram

open Diagram (Node Edge)

/-! ### Catalogs in any order -/

namespace Catalog

variable {α β : Type}

theorem get?_filterMap (c : Catalog α) (f : Id → α → Option β) (id : Id) :
    (c.filterMap f).get? id = (c.get? id).bind (f id) := by
  refine Option.ext fun b => ?_
  simp only [get?_eq_some_iff, filterMap, List.mem_filterMap, Option.map_eq_some_iff,
    Option.bind_eq_some_iff]
  constructor
  · rintro ⟨⟨key, value⟩, hmem, b', hb', heq⟩
    obtain ⟨rfl, rfl⟩ := Prod.mk.inj heq
    exact ⟨value, hmem, hb'⟩
  · rintro ⟨value, hmem, hb⟩
    exact ⟨(id, value), hmem, b, hb, rfl⟩

/-- What is counted in two catalogs is the same if it has the same ids, in whatever order. -/
theorem countP_entries_congr {c : Catalog α} {c' : Catalog β} {p : Id → α → Bool}
    {q : Id → β → Bool}
    (h : ∀ id, (∃ value, c.get? id = some value ∧ p id value = true) ↔
      ∃ value, c'.get? id = some value ∧ q id value = true) :
    c.entries.countP (fun entry => p entry.1 entry.2) =
      c'.entries.countP (fun entry => q entry.1 entry.2) := by
  have hnodup : ((c.entries.filter fun entry => p entry.1 entry.2).map Prod.fst).Nodup :=
    c.distinct.sublist (List.filter_sublist.map _)
  have hnodup' : ((c'.entries.filter fun entry => q entry.1 entry.2).map Prod.fst).Nodup :=
    c'.distinct.sublist (List.filter_sublist.map _)
  have hperm : ((c.entries.filter fun entry => p entry.1 entry.2).map Prod.fst).Perm
      ((c'.entries.filter fun entry => q entry.1 entry.2).map Prod.fst) := by
    refine (List.perm_ext_iff_of_nodup hnodup hnodup').2 fun id => ?_
    simpa [get?_eq_some_iff] using h id
  rw [List.countP_eq_length_filter, List.countP_eq_length_filter]
  simpa using hperm.length_eq

end Catalog

namespace Diagram

/-! ### What a route is drawn from -/

/-- What a route takes of a node: its position, its size and its handles. -/
def Node.outline (n : Node Float32) : Point Float32 × Size Float32 × List (Handle Float32) :=
  (n.position, n.size, n.handles)

/-- What a route takes of the node of an id. -/
def outline? (d : Diagram Float32) (id : Id) :
    Option (Point Float32 × Size Float32 × List (Handle Float32)) :=
  (d.nodes.get? id).map Node.outline

/-- The ends of an edge are two given nodes, in the one order or the other. -/
def Joins (s t : Id) (ends : Id × Id) : Prop := ends = (s, t) ∨ ends = (t, s)

/-- Two diagrams agree at two nodes: these have the same position, size and handles, and the same
edges join them. -/
structure AgreesAt (d d' : Diagram Float32) (s t : Id) : Prop where
  /-- The first node looks the same. -/
  first : d.outline? s = d'.outline? s
  /-- The second node looks the same. -/
  second : d.outline? t = d'.outline? t
  /-- The same edges join the two nodes. -/
  edges : ∀ id ends, Joins s t ends → (d.ends? id = some ends ↔ d'.ends? id = some ends)

variable {d d' : Diagram Float32} {s t id : Id}

/-! ### Shapes -/

/-- A loop is drawn from the outline of its node. -/
theorem loop_congr {n n' : Node Float32} (h : n.outline = n'.outline) (rank : Nat) :
    Route.loop n rank = Route.loop n' rank := by
  obtain ⟨⟩ := n
  obtain ⟨⟩ := n'
  simp only [Node.outline, Prod.mk.injEq] at h
  obtain ⟨rfl, rfl, rfl⟩ := h
  rfl

section

variable {n n' m m' : Node Float32} (hn : n.outline = n'.outline) (hm : m.outline = m'.outline)

include hn hm

/-- An edge that runs straight is drawn from the outlines of its nodes. -/
theorem direct_congr : Route.direct n m = Route.direct n' m' := by
  obtain ⟨⟩ := n
  obtain ⟨⟩ := n'
  obtain ⟨⟩ := m
  obtain ⟨⟩ := m'
  simp only [Node.outline, Prod.mk.injEq] at hn hm
  obtain ⟨rfl, rfl, rfl⟩ := hn
  obtain ⟨rfl, rfl, rfl⟩ := hm
  rfl

/-- A bent edge is drawn from its ends and from the outlines of its nodes. -/
theorem bowed_congr {e e' : Edge} (he : e.ends = e'.ends) (multiple : Nat) :
    Route.bowed e n m multiple = Route.bowed e' n' m' multiple := by
  obtain ⟨⟩ := n
  obtain ⟨⟩ := n'
  obtain ⟨⟩ := m
  obtain ⟨⟩ := m'
  obtain ⟨⟩ := e
  obtain ⟨⟩ := e'
  simp only [Node.outline, Prod.mk.injEq] at hn hm
  simp only [Edge.ends, Prod.mk.injEq] at he
  obtain ⟨rfl, rfl, rfl⟩ := hn
  obtain ⟨rfl, rfl, rfl⟩ := hm
  obtain ⟨rfl, rfl⟩ := he
  rfl

end

/-! ### Parallel edges -/

theorem areParallel_iff {e f : Edge} : areParallel e f = true ↔ f.ends = e.ends := by
  simp only [areParallel, Bool.and_eq_true, decide_eq_true_eq, Edge.ends, Prod.mk.injEq]
  exact ⟨fun h => ⟨h.1.symm, h.2.symm⟩, fun h => ⟨h.1.symm, h.2.symm⟩⟩

theorem hasReverse_iff {e : Edge} :
    hasReverse d.edges e = true ↔ ∃ id, d.ends? id = some (e.target, e.source) := by
  simp only [hasReverse, Catalog.any, List.any_eq_true, Bool.and_eq_true, decide_eq_true_eq,
    ends?_eq_some_iff, Edge.ends, Prod.mk.injEq, Prod.exists]

namespace AgreesAt

variable {e e' : Edge} (h : d.AgreesAt d' s t) (he : e.ends = (s, t)) (he' : e'.ends = (s, t))

include h he he'

/-- The rank of an edge is told by the edges that lead from the same node to the same node. -/
theorem parallelRank_eq : parallelRank d.edges id e = parallelRank d'.edges id e' := by
  refine Catalog.countP_entries_congr (p := fun other f => areParallel e f && decide (other < id))
    (q := fun other f => areParallel e' f && decide (other < id)) fun other => ?_
  simp only [Bool.and_eq_true, decide_eq_true_eq, areParallel_iff, he, he']
  have hends := h.edges other (s, t) (.inl rfl)
  simp only [ends?, Option.map_eq_some_iff] at hends
  constructor
  · rintro ⟨f, hf, hpar, hlt⟩
    obtain ⟨f', hf', hpar'⟩ := hends.1 ⟨f, hf, hpar⟩
    exact ⟨f', hf', hpar', hlt⟩
  · rintro ⟨f', hf', hpar', hlt⟩
    obtain ⟨f, hf, hpar⟩ := hends.2 ⟨f', hf', hpar'⟩
    exact ⟨f, hf, hpar, hlt⟩

/-- Whether an edge has a reverse is told by the edges that lead back. -/
theorem hasReverse_eq : hasReverse d.edges e = hasReverse d'.edges e' := by
  obtain ⟨hs, ht⟩ := Prod.mk.inj he
  obtain ⟨hs', ht'⟩ := Prod.mk.inj he'
  rw [Bool.eq_iff_iff, hasReverse_iff, hasReverse_iff, hs, ht, hs', ht']
  exact exists_congr fun id => h.edges id (t, s) (.inr rfl)

theorem bend_eq : bend d.edges id e = bend d'.edges id e' := by
  rw [bend, bend, h.parallelRank_eq he he', h.hasReverse_eq he he']

/-- Diagrams that agree at the ends of an edge draw it alike. -/
theorem routeOf?_eq : routeOf? d.nodes d.edges id e = routeOf? d'.nodes d'.edges id e' := by
  obtain ⟨hs, ht⟩ := Prod.mk.inj he
  obtain ⟨hs', ht'⟩ := Prod.mk.inj he'
  have hfirst := h.first
  have hsecond := h.second
  simp only [outline?] at hfirst hsecond
  have hloop : e.isLoop = e'.isLoop := by rw [Edge.isLoop, Edge.isLoop, hs, ht, hs', ht']
  simp only [routeOf?, hs, ht, hs', ht', Option.bind_eq_bind, h.parallelRank_eq he he',
    h.bend_eq he he', hloop]
  cases hn : d.nodes.get? s with
  | none =>
      rw [hn, Option.map_none, eq_comm, Option.map_eq_none_iff] at hfirst
      rw [hfirst, Option.bind_none, Option.bind_none]
  | some n =>
      rw [hn, Option.map_some, eq_comm, Option.map_eq_some_iff] at hfirst
      obtain ⟨n', hn', hnn'⟩ := hfirst
      rw [hn', Option.bind_some, Option.bind_some]
      cases hm : d.nodes.get? t with
      | none =>
          rw [hm, Option.map_none, eq_comm, Option.map_eq_none_iff] at hsecond
          rw [hsecond, Option.bind_none, Option.bind_none]
      | some m =>
          rw [hm, Option.map_some, eq_comm, Option.map_eq_some_iff] at hsecond
          obtain ⟨m', hm', hmm'⟩ := hsecond
          rw [hm', Option.bind_some, Option.bind_some, loop_congr hnn'.symm,
            direct_congr hnn'.symm hmm'.symm]
          simp only [bowed_congr hnn'.symm hmm'.symm (he.trans he'.symm)]

end AgreesAt

/-- **Diagrams that agree at the ends of an edge draw it alike**, whatever else they have, and in
whatever order. -/
theorem AgreesAt.get?_routes (h : d.AgreesAt d' s t) (hid : d.ends? id = some (s, t)) :
    d'.rerouted.routes.get? id = d.rerouted.routes.get? id := by
  have hid' := (h.edges id (s, t) (.inl rfl)).1 hid
  simp only [ends?, Option.map_eq_some_iff] at hid hid'
  obtain ⟨e, he, hends⟩ := hid
  obtain ⟨e', he', hends'⟩ := hid'
  simp only [rerouted, TextDiagram.routes, Catalog.get?_filterMap, he, he', Option.bind_some]
  exact (h.routeOf?_eq hends hends').symm

/-! ### Edits -/

/-- An edit leaves the routes of all edges but those that end in a given way: they are drawn as they
would have been drawn before. -/
def RedrawsOnly (d d' : Diagram Float32) (touched : Id × Id → Prop) : Prop :=
  ∀ id ends, d.ends? id = some ends → ¬ touched ends →
    d'.routes.get? id = d.rerouted.routes.get? id

/-- Changing one node redraws its own edges. -/
theorem redrawsOnly_modifyNode (d : Diagram Float32) (id : Id) (f : Node Float32 → Node Float32) :
    d.RedrawsOnly (rerouted { d with nodes := d.nodes.modify id f })
      fun ends => ends.1 = id ∨ ends.2 = id := by
  rintro edge ⟨s, t⟩ hedge htouched
  obtain ⟨hs, ht⟩ := not_or.1 htouched
  have houtline : ∀ other, other ≠ id →
      d.outline? other = outline? { d with nodes := d.nodes.modify id f } other := by
    intro other hne
    simp only [outline?, Catalog.modify, Catalog.get?_map, if_neg hne, Option.map_id_fun', id_eq]
  have hagrees : d.AgreesAt { d with nodes := d.nodes.modify id f } s t :=
    ⟨houtline s hs, houtline t ht, fun _ _ _ => Iff.rfl⟩
  exact hagrees.get?_routes hedge

/-- Changing the ends of one edge redraws the edges that join its old ends or its new ends. -/
theorem redrawsOnly_of_ends? {edges : Catalog Edge} (ends : Id × Id)
    (hself : ends? { d with edges } id = some ends)
    (hother : ∀ other, other ≠ id → ends? { d with edges } other = d.ends? other) :
    d.RedrawsOnly (rerouted { d with edges }) fun other =>
      (∃ old, d.ends? id = some old ∧ Joins old.1 old.2 other) ∨ Joins ends.1 ends.2 other := by
  rintro edge ⟨s, t⟩ hedge htouched
  obtain ⟨hold, hnew⟩ := not_or.1 htouched
  have hagrees : d.AgreesAt { d with edges } s t := by
    refine ⟨rfl, rfl, fun other ends' hjoins => ?_⟩
    rcases eq_or_ne other id with rfl | hne
    · -- neither before nor after does this edge join the two nodes
      rw [hself]
      constructor
      · intro hbefore
        refine absurd ⟨ends', hbefore, ?_⟩ hold
        rcases hjoins with rfl | rfl
        · exact .inl rfl
        · exact .inr rfl
      · intro hafter
        obtain rfl := Option.some.inj hafter
        refine absurd ?_ hnew
        rcases hjoins with rfl | rfl
        · exact .inl rfl
        · exact .inr rfl
    · rw [hother other hne]
  exact hagrees.get?_routes hedge

/-- **Routes are local.**  Two diagrams that agree at the ends of an edge draw it alike.  Moving or
measuring a node therefore redraws only its own edges, and adding an edge or leading it elsewhere
only the edges that join the nodes that it joins now, or that an edge of its id joined before. -/
theorem routes_are_local (d : Diagram Float32) :
    (∀ d' id s t, d.AgreesAt d' s t → d.ends? id = some (s, t) →
      d'.rerouted.routes.get? id = d.rerouted.routes.get? id) ∧
    (∀ id position d', d.moved? id position = some d' →
      d.RedrawsOnly d' fun ends => ends.1 = id ∨ ends.2 = id) ∧
    (∀ id size handles d', d.measured? id size handles = some d' →
      d.RedrawsOnly d' fun ends => ends.1 = id ∨ ends.2 = id) ∧
    (∀ id e d', d.withEdge? id e = some d' →
      d.RedrawsOnly d' fun ends => (∃ old, d.ends? id = some old ∧ Joins old.1 old.2 ends) ∨
        Joins e.source e.target ends) ∧
    (∀ id source target d', d.reconnected? id source target = some d' →
      d.RedrawsOnly d' fun ends => (∃ old, d.ends? id = some old ∧ Joins old.1 old.2 ends) ∨
        Joins source target ends) := by
  refine ⟨fun _ _ _ _ => AgreesAt.get?_routes, ?_, ?_, ?_, ?_⟩
  · intro id position d' hd
    obtain ⟨-, hd⟩ := Option.ite_none_right_eq_some.1 hd
    obtain rfl := Option.some.inj hd
    exact d.redrawsOnly_modifyNode id _
  · intro id size handles d' hd
    obtain ⟨-, hd⟩ := Option.ite_none_right_eq_some.1 hd
    obtain rfl := Option.some.inj hd
    exact d.redrawsOnly_modifyNode id _
  · intro id e d' hd
    obtain ⟨-, hd⟩ := Option.ite_none_right_eq_some.1 hd
    obtain rfl := Option.some.inj hd
    refine redrawsOnly_of_ends? e.ends ?_ ?_
    · rw [ends?, Catalog.get?_insert_self, Option.map_some]
    · intro other hne
      rw [ends?, Catalog.get?_insert_of_ne _ hne, ends?]
  · intro id source target d' hd
    obtain ⟨hguard, hd⟩ := Option.ite_none_right_eq_some.1 hd
    obtain rfl := Option.some.inj hd
    obtain ⟨-, hcontains⟩ := Bool.and_eq_true_iff.1 hguard
    obtain ⟨e, he⟩ := Option.isSome_iff_exists.1 hcontains
    refine redrawsOnly_of_ends? (source, target) ?_ ?_
    · simp only [ends?, Catalog.modify, Catalog.get?_map, he, Option.map_some, if_true, Edge.ends]
    · intro other hne
      simp only [ends?, Catalog.modify, Catalog.get?_map, if_neg hne, Option.map_id_fun', id_eq]

end Diagram

/-! ### A group and a node -/

/-- A group. -/
def wideGroup : Node Float32 where
  kind := .group
  position := ⟨50, 50⟩
  size := ⟨300, 200⟩
  label := "G"
  origin := .line 0

/-- A node of the least size with a given corner. -/
def smallNode (corner : Point Float32) : Node Float32 where
  kind := .default
  position := corner
  size := ⟨150, 50⟩
  label := "A"
  origin := .line 1

/-- A group and a node with a given corner. -/
def groupAndNode (corner : Point Float32) : Catalog (Node Float32) :=
  .ofList [("G", wideGroup), ("A", smallNode corner)]

/-- The edge from the node to the group. -/
def toGroup : Edge where
  source := "A"
  target := "G"
  kind := .arrow
  origin := .line 1

/-- The edge from the group to the node. -/
def fromGroup : Edge where
  source := "G"
  target := "A"
  kind := .arrow
  origin := .line 2

/-- An edge and one that leads back. -/
def bothWays : Catalog Edge := .ofList [("edge_A_G_1", toGroup), ("edge_G_A_2", fromGroup)]

namespace Diagram

/-- A node and a group, with an edge in each direction. -/
def soleExchange : Diagram Float32 := { nodes := groupAndNode ⟨400, 125⟩, edges := bothWays }

/-- The same in another order and with other labels, and a third node that is joined to the two. -/
def sharedExchange : Diagram Float32 where
  nodes := .ofList [("B", smallNode ⟨400, 400⟩), ("A", { smallNode ⟨400, 125⟩ with label := "first" }),
    ("G", wideGroup)]
  edges := .ofList [("edge_G_A_2", { fromGroup with label := "back" }),
    ("edge_A_B_0", { toGroup with target := "B" }), ("edge_B_G_1", { toGroup with source := "B" }),
    ("edge_A_G_1", toGroup)]

/-- A third node makes no difference to the edges between two others. -/
theorem routes_are_local_sharedExchange :
    soleExchange.AgreesAt sharedExchange "A" "G" ∧ soleExchange.ends? "edge_A_G_1" = some ("A", "G") ∧
      (soleExchange.rerouted.routes.get? "edge_A_G_1").isSome = true ∧
      sharedExchange.rerouted.routes.get? "edge_A_G_1" =
        soleExchange.rerouted.routes.get? "edge_A_G_1" := by
  have hagrees : soleExchange.AgreesAt sharedExchange "A" "G" := by
    refine ⟨by decide, by decide, ?_⟩
    have hentries : soleExchange.edges.entries =
        [("edge_A_G_1", toGroup), ("edge_G_A_2", fromGroup)] := by decide
    have hentries' : sharedExchange.edges.entries =
        [("edge_G_A_2", { fromGroup with label := "back" }),
          ("edge_A_B_0", { toGroup with target := "B" }),
          ("edge_B_G_1", { toGroup with source := "B" }), ("edge_A_G_1", toGroup)] := by decide
    rintro id ends (rfl | rfl)
    · simp [ends?_eq_some_iff, hentries, hentries', Edge.ends, toGroup, fromGroup, or_and_right,
        exists_or, and_assoc]
    · simp [ends?_eq_some_iff, hentries, hentries', Edge.ends, toGroup, fromGroup, or_and_right,
        exists_or, and_assoc]
  have hends : soleExchange.ends? "edge_A_G_1" = some ("A", "G") := by decide
  exact ⟨hagrees, hends, by decide +kernel,
    (routes_are_local soleExchange).1 sharedExchange "edge_A_G_1" "A" "G" hagrees hends⟩

end Diagram

end TextDiagram
