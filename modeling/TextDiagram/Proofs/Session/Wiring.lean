/-
**What a layout is applied to.**

A layout is asked for with the nodes and with the ends of all edges, but its ticket tells the ids
alone.  So an answer that is applied finds the nodes and the edges that it was computed for, in the
same order, and yet an edge may lead elsewhere by then.  That can happen in two ways.  The edge may
have been reconnected since.  Or the text was read again since, and the edge of its line is another
one: because a reconnection before the request is undone, or because the names of its ends say the
same when an underscore joins them.

Main results:

* `TextDiagram.Session.ends_of_applied` — **what an answer that is applied finds**: the nodes and
  edges of the request, with their ends, up to these two ways.
-/

import TextDiagram.Proofs.Session.Edges
import TextDiagram.Proofs.Session.Ticket
import TextDiagram.Proofs.Text.Cut

set_option relaxedAutoImplicit false
set_option autoImplicit false

namespace TextDiagram

/-- Names that are joined by an underscore can be told apart if the first one has none. -/
theorem names_eq_of_underscore {a b a' b' : String} (ha : '_' ∉ a.toList) (ha' : '_' ∉ a'.toList)
    (h : a ++ "_" ++ b = a' ++ "_" ++ b') : (a, b) = (a', b') := by
  have htoList : ∀ a b : String, (a ++ "_" ++ b).toList = a.toList ++ '_' :: b.toList := by
    intro a b
    simp
  -- a cut around the underscore finds the two names
  have hcut := congrArg (fun s : String => Text.cutAround ['_'] s.toList) h
  simp only [htoList, Text.cutAround_append_cons ha, Text.cutAround_append_cons ha',
    Option.some_inj, Prod.mk.injEq, String.toList_inj] at hcut
  exact Prod.ext hcut.1 hcut.2

namespace Session

variable {configuration : Configuration} {s s' s₁ : Session}

/-- An answer that is applied was in time, and moves nodes. -/
theorem exists_placed_of_applied {ticket : Ticket} {result : ServiceResult}
    (h : s.completeLayout ticket result = (.applied, s')) :
    s.isStale ticket = false ∧
      ∃ positions, s' = { s with diagram := s.diagram.placed positions } := by
  cases hstale : s.isStale ticket with
  | true =>
      rw [completeLayout_of_isStale hstale] at h
      exact nomatch congrArg Prod.fst h
  | false =>
      cases result with
      | error error =>
          rw [completeLayout_error hstale] at h
          exact nomatch congrArg Prod.fst h
      | ok placed =>
          rw [completeLayout_ok hstale] at h
          exact ⟨rfl, _, (congrArg Prod.snd h).symm⟩

/-- An edge that has a line in the text joins the nodes that its id was made of, unless it was
reconnected. -/
theorem reconnects_or_names_eq {before : List Call}
    (hbefore : (start configuration).afterAll? before = some s) {id source target : Id}
    {k line : Nat} (hid : id = iterate Id.primed k (Id.edge source target line))
    {ends : Id × Id} (hends : s.diagram.ends? id = some ends) :
    Reconnects before id ∨ source ++ "_" ++ target = ends.1 ++ "_" ++ ends.2 := by
  cases (isCoherent_start configuration).endsFrom_afterAll? hbefore hends with
  | kept hkept => exact nomatch hkept
  | reconnected hreconnected => exact Or.inl hreconnected
  | read _ hid' => exact Or.inr (Id.names_eq_of_primed_edge_eq (hid.symm.trans hid'))
  | drawn _ hid' =>
      -- the ids of drawn edges look different
      have hmark := congrArg Id.mark (hid.symm.trans hid')
      simp at hmark

/-- What can have become of the ends of an edge since a layout was asked for. -/
theorem ends_cases {before calls : List Call}
    (hbefore : (start configuration).afterAll? before = some s)
    (hcalls : s.requestLayout.2.afterAll? calls = some s') {id : Id} {ends ends' : Id × Id}
    (hends : s.diagram.ends? id = some ends) (hends' : s'.diagram.ends? id = some ends') :
    ends' = ends ∨ Reconnects calls id ∨ ChangesText calls ∧
      (Reconnects before id ∨ ends'.1 ++ "_" ++ ends'.2 = ends.1 ++ "_" ++ ends.2) := by
  have hreach : Reachable configuration s := Reachable.start.afterAll hbefore
  have hrequested : Reachable configuration s.requestLayout.2 := .call .layoutRequested hreach rfl
  cases hrequested.coherent.endsFrom_afterAll? hcalls hends' with
  | kept hkept => exact Or.inl (Option.some.inj (hkept.symm.trans hends))
  | reconnected hreconnected => exact Or.inr (Or.inl hreconnected)
  | read htext hid => exact Or.inr (Or.inr ⟨htext, reconnects_or_names_eq hbefore hid hends⟩)
  | drawn hle hid =>
      -- the edge was there at the request, so its number was given before
      obtain ⟨e, hmem, -⟩ := Diagram.ends?_eq_some_iff.1 hends
      have hknown := hreach.edges_inOrder.known id (List.mem_map_of_mem hmem)
      rw [hid, Id.mark_drawnEdge, Id.endNumber_drawnEdge] at hknown
      rcases hknown with hmark | ⟨-, hlt⟩
      · exact absurd hmark (by decide)
      · exact absurd hlt (Nat.not_lt.2 hle)

/-- Without reconnections since the request an edge joins what it joined then, as long as the text
was not changed, or nothing was reconnected before and no node has an underscore in its id. -/
theorem ends_eq_of_calm {before calls : List Call}
    (hbefore : (start configuration).afterAll? before = some s)
    (hcalls : s.requestLayout.2.afterAll? calls = some s')
    (hnodes : ∀ id ∈ s'.diagram.nodes.ids, id ∈ s.diagram.nodes.ids)
    (hcalm : ∀ id, ¬ Reconnects calls id)
    (htext : ¬ ChangesText calls ∨
      (∀ id, ¬ Reconnects before id) ∧ (∀ id ∈ s.diagram.nodes.ids, '_' ∉ id.toList))
    {id : Id} {e e' : Diagram.Edge} (he : s.diagram.edges.get? id = some e)
    (he' : s'.diagram.edges.get? id = some e') : e'.ends = e.ends := by
  have hreach : Reachable configuration s := Reachable.start.afterAll hbefore
  have hrequested : Reachable configuration s.requestLayout.2 := .call .layoutRequested hreach rfl
  have hreach' := hrequested.afterAll hcalls
  have hends : s.diagram.ends? id = some e.ends := congrArg (Option.map _) he
  have hends' : s'.diagram.ends? id = some e'.ends := congrArg (Option.map _) he'
  rcases ends_cases hbefore hcalls hends hends' with heq | hreconnected | ⟨hchanged, hread⟩
  · exact heq
  · exact absurd hreconnected (hcalm id)
  · obtain ⟨hcalm', hplain⟩ := htext.resolve_left (not_not.2 hchanged)
    -- the sources of both edges are nodes of the request, so neither has an underscore
    have hsource := (hreach.coherent.sound.joined id e (Catalog.get?_eq_some_iff.1 he)).1
    have hsource' := (hreach'.coherent.sound.joined id e' (Catalog.get?_eq_some_iff.1 he')).1
    exact names_eq_of_underscore (hplain _ (hnodes _ hsource')) (hplain _ hsource)
      (hread.resolve_left (hcalm' id))

/-- A layout is asked for with all nodes. -/
theorem map_fst_request_nodes (s : Session) :
    s.requestLayout.1.request.nodes.map Prod.fst = s.diagram.nodes.ids := by
  simp only [requestLayout, LayoutRequest.ofDiagram, List.map_map]
  rfl

/-- **What an answer that is applied finds.**  It finds the nodes of the request, and the edges of
the request in their order.  Each edge joins the nodes that it joined then, unless it was
reconnected since; or the text was changed since, and the edge was reconnected before or has names
that an underscore joins alike.  So without reconnections since, the ends of all edges are those of
the request, as long as the text was not changed, or there were no reconnections before and no node
has an underscore in its id. -/
theorem ends_of_applied {before calls : List Call}
    (hbefore : (start configuration).afterAll? before = some s)
    (hcalls : s.requestLayout.2.afterAll? calls = some s') {result : ServiceResult}
    (happlied : s'.completeLayout s.requestLayout.1.ticket result = (.applied, s₁)) :
    s₁.diagram.nodes.ids.Perm (s.requestLayout.1.request.nodes.map Prod.fst) ∧
    s₁.diagram.edges.ids = s.diagram.edges.ids ∧
    (∀ id ends ends', s.diagram.ends? id = some ends → s₁.diagram.ends? id = some ends' →
      ends' = ends ∨ Reconnects calls id ∨ ChangesText calls ∧
        (Reconnects before id ∨ ends'.1 ++ "_" ++ ends'.2 = ends.1 ++ "_" ++ ends.2)) ∧
    ((∀ id, ¬ Reconnects calls id) →
      ¬ ChangesText calls ∨
        (∀ id, ¬ Reconnects before id) ∧ (∀ id ∈ s.diagram.nodes.ids, '_' ∉ id.toList) →
      s₁.diagram.edges.values.map Diagram.Edge.ends = s.requestLayout.1.request.edges) := by
  have hreach : Reachable configuration s := Reachable.start.afterAll hbefore
  have hrequested : Reachable configuration s.requestLayout.2 := .call .layoutRequested hreach rfl
  have hreach' := hrequested.afterAll hcalls
  obtain ⟨hstale, positions, rfl⟩ := exists_placed_of_applied happlied
  have hsame : s'.diagram.HasIdsOf s.diagram := by
    by_contra hother
    rw [(hreach.isStale_ticket_iff hcalls).2 (Or.inr hother)] at hstale
    exact nomatch hstale
  have hids : s'.diagram.edges.ids = s.diagram.edges.ids :=
    hreach'.edges_inOrder.ids_eq hreach.edges_inOrder hsame.edges
  refine ⟨?_, hids, fun id ends ends' => ends_cases hbefore hcalls, ?_⟩
  · rw [Diagram.placed_nodes_ids, map_fst_request_nodes]
    exact (List.perm_ext_iff_of_nodup s'.diagram.nodes.nodup_ids s.diagram.nodes.nodup_ids).2
      hsame.nodes
  · intro hcalm htext
    refine Catalog.map_values_congr hids ?_
    intro id hid
    obtain ⟨e', he'⟩ := Catalog.mem_ids_iff.1 hid
    obtain ⟨e, he⟩ := Catalog.mem_ids_iff.1 (hids ▸ hid)
    have hends := ends_eq_of_calm hbefore hcalls (fun id => (hsame.nodes id).1) hcalm htext he he'
    exact (congrArg (Option.map _) he').trans
      ((congrArg some hends).trans (congrArg (Option.map _) he).symm)

/-- A node is moved and the text gets a comment while a layout is under way: the loop of the text is
the loop of the request. -/
theorem ends_of_applied_after_comment :
    ∃ s s' s₁, (start {}).afterAll? [.textChanged "A > A"] = some s ∧
      s.requestLayout.2.afterAll?
        [.diagramChanged (.moved "A" ⟨1, 2⟩) .diagram, .textChanged "A > A\n// note"] = some s' ∧
      s'.completeLayout s.requestLayout.1.ticket (.ok (.ofList [("A", ⟨5, 7⟩)])) = (.applied, s₁) ∧
      s₁.diagram.edges.values.map Diagram.Edge.ends = s.requestLayout.1.request.edges ∧
      s.requestLayout.1.request.edges = [("A", "A")] := by
  let before : List Call := [.textChanged "A > A"]
  let calls : List Call :=
    [.diagramChanged (.moved "A" ⟨1, 2⟩) .diagram, .textChanged "A > A\n// note"]
  let answer : ServiceResult := .ok (.ofList [("A", ⟨5, 7⟩)])
  have hany : ((start {}).afterAll? before).any (fun s =>
      (s.requestLayout.2.afterAll? calls).any fun s' =>
        decide ((s'.completeLayout s.requestLayout.1.ticket answer).1 = .applied ∧
          s.diagram.nodes.ids = ["A"] ∧ s.requestLayout.1.request.edges = [("A", "A")])) =
        true := by
    decide +kernel
  obtain ⟨s, hbefore, hany⟩ := (Option.any_eq_true _ _).1 hany
  obtain ⟨s', hcalls, hany⟩ := (Option.any_eq_true _ _).1 hany
  obtain ⟨happlied, hnodes, hedges⟩ := of_decide_eq_true hany
  obtain ⟨-, -, -, hends⟩ := ends_of_applied hbefore hcalls (Prod.ext happlied rfl)
  refine ⟨s, s', _, hbefore, hcalls, Prod.ext happlied rfl, hends ?_ (Or.inr ⟨?_, ?_⟩), hedges⟩
  · rintro id ⟨source, target, hmem⟩
    simp [calls] at hmem
  · rintro id ⟨source, target, hmem⟩
    simp [before] at hmem
  · simp [hnodes]

/-- A loop is reconnected to another node while a layout is under way, and the answer for the loop
is applied. -/
theorem ends_of_applied_after_reconnection :
    ∃ s s' s₁, (start {}).afterAll?
        [.textChanged "A > A", .diagramChanged (.nodeAdded ⟨300, 0⟩) .diagram] = some s ∧
      s.requestLayout.2.afterAll?
        [.diagramChanged (.reconnected "edge_A_A_0" "A" "node_1") .diagram] = some s' ∧
      s'.completeLayout s.requestLayout.1.ticket (.ok (.ofList [("A", ⟨5, 7⟩)])) = (.applied, s₁) ∧
      s.requestLayout.1.request.edges = [("A", "A")] ∧
      s₁.diagram.edges.values.map Diagram.Edge.ends = [("A", "node_1")] := by
  let before : List Call :=
    [.textChanged "A > A", .diagramChanged (.nodeAdded ⟨300, 0⟩) .diagram]
  let calls : List Call := [.diagramChanged (.reconnected "edge_A_A_0" "A" "node_1") .diagram]
  have hany : ((start {}).afterAll? before).any (fun s =>
      (s.requestLayout.2.afterAll? calls).any fun s' =>
        decide (s'.diagram.nodes.ids = s.diagram.nodes.ids ∧
          s'.diagram.edges.ids = s.diagram.edges.ids ∧
          s.requestLayout.1.request.edges = [("A", "A")] ∧
          s'.diagram.edges.values.map Diagram.Edge.ends = [("A", "node_1")])) = true := by
    decide +kernel
  obtain ⟨s, hbefore, hany⟩ := (Option.any_eq_true _ _).1 hany
  obtain ⟨s', hcalls, hany⟩ := (Option.any_eq_true _ _).1 hany
  obtain ⟨hnodes, hedges, hrequest, hends⟩ := of_decide_eq_true hany
  -- the ids are the same, so the answer is in time
  have hreach : Reachable {} s := Reachable.start.afterAll hbefore
  have hstale : s'.isStale s.requestLayout.1.ticket = false := by
    rw [Bool.eq_false_iff, Ne, hreach.isStale_ticket_iff hcalls]
    rintro (hrequested | hother)
    · simp [calls] at hrequested
    · exact hother ⟨fun _ => by rw [hnodes], fun _ => by rw [hedges]⟩
  exact ⟨s, s', _, hbefore, hcalls, completeLayout_ok hstale _, hrequest, hends⟩

end Session

end TextDiagram
