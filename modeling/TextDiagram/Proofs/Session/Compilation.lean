/-
**A session shows what compiling makes.**

A text can be compiled to a diagram in one go, or given to a new session.  The first merges the
answer of the layout service with the positions of the grid and places the nodes once.  The second
places the nodes on the grid and shows them there, and then merges the answer with what is shown.
Both come to the same diagram, whatever the service answers, and whether or not the text has any
nodes: a new session without nodes is placed by what it shows already, which is nothing.

Main definitions:

* `TextDiagram.Session.opened?` — a new session with a text, and with a layout if one is needed.

Main results:

* `TextDiagram.Session.placedAnew?_start_eq` — a new session puts every diagram on the grid;
* `TextDiagram.Session.runLayout_diagram` — what a layout on the spot does to the diagram;
* `TextDiagram.Session.exists_opened_diagram_eq` — **a session shows what compiling makes**.
-/

import TextDiagram.Compilation
import TextDiagram.Proofs.Diagram.Identity
import TextDiagram.Proofs.Diagram.Placement
import TextDiagram.Proofs.Session.Run

set_option relaxedAutoImplicit false
set_option autoImplicit false

namespace TextDiagram

/-! ### Compiling -/

/-- What compiling makes of a diagram that is not placed yet. -/
theorem Configuration.layOut?_eq_some {c : Configuration} {service : LayoutService}
    {document : Document} {d : Diagram Float32}
    (h : c.layOut? service document = some (.ok d)) :
    ∃ positions, c.placing.positions? service (Diagram.ofDocument c.style document) =
        some positions ∧
      (∀ id ∈ (Diagram.ofDocument c.style document).nodes.ids, id ∈ positions.ids) ∧
      d = (Diagram.ofDocument c.style document).placed positions := by
  obtain ⟨positions, hpositions, hsettle⟩ := Option.map_eq_some_iff.1 h
  refine ⟨positions, hpositions, ?_⟩
  rw [settle] at hsettle
  cases hplaceless : placelessNode? (Diagram.ofDocument c.style document) positions with
  | some id => rw [hplaceless] at hsettle; exact nomatch hsettle
  | none =>
      rw [hplaceless] at hsettle
      refine ⟨?_, (Except.ok.inj hsettle).symm⟩
      intro id hid
      have hplace := placelessNode?_eq_none_iff.1 hplaceless id hid
      obtain ⟨p, hp, -⟩ := (Option.any_eq_true _ _).1 hplace
      exact Catalog.mem_ids_iff.2 ⟨p, hp⟩

namespace Session

variable {s : Session} {c : Configuration}

/-! ### A new session with a text -/

/-- A text that is not awaited makes the diagram anew, if that has a placement. -/
theorem onText?_of_placedAnew? (hphase : s.phase = .idle) {text : String}
    (hecho : s.echo ≠ some text) {document : Document}
    (hdocument : Document.ofText text = .ok document) {d : Diagram Float32}
    (hd : s.placedAnew? (Diagram.ofDocument s.configuration.style document) = some d) :
    ∃ report, s.onText? text = some (report, { s with
      phase := .idle, lastOrigin := some .text, text, diagram := d, echo := none
      identity := (Diagram.ofDocument s.configuration.style document).identity
      sourceMap := document.sourceMap }) := by
  have hanew : placedAnew? { s with echo := none, text, phase := .applyingText }
      (Diagram.ofDocument s.configuration.style document) = some d := hd
  rw [onText?, if_neg (not_not.2 hphase), if_neg hecho, applyText?, hdocument]
  simp only [hanew, Option.map_some]
  exact ⟨_, rfl⟩

/-- A diagram without nodes is the same wherever its nodes are placed. -/
theorem inheriting_eq_placed {d : Diagram Float32} (h : d.nodes.ids = [])
    (previous : Diagram Float32) (positions : Catalog (Point Float32)) :
    d.inheriting previous = d.placed positions := by
  have hentries : d.nodes.entries = [] := List.map_eq_nil_iff.1 h
  rw [Diagram.inheriting, Diagram.placed]
  congr 2
  refine Catalog.map_congr ?_
  intro id n hmem
  rw [hentries] at hmem
  exact absurd hmem List.not_mem_nil

/-- A diagram without nodes can always be put on the grid. -/
theorem exists_onGrid?_of_ids_eq_nil (p : Placing) {d : Diagram Float32} (h : d.nodes.ids = []) :
    ∃ positions, p.onGrid? d = some positions := by
  have hentries : d.nodes.entries = [] := List.map_eq_nil_iff.1 h
  rw [Placing.onGrid?, Grid.nodesOf, hentries]
  exact ⟨_, rfl⟩

/-- A new session puts every diagram on the grid, if that has an answer. -/
theorem placedAnew?_start_eq (c : Configuration) (fresh : Diagram Float32) :
    (start c).placedAnew? fresh = (c.placing.onGrid? fresh).map fresh.placed := by
  rw [placedAnew?]
  split
  · next hidentity =>
      -- the identity is that of the empty diagram, so there are no nodes to place
      have hids : fresh.HasIdsOf {} := Diagram.identity_eq_iff.1 hidentity
      have hnil : fresh.nodes.ids = [] :=
        List.eq_nil_iff_forall_not_mem.2 fun id hid => List.not_mem_nil ((hids.nodes id).1 hid)
      obtain ⟨base, hbase⟩ := exists_onGrid?_of_ids_eq_nil c.placing hnil
      rw [hbase, Option.map_some, inheriting_eq_placed hnil _ base]
  · rfl

/-- A new session shows a text on the grid. -/
theorem placedAnew?_start {fresh : Diagram Float32} {base : Catalog (Point Float32)}
    (hbase : c.placing.onGrid? fresh = some base) :
    (start c).placedAnew? fresh = some (fresh.placed base) := by
  rw [placedAnew?_start_eq, hbase, Option.map_some]

/-! ### A layout on the spot -/

/-- Places play no part in a request. -/
theorem ofDiagram_placed (spacing : LayerSpacing) (d : Diagram Float32)
    (positions : Catalog (Point Float32)) :
    LayoutRequest.ofDiagram spacing (d.placed positions) = LayoutRequest.ofDiagram spacing d := by
  have hsize : ∀ (n : Diagram.Node Float32) (p : Option (Point Float32)),
      (n.placedBy p).size = n.size := by
    intro n position
    obtain ⟨p, hp⟩ := n.exists_placedBy_eq position
    rw [hp]
  simp only [LayoutRequest.ofDiagram, Diagram.placed, Diagram.rerouted, Catalog.map, List.map_map,
    Function.comp_def, hsize]

/-- The answer of a layout on the spot is in time. -/
theorem runLayout_diagram (s : Session) (service : LayoutService) :
    (s.runLayout service).2.diagram =
      match service (LayoutRequest.ofDiagram s.configuration.placing.layered s.diagram) with
      | .error _ => s.diagram
      | .ok placed => s.diagram.placed (merged s.diagram.positions (.ok placed)) := by
  have hstale : s.requestLayout.2.isStale s.requestLayout.1.ticket = false := by
    simp [isStale, requestLayout]
  have hrun : s.runLayout service = s.requestLayout.2.completeLayout s.requestLayout.1.ticket
      (service (LayoutRequest.ofDiagram s.configuration.placing.layered s.diagram)) := rfl
  rw [hrun]
  cases service (LayoutRequest.ofDiagram s.configuration.placing.layered s.diagram) with
  | error error => rw [completeLayout_error hstale]; rfl
  | ok placed => rw [completeLayout_ok hstale]; rfl

/-- A new session that is given a text, and that asks for a layout where it should. -/
def opened? (c : Configuration) (service : LayoutService) (text : String) : Option Session :=
  ((start c).onText? text).map fun (_, s) =>
    match c.placing.engine with
    | .grid => s
    | .layered => (s.runLayout service).2

/-- A layout on the spot makes of a diagram on the grid what its answer makes of the grid. -/
theorem runLayout_diagram_of_placed {service : LayoutService} {fresh : Diagram Float32}
    {base : Catalog (Point Float32)} (hdiagram : s.diagram = fresh.placed base)
    (hknown : ∀ id ∈ fresh.nodes.ids, id ∈ base.ids) :
    (s.runLayout service).2.diagram = fresh.placed (merged base
      (service (LayoutRequest.ofDiagram s.configuration.placing.layered fresh))) := by
  rw [runLayout_diagram, hdiagram, ofDiagram_placed]
  cases service (LayoutRequest.ofDiagram s.configuration.placing.layered fresh) with
  | error error => rfl
  | ok placed => exact Diagram.placed_placed_merged hknown placed

/-- **A session shows what compiling makes**, whatever the layout service answers: the same nodes at
the same places and of the same sizes, the same edges and routes, and the same settings. -/
theorem exists_opened_diagram_eq {service : LayoutService} {text : String} {document : Document}
    {d : Diagram Float32} (hread : Configuration.read text = .ok document)
    (hd : c.layOut? service document = some (.ok d)) :
    ∃ s, opened? c service text = some s ∧ s.diagram = d := by
  have hdocument : Document.ofText text = .ok document := by
    rw [Configuration.read] at hread
    split at hread
    · next hdocument => rw [hdocument, Except.ok.inj hread]
    · exact nomatch hread
  obtain ⟨positions, hpositions, hknown, rfl⟩ := Configuration.layOut?_eq_some hd
  obtain ⟨base, hbase, rfl⟩ := Option.map_eq_some_iff.1 hpositions
  have hecho : (start c).echo ≠ some text := Option.some_ne_none text ∘ Eq.symm
  obtain ⟨report, hs⟩ := onText?_of_placedAnew? (s := start c) rfl hecho hdocument
    (placedAnew?_start hbase)
  refine ⟨_, by rw [opened?, hs, Option.map_some], ?_⟩
  cases hengine : c.placing.engine with
  | grid => rfl
  | layered =>
      refine runLayout_diagram_of_placed rfl ?_
      intro id hid
      simpa only [hengine, merged_ids] using hknown id hid

/-- The service knows a place for `A`, a place that is not finite for `B`, and a place for `C`,
which is not in the text. -/
theorem exists_opened_diagram_eq_of_partial_answer :
    let c : Configuration := { placing := { engine := .layered } }
    let service : LayoutService := fun _ =>
      .ok (.ofList [("A", ⟨5, 7⟩), ("B", ⟨1 / 0, 0⟩), ("C", ⟨9, 9⟩)])
    ∃ document d s, Configuration.read "A > B" = .ok document ∧
      c.layOut? service document = some (.ok d) ∧
      opened? c service "A > B" = some s ∧ s.diagram = d := by
  intro c service
  have hany : (Configuration.read "A > B").toOption.any (fun document =>
      (c.layOut? service document).any fun result => result.isOk) = true := by
    decide +kernel
  obtain ⟨document, hread, hany⟩ := (Option.any_eq_true _ _).1 hany
  obtain ⟨result, hd, hok⟩ := (Option.any_eq_true _ _).1 hany
  cases hdocument : Configuration.read "A > B" with
  | error problem => rw [hdocument] at hread; exact nomatch hread
  | ok document' =>
      rw [hdocument] at hread
      obtain rfl := Option.some.inj hread
      cases result with
      | error problem => exact nomatch hok
      | ok d =>
          obtain ⟨s, hs, hsame⟩ := exists_opened_diagram_eq hdocument hd
          exact ⟨document', d, s, rfl, hd, hs, hsame⟩

end Session

end TextDiagram
