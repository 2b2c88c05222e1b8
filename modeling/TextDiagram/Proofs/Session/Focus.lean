/-
**Lines and entities point at each other.**

There are three ways between the lines of a session and its nodes and edges: the cursor on a line
focuses what the line made, the selection of a node or an edge highlights its line, and the line of
an id can be asked for without saying what the id is of.  All three agree.  The first two do so as
the source map is one to one.  The third one asks the diagram first whether the id was drawn; if it
was not, the id is that of nothing else that has a line, as the ids of a document are distinct.

Main definitions:

* `TextDiagram.Diagram.Shows` — a diagram has a node or an edge of an origin;
* `TextDiagram.Entity.selection?` — the event of selecting a node or an edge.

Main results:

* `TextDiagram.Session.Reachable.lineFor_eq` — the line of what a diagram shows is the one that the
  source map tells;
* `TextDiagram.Session.Reachable.focus_and_selection` — **lines and entities point at each other**.
-/

import TextDiagram.Proofs.Session.Reading

set_option relaxedAutoImplicit false
set_option autoImplicit false

namespace TextDiagram

/-! ### What a diagram shows -/

/-- A diagram shows a node or an edge that comes from somewhere. -/
inductive Diagram.Shows (d : Diagram Float32) : Entity → Origin → Prop
  | node {id : Id} {origin : Origin} : d.nodeOrigin? id = some origin → Shows d ⟨.node, id⟩ origin
  | edge {id : Id} {origin : Origin} : d.edgeOrigin? id = some origin → Shows d ⟨.edge, id⟩ origin

/-- The event of selecting a node or an edge. -/
def Entity.selection? : Entity → Option DiagramEvent
  | ⟨.node, id⟩ => some (.nodeSelected id)
  | ⟨.edge, id⟩ => some (.edgeSelected id)
  | ⟨.direction, _⟩ | ⟨.style, _⟩ => none

/-- What a source map relates to a line is shown, if it can be selected, and comes from a line. -/
theorem Diagram.IsMappedBy.exists_shows {d : Diagram Float32} {map : SourceMap}
    (h : d.IsMappedBy map) {line : Nat} {e : Entity} (he : (line, e) ∈ map.entries)
    (hselection : e.selection? ≠ none) : ∃ l, d.Shows e (.line l) := by
  obtain ⟨kind, id⟩ := e
  cases kind with
  | node => exact (h.node line id he).imp fun _ => .node
  | edge => exact (h.edge line id he).imp fun _ => .edge
  | direction => exact absurd rfl hselection
  | style => exact absurd rfl hselection

/-- What was drawn has no line. -/
theorem Diagram.IsMappedBy.lineOf?_eq_none {d : Diagram Float32} {map : SourceMap}
    (h : d.IsMappedBy map) {e : Entity} (he : d.Shows e .diagram) : map.lineOf? e = none := by
  rw [SourceMap.lineOf?_eq_none_iff]
  intro line hentry
  cases he with
  | node hnode =>
      obtain ⟨l, hl⟩ := h.node line _ hentry
      exact nomatch hnode.symm.trans hl
  | edge hedge =>
      obtain ⟨l, hl⟩ := h.edge line _ hentry
      exact nomatch hedge.symm.trans hl

namespace Session

variable {s : Session} {e : Entity} {o : Origin}

/-- The origin of an id is that of the node or the edge that is shown. -/
theorem originOf?_of_shows (h : s.diagram.IsClosed) (he : s.diagram.Shows e o) :
    s.originOf? e.id = some o := by
  cases he with
  | node hnode =>
      have hsome : (s.diagram.nodes.get? _).map Diagram.Node.origin = _ := hnode
      rw [originOf?, hsome]
      rfl
  | @edge id _ hedge =>
      -- no node has the id of an edge
      have hnode : s.diagram.nodes.get? id = none := by
        cases hnode : s.diagram.nodes.get? id with
        | none => rfl
        | some n =>
            exact absurd (Diagram.mem_edges_of_edgeOrigin? hedge)
              (h.apart id (Catalog.mem_ids_iff.2 ⟨n, hnode⟩))
      rw [originOf?, hnode]
      exact hedge

section HasRead

variable {read : String} {document : Document}

/-- What is shown and comes from a line shares its id with nothing else that has a line. -/
theorem HasRead.entity_eq_of_shows (h : s.HasRead read document) {l : Nat}
    (he : s.diagram.Shows e (.line l)) {line : Nat} {other : Entity}
    (hother : (line, other) ∈ s.sourceMap.entries) (hid : other.id = e.id) : other = e := by
  have hsound := Document.isSound_of_ofText h.ofText
  rw [h.sourceMap] at hother
  cases he with
  | node hnode =>
      -- only a node can have the id of a node
      have hmem := h.diagram.node _ _ hnode
      obtain ⟨kind, id⟩ := other
      obtain rfl : id = _ := hid
      by_cases hkind : kind = .node
      · rw [hkind]
      · exact absurd hmem (hsound.node_ne_generated hother hkind)
  | edge hedge =>
      obtain ⟨edge, hmem, rfl⟩ := List.mem_map.1 (h.diagram.edge _ _ hedge)
      obtain ⟨line', -, hentry⟩ := hsound.edges_onLine edge hmem
      exact hsound.entity_eq_of_id_eq hother hentry hid

/-- The source map of a session is one to one. -/
theorem HasRead.isBijection (h : s.HasRead read document) : s.sourceMap.IsBijection := by
  rw [h.sourceMap]
  exact (Document.isSound_of_ofText h.ofText).bijection

/-- The number of a line that is related to something is less than the length of the text. -/
theorem HasRead.line_le_length (h : s.HasRead read document) {line : Nat}
    (he : (line, e) ∈ s.sourceMap.entries) : line ≤ s.text.length := by
  obtain ⟨_, _, hline, -⟩ := h.exists_line he
  have hlt := (List.getElem?_eq_some_iff.1 hline).1
  have hle := Text.length_lines_le s.text
  omega

end HasRead

section Reachable

variable {configuration : Configuration}

/-- **The line of what a diagram shows** is the one that the source map tells, and -1 if it tells
none. -/
theorem Reachable.lineFor_eq (h : Reachable configuration s)
    (htext : s.text.length ≤ Origin.maxNumber) (he : s.diagram.Shows e o) :
    s.lineFor e.id = (s.sourceMap.lineOf? e).elim (-1) Int.ofNat := by
  have horigin := originOf?_of_shows h.coherent.sound.toIsClosed he
  cases o with
  | diagram =>
      rw [lineFor_of_isDrawn horigin, h.coherent.mapped.lineOf?_eq_none he, Option.elim_none]
  | line l =>
      obtain ⟨read, document, hread⟩ := h.exists_hasRead
      have hline := SourceMap.lineOfId?_eq_lineOf? fun _ _ hother hid =>
        hread.entity_eq_of_shows he hother hid
      rw [lineFor, horigin, if_neg (by simp), hline]
      cases hfound : s.sourceMap.lineOf? e with
      | none => rfl
      | some line =>
          have hle := hread.line_le_length (SourceMap.mem_of_lineOf? hfound)
          exact if_pos (Nat.le_trans hle htext)

/-- A selection is reported and changes nothing. -/
theorem onDiagram_of_selection (hphase : s.phase = .idle) {event : DiagramEvent}
    (hevent : e.selection? = some event) (origin : Provenance) :
    s.onDiagram event origin = (s.onSelection e, s) := by
  obtain ⟨kind, id⟩ := e
  cases kind with
  | node =>
      obtain rfl := Option.some.inj hevent
      exact if_neg (not_not.2 hphase)
  | edge =>
      obtain rfl := Option.some.inj hevent
      exact if_neg (not_not.2 hphase)
  | direction => exact nomatch hevent
  | style => exact nomatch hevent

theorem onSelection_of_lineOf? {line : Nat} (h : s.sourceMap.lineOf? e = some line) :
    s.onSelection e = ⟨none, [.lineHighlighted line]⟩ := by
  rw [onSelection, h]

theorem onSelection_of_lineOf?_eq_none (h : s.sourceMap.lineOf? e = none) :
    s.onSelection e = .ignored := by
  rw [onSelection, h]

/-- The line that is highlighted is the one that the source map tells. -/
theorem mem_effects_onSelection_iff {line : Nat} :
    .lineHighlighted line ∈ (s.onSelection e).effects ↔ s.sourceMap.lineOf? e = some line := by
  cases hline : s.sourceMap.lineOf? e with
  | none => simp [onSelection_of_lineOf?_eq_none hline, Report.ignored]
  | some line' => simp [onSelection_of_lineOf? hline, eq_comm]

/-- The entity that is focused is the one that the source map tells. -/
theorem mem_effects_onCursor_iff {line : Nat} :
    .entityFocused e ∈ (s.onCursor line).effects ↔ s.sourceMap.entityAt? line = some e := by
  rw [onCursor]
  cases s.sourceMap.entityAt? line with
  | none => simp [Report.ignored]
  | some e' => simp [eq_comm]

/-- **Lines and entities point at each other.**  If the cursor on a line focuses a node or an edge,
then it is shown, its selection highlights that very line, and its line is that one.  The selection
of a node or an edge that is shown highlights its line, if it has one, and otherwise its line is -1;
and what was drawn has no line.  The text may be as long as lines can be counted, and no text of a
host is longer than that. -/
theorem Reachable.focus_and_selection (h : Reachable configuration s)
    (htext : s.text.length ≤ Origin.maxNumber) {e : Entity} {event : DiagramEvent}
    (hevent : e.selection? = some event) (origin : Provenance) :
    (∀ line, .entityFocused e ∈ (s.onCursor line).effects →
      (∃ o, s.diagram.Shows e o) ∧
      s.onDiagram event origin = (⟨none, [.lineHighlighted line]⟩, s) ∧
      s.lineFor e.id = line) ∧
    ∀ o, s.diagram.Shows e o →
      (∀ line : Nat, .lineHighlighted line ∈ (s.onDiagram event origin).1.effects ↔
        s.lineFor e.id = line) ∧
      (o = .diagram → s.onDiagram event origin = (.ignored, s) ∧ s.lineFor e.id = -1) := by
  rw [onDiagram_of_selection h.coherent.idle hevent origin]
  refine ⟨?_, ?_⟩
  · intro line hfocus
    obtain ⟨read, document, hread⟩ := h.exists_hasRead
    have hentry := SourceMap.mem_of_entityAt? (mem_effects_onCursor_iff.1 hfocus)
    have hline := hread.isBijection.lineOf?_eq_some_iff.2 hentry
    obtain ⟨l, hshows⟩ := h.coherent.mapped.exists_shows hentry (by simp [hevent])
    refine ⟨⟨_, hshows⟩, by rw [onSelection_of_lineOf? hline], ?_⟩
    rw [h.lineFor_eq htext hshows, hline]
    rfl
  · intro o hshows
    refine ⟨?_, ?_⟩
    · intro line
      rw [mem_effects_onSelection_iff, h.lineFor_eq htext hshows]
      cases hline : s.sourceMap.lineOf? e with
      | none => simp
      | some line' =>
          rw [Option.some_inj]
          exact Int.natCast_inj.symm
    · rintro rfl
      have hline := h.coherent.mapped.lineOf?_eq_none hshows
      refine ⟨by rw [onSelection_of_lineOf?_eq_none hline], ?_⟩
      rw [h.lineFor_eq htext hshows, hline]
      rfl

/-- A loop of the text has a line, and a loop that is drawn beside it has none. -/
theorem focus_and_selection_of_loops :
    ∃ s, Reachable {} s ∧ s.diagram.edges.ids = ["edge_A_A_1", "A-A-1"] ∧
      s.onDiagram (.edgeSelected "edge_A_A_1") .diagram = (⟨none, [.lineHighlighted 1]⟩, s) ∧
      s.lineFor "edge_A_A_1" = 1 ∧
      s.onDiagram (.edgeSelected "A-A-1") .diagram = (.ignored, s) ∧ s.lineFor "A-A-1" = -1 := by
  have h : Reachable {} _ := Reachable.start.getD (.textChanged "A [icon: server]\nA > A")
  have h := h.getD (.diagramChanged (.connected "A" "A") .diagram)
  obtain ⟨hfocus, -⟩ :=
    h.focus_and_selection (e := ⟨.edge, "edge_A_A_1"⟩) (by decide +kernel) rfl .diagram
  obtain ⟨-, hdrawn⟩ :=
    h.focus_and_selection (e := ⟨.edge, "A-A-1"⟩) (by decide +kernel) rfl .diagram
  obtain ⟨-, hselect, hline⟩ := hfocus 1 (by decide +kernel)
  obtain ⟨hselect', hline'⟩ := (hdrawn .diagram (.edge (by decide +kernel))).2 rfl
  exact ⟨_, h, by decide +kernel, hselect, hline, hselect', hline'⟩

end Reachable

end Session

end TextDiagram
