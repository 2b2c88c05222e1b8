/-
**What a session has read.**

The source map of a session is that of the text that was read last.  The text of the session may
have become longer since, as lines for what was drawn are added to it without reading it again; but
it has all lines of the text that was read, at their places.  And what comes from a line, in the
diagram, is in the document of the text that was read.

So the source map can be asked about the text that is there now.

Main definitions:

* `TextDiagram.Session.HasRead` — the text and the document that a session has read last.

Main results:

* `TextDiagram.Session.Reachable.text_onDiagram` — what an event does to the text;
* `TextDiagram.Session.Reachable.exists_hasRead` — **every session has read a text**;
* `TextDiagram.Session.Reachable.entries_inStep` — **the text and the source map stay in step**.
-/

import TextDiagram.Proofs.Document.Description
import TextDiagram.Proofs.Session.Connection

set_option relaxedAutoImplicit false
set_option autoImplicit false

namespace TextDiagram

open Text

/-! ### Kinds of statements -/

/-- The kind of what a statement makes. -/
def Statement.kind : Statement → EntityKind
  | directive x => Draft.entityKind x
  | edge _ => .edge
  | node _ => .node

theorem Statement.kind_entity (names : List Id) (line : Nat) (s : Statement) :
    (s.entity names line).kind = s.kind := by
  cases s <;> rfl

/-! ### Edits -/

theorem Diagram.EditsTo.isPatchOf {d d' : Diagram Float32} {event : DiagramEvent}
    (hd : d.IsClosed) (h : d.EditsTo event d') : d'.IsPatchOf d := by
  cases h with
  | moved h => exact (hd.moved h).2
  | measured h => exact (hd.measured h).2
  | reconnected h => exact (hd.reconnected h).2

namespace Session

variable {s s' : Session} {counter : IdCounter} {d : Diagram Float32} {line : String}

/-- The line of a drawing is a single one. -/
theorem DrawsTo.notMem (hnamed : s.diagram.IsNamed) (h : s.DrawsTo counter d line) :
    '\n' ∉ line.toList := by
  cases h with
  | addition x n hkind hposition horigin hlabel =>
      have hname := x.kind.standsAlone_word.isName.countedName (s.allotted x).1.number
      exact notMem_declarationLine (hlabel ▸ hname) n.isGroup
  | arrow ha hb hd =>
      exact notMem_arrowLine (hnamed _ (Diagram.mem_labels_of_get? ha))
        (hnamed _ (Diagram.mem_labels_of_get? hb))

/-- What is drawn comes from no line. -/
theorem DrawsTo.isReadFrom {document : Document} (h : s.diagram.IsReadFrom document)
    (hdraws : s.DrawsTo counter d line) : d.IsReadFrom document := by
  cases hdraws with
  | addition x n hkind hposition horigin hlabel => exact h.withNode _ horigin
  | arrow ha hb hd => exact h.withEdge rfl hd

/-- The text after a drawing is what it was, or it has one line more. -/
theorem WritesLine.text_eq {effects : List Effect} {text : String} {echo : Option String}
    (h : s.WritesLine line effects text echo) :
    text = s.text ∨ s.configuration.regenerateText = true ∧ text = withLine s.text line := by
  cases h with
  | regenerated hregenerate => exact Or.inr ⟨hregenerate, rfl⟩
  | dropped => exact Or.inl rfl

/-- **What an event does to the text.**  It leaves the text alone, or it adds a line, and that only
if lines are to be added. -/
theorem Reachable.text_onDiagram {configuration : Configuration} (h : Reachable configuration s)
    (event : DiagramEvent) (origin : Provenance) :
    (s.onDiagram event origin).2.text = s.text ∨
      s.configuration.regenerateText = true ∧ ∃ line, '\n' ∉ line.toList ∧
        (s.onDiagram event origin).2.text = withLine s.text line := by
  rcases onDiagram_cases h.coherent.idle event origin with
    ⟨_, heq, -⟩ | ⟨_, _, _, -, heq, -⟩ | ⟨_, _, line, _, text, _, hdraws, hwrites, -, heq⟩
  · exact Or.inl (by rw [heq])
  · exact Or.inl (by rw [heq])
  · rw [heq]
    refine hwrites.text_eq.imp_right ?_
    rintro ⟨hregenerate, htext⟩
    exact ⟨hregenerate, line, hdraws.notMem h.isNamed, htext⟩

/-! ### What was read -/

/-- The text that a session has read last, and the document of it: the source map is that of the
document, the lines of the text are still there, and the diagram has nothing else from lines. -/
structure HasRead (s : Session) (read : String) (document : Document) : Prop where
  /-- The document is that of the text. -/
  ofText : Document.ofText read = .ok document
  /-- The source map is that of the document. -/
  sourceMap : s.sourceMap = document.sourceMap
  /-- The lines that were read are still there. -/
  lines : HasLinesOf s.text read
  /-- What comes from lines is in the document. -/
  diagram : s.diagram.IsReadFrom document

section HasRead

variable {configuration : Configuration} {read : String} {document : Document}

theorem hasRead_start (configuration : Configuration) : (start configuration).HasRead "" {} where
  ofText := rfl
  sourceMap := rfl
  lines := .refl ""
  diagram := ⟨(fun _ _ h => nomatch h), (fun _ _ h => nomatch h)⟩

/-- A change of the text is read, unless it is the echo that is awaited. -/
theorem HasRead.onText? (h : s.HasRead read document) (hcoherent : s.IsCoherent) {text : String}
    {report : Report} (hs : s.onText? text = some (report, s')) :
    ∃ read document, s'.HasRead read document := by
  rcases onText?_cases hcoherent.idle hs with ⟨-, -, rfl⟩ | ⟨-, document', d, hdocument, hd, -, rfl⟩
  · exact ⟨read, document, h.ofText, h.sourceMap, h.lines, h.diagram⟩
  · have hsound := Document.isSound_of_ofText hdocument
    have hpatch := (isSound_placedAnew (Diagram.isClosed_ofDocument _ hsound) hd).2
    exact ⟨text, document', hdocument, rfl, .refl text,
      (Diagram.isReadFrom_ofDocument _ hsound).of_isPatchOf hpatch⟩

/-- No event is read. -/
theorem HasRead.onDiagram (h : s.HasRead read document) (hreach : Reachable configuration s)
    (event : DiagramEvent) (origin : Provenance) :
    (s.onDiagram event origin).2.HasRead read document := by
  have hlines : HasLinesOf (s.onDiagram event origin).2.text read := by
    rcases hreach.text_onDiagram event origin with htext | ⟨-, line, hline, htext⟩
    · rw [htext]
      exact h.lines
    · rw [htext]
      exact (hasLinesOf_withLine s.text hline).trans h.lines
  rcases onDiagram_cases hreach.coherent.idle event origin with
    ⟨_, heq, -⟩ | ⟨d, _, _, hedits, heq, -⟩ | ⟨_, d, _, _, _, _, hdraws, -, -, heq⟩
  · rw [heq]
    exact h
  · have hpatch := hedits.isPatchOf hreach.coherent.sound.toIsClosed
    rw [heq] at hlines ⊢
    exact ⟨h.ofText, h.sourceMap, hlines, h.diagram.of_isPatchOf hpatch⟩
  · rw [heq] at hlines ⊢
    exact ⟨h.ofText, h.sourceMap, hlines, hdraws.isReadFrom h.diagram⟩

/-- No layout is read. -/
theorem HasRead.completeLayout (h : s.HasRead read document) (hcoherent : s.IsCoherent)
    (ticket : Ticket) (result : ServiceResult) :
    (s.completeLayout ticket result).2.HasRead read document := by
  rcases s.completeLayout_cases ticket result with heq | ⟨positions, heq⟩
  · rwa [heq]
  · have hpatch := (hcoherent.sound.placed positions).2
    rw [heq]
    exact ⟨h.ofText, h.sourceMap, h.lines, h.diagram.of_isPatchOf hpatch⟩

/-- **Every session has read a text**, the empty one at the start. -/
theorem Reachable.exists_hasRead (h : Reachable configuration s) :
    ∃ read document, s.HasRead read document := by
  induction h with
  | start => exact ⟨"", {}, hasRead_start configuration⟩
  | call call hreach hs ih =>
      obtain ⟨read, document, hread⟩ := ih
      cases call with
      | textChanged text =>
          obtain ⟨⟨report, s₁⟩, hs₁, rfl⟩ := Option.map_eq_some_iff.1 hs
          exact hread.onText? hreach.coherent hs₁
      | diagramChanged event origin =>
          obtain rfl := Option.some.inj hs
          exact ⟨read, document, hread.onDiagram hreach event origin⟩
      | cursorMoved line =>
          obtain rfl := Option.some.inj hs
          exact ⟨read, document, hread⟩
      | layoutRequested =>
          obtain rfl := Option.some.inj hs
          exact ⟨read, document, hread.ofText, hread.sourceMap, hread.lines, hread.diagram⟩
      | layoutCompleted ticket result =>
          obtain rfl := Option.some.inj hs
          exact ⟨read, document, hread.completeLayout hreach.coherent ticket result⟩

/-- The line of an entry is there, and says what the entry tells. -/
theorem HasRead.exists_line (h : s.HasRead read document) {number : Nat} {e : Entity}
    (he : (number, e) ∈ s.sourceMap.entries) :
    ∃ line statement, (Text.lines s.text)[number]? = some line ∧
      Statement.ofLine? line = some statement ∧ statement.kind = e.kind ∧
      (e.kind = .node → statement.declares e.id = true) := by
  rw [h.sourceMap] at he
  obtain ⟨before, statement, hbefore, -, rfl⟩ :=
    ((Document.isDescribedBy_of_ofText h.ofText).entries number e).1 he
  have hmem : (number, statement) ∈ statements read := hbefore.subset (by simp)
  obtain ⟨line, hline, hsays⟩ := mem_statements_iff.1 hmem
  have hne : line ≠ "" := by
    rintro rfl
    exact nomatch hsays
  refine ⟨line, statement, h.lines number line hline hne, hsays,
    (Statement.kind_entity _ _ _).symm, ?_⟩
  intro hkind
  exact Statement.declares_of_entity_eq (congrArg (Entity.mk · _) hkind)

end HasRead

/-! ### In step -/

/-- **The text and the source map stay in step.**  After a change of the text, the text is the new
one, whether or not it was an echo.  An event changes the text only if lines are to be added, and
then by one line after those that are written.  And the line of every entry of the source map is
there and says what the entry tells: for a node, it declares the node. -/
theorem Reachable.entries_inStep {configuration : Configuration} (h : Reachable configuration s) :
    (∀ text report s', s.onText? text = some (report, s') → s'.text = text) ∧
    (∀ event origin, (s.onDiagram event origin).2.text = s.text ∨
      s.configuration.regenerateText = true ∧ ∃ line,
        lines (s.onDiagram event origin).2.text = writtenLines s.text ++ [line]) ∧
    ∀ number e, (number, e) ∈ s.sourceMap.entries →
      ∃ line statement, (lines s.text)[number]? = some line ∧
        Statement.ofLine? line = some statement ∧ statement.kind = e.kind ∧
        (e.kind = .node → statement.declares e.id = true) := by
  refine ⟨?_, ?_, ?_⟩
  · intro text report s' hs
    exact (h.coherent.text_of_onText? hs).1
  · intro event origin
    refine (h.text_onDiagram event origin).imp_right ?_
    rintro ⟨hregenerate, line, hline, htext⟩
    exact ⟨hregenerate, line, by rw [htext, lines_withLine s.text hline]⟩
  · intro number e he
    obtain ⟨read, document, hread⟩ := h.exists_hasRead
    exact hread.exists_line he

/-- A node is added to a text that ends in a line feed: the node of the text still has its line. -/
theorem entries_inStep_after_addition :
    ∃ s line statement, Reachable { regenerateText := true } s ∧ s.text = "A\nAsset 1" ∧
      (0, ⟨.node, "A"⟩) ∈ s.sourceMap.entries ∧ (lines s.text)[0]? = some line ∧
      Statement.ofLine? line = some statement ∧ statement.declares "A" = true := by
  have h : Reachable { regenerateText := true } _ := Reachable.start.getD (.textChanged "A\n")
  have h := h.getD (.diagramChanged (.nodeAdded ⟨0, 0⟩) .diagram)
  obtain ⟨-, -, hentries⟩ := h.entries_inStep
  obtain ⟨line, statement, hline, hsays, -, hdeclares⟩ :=
    hentries 0 ⟨.node, "A"⟩ (by decide +kernel)
  exact ⟨_, line, statement, h, by decide +kernel, by decide +kernel, hline, hsays, hdeclares rfl⟩

end Session

end TextDiagram
