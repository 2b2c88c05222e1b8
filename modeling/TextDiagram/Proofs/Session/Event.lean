/-
**What an event does to a session.**

There are three things that an event can do.  It can leave the session alone; it can edit what is
there, and then the diagram changes; or it can draw something, and then the diagram, the counter and
perhaps the text change.  Nothing else of a session is touched by any event.

Main definitions:

* `TextDiagram.Diagram.EditsTo` — the edits of what is there;
* `TextDiagram.Addition` — a node or a group that is added;
* `TextDiagram.Session.DrawsTo` — what can be drawn: the counter, the diagram and the line after
  that.

Main results:

* `TextDiagram.Session.applyEvent_cases` — the change that an event asks for;
* `TextDiagram.Session.onDiagram_cases` — **what an event does to a session**.
-/

import TextDiagram.Proofs.Identifier
import TextDiagram.Proofs.Session.Drawing
import TextDiagram.Proofs.Statement.Declaration

set_option relaxedAutoImplicit false
set_option autoImplicit false

namespace TextDiagram

open Diagram (Node Edge)

/-! ### Edits of what is there -/

/-- A diagram leads to another one by an edit of what is there, which an event asks for. -/
inductive Diagram.EditsTo (d : Diagram Float32) : DiagramEvent → Diagram Float32 → Prop
  | moved {id : Id} {position : Point Float32} {d' : Diagram Float32} :
      d.moved? id position = some d' → EditsTo d (.moved id position) d'
  | measured {id : Id} {size : Size Float32} {handles : List (Handle Float32)}
      {d' : Diagram Float32} :
      d.measured? id size handles = some d' → EditsTo d (.measured id size handles) d'
  | reconnected {id source target : Id} {d' : Diagram Float32} :
      d.reconnected? id source target = some d' → EditsTo d (.reconnected id source target) d'

/-! ### Additions -/

namespace NodeKind

/-- What the ids of added nodes start with. -/
def stem : NodeKind → String
  | default => "node"
  | group => "group"

/-- What the names of added nodes start with. -/
def word : NodeKind → String
  | default => "Asset"
  | group => "Group"

/-- The words of the names can stand alone on a line. -/
theorem standsAlone_word (kind : NodeKind) : StandsAlone kind.word := by
  cases kind <;> decide

end NodeKind

/-- A node or a group that is added at a place. -/
structure Addition where
  kind : NodeKind
  position : Point Float32

/-- An addition draws a node or a group. -/
def Addition.drawing (x : Addition) : Drawing :=
  match x.kind with
  | .default => .node x.position
  | .group => .group x.position

namespace Session

variable {s : Session}

/-! ### Drawings -/

/-- The id and the number that an added node gets, and the counter after that. -/
def allotted (s : Session) (x : Addition) : IdCounter.Numbered × IdCounter :=
  s.counter.allocate (Id.numbered x.kind.stem) s.diagram.ids

/-- The id and the number that a drawn arrow gets, and the counter after that. -/
def allottedArrow (s : Session) (source target : Id) : IdCounter.Numbered × IdCounter :=
  s.counter.allocate (Id.drawnEdge source target) s.diagram.ids

theorem allotted_id_notMem (s : Session) (x : Addition) : (s.allotted x).1.id ∉ s.diagram.ids :=
  IdCounter.allocate_id_notMem (Id.numbered_injective x.kind.stem)

/-- What can be drawn in a session: the counter and the diagram after that, and the line of it. -/
inductive DrawsTo (s : Session) : IdCounter → Diagram Float32 → String → Prop
  | addition (x : Addition) (n : Node Float32) :
      n.kind = x.kind → n.position = x.position → n.origin = .diagram →
      n.label = countedName x.kind.word (s.allotted x).1.number →
      DrawsTo s (s.allotted x).2 (s.diagram.withNode (s.allotted x).1.id n)
        (declarationLine n.label n.isGroup)
  | arrow {source target : Id} {a b : Node Float32} {d : Diagram Float32} :
      s.diagram.nodes.get? source = some a → s.diagram.nodes.get? target = some b →
      s.diagram.withEdge? (s.allottedArrow source target).1.id
        { source, target, kind := .arrow, origin := .diagram } = some d →
      DrawsTo s (s.allottedArrow source target).2 d
        (EdgeStatement.line { kind := .arrow, source := a.label, target := b.label })

/-- An addition draws a node that is labelled with a word and a number, and declares it. -/
theorem exists_applyEvent_addition (s : Session) (x : Addition) :
    ∃ n : Node Float32, n.kind = x.kind ∧ n.position = x.position ∧ n.origin = .diagram ∧
      n.label = countedName x.kind.word (s.allotted x).1.number ∧
      s.applyEvent x.drawing.event =
        drawnBy { s with counter := (s.allotted x).2 }
          (s.diagram.withNode (s.allotted x).1.id n) (declarationLine n.label n.isGroup) := by
  obtain ⟨kind, position⟩ := x
  cases kind with
  | default =>
      let label := s!"Asset {(s.allotted ⟨.default, position⟩).1.number}"
      exact ⟨{ kind := .default, position, label, color := some "blue", origin := .diagram
               size := nodeSize s.configuration.style label false false
                 s.diagram.appearance.typeface },
        rfl, rfl, rfl, by simp [label, countedName, NodeKind.word, toString], rfl⟩
  | group =>
      let label := s!"Group {(s.allotted ⟨.group, position⟩).1.number}"
      exact ⟨{ kind := .group, position, label, color := some "gray", origin := .diagram
               size := groupSize },
        rfl, rfl, rfl, by simp [label, countedName, NodeKind.word, toString], rfl⟩

/-- An arrow is drawn between nodes, and its line has their labels. -/
theorem exists_applyEvent_arrow {source target : Id} {a b : Node Float32}
    (ha : s.diagram.nodes.get? source = some a) (hb : s.diagram.nodes.get? target = some b) :
    ∃ d,
      s.diagram.withEdge? (s.allottedArrow source target).1.id
        { source, target, kind := .arrow, origin := .diagram } = some d ∧
      s.applyEvent (.connected source target) =
        drawnBy { s with counter := (s.allottedArrow source target).2 } d
          (EdgeStatement.line { kind := .arrow, source := a.label, target := b.label }) := by
  obtain ⟨d, hd, hconnect⟩ := connect_of_get? ha hb
  -- the echo plays no part here, so it may be the one that is awaited
  exact ⟨d, hd, hconnect s.echo⟩

/-! ### Events -/

theorem patchedBy_cases {event : DiagramEvent} {patch : Option (Diagram Float32)}
    (hpatch : ∀ d, patch = some d → s.diagram.EditsTo event d) :
    s.patchedBy patch = ([], s) ∨
      ∃ d, s.diagram.EditsTo event d ∧
        s.patchedBy patch = ([.patched], { s with diagram := d }) := by
  cases patch with
  | none => exact Or.inl rfl
  | some d => exact Or.inr ⟨d, hpatch d rfl, rfl⟩

/-- The change that an event asks for is none, an edit of what is there, or a drawing. -/
theorem applyEvent_cases (s : Session) (event : DiagramEvent) :
    (s.applyEvent event = ([], s) ∨
      ∃ d, s.diagram.EditsTo event d ∧
        s.applyEvent event = ([.patched], { s with diagram := d })) ∨
    ∃ counter d line, s.DrawsTo counter d line ∧
      s.applyEvent event = drawnBy { s with counter } d line := by
  have haddition : ∀ x : Addition, ∃ counter d line, s.DrawsTo counter d line ∧
      s.applyEvent x.drawing.event = drawnBy { s with counter } d line := by
    intro x
    obtain ⟨n, hkind, hposition, horigin, hlabel, happly⟩ := exists_applyEvent_addition s x
    exact ⟨_, _, _, .addition x n hkind hposition horigin hlabel, happly⟩
  cases event with
  | moved id position => exact Or.inl (patchedBy_cases fun d hd => .moved hd)
  | connected source target =>
      cases hjoins : s.diagram.joins source target with
      | false => exact Or.inl (Or.inl (connect_of_not_joins hjoins))
      | true =>
          obtain ⟨hsource, htarget⟩ := Bool.and_eq_true_iff.1 hjoins
          obtain ⟨a, ha⟩ := Option.isSome_iff_exists.1 hsource
          obtain ⟨b, hb⟩ := Option.isSome_iff_exists.1 htarget
          obtain ⟨d, hd, happly⟩ := exists_applyEvent_arrow ha hb
          exact Or.inr ⟨_, d, _, .arrow ha hb hd, happly⟩
  | reconnected id source target => exact Or.inl (patchedBy_cases fun d hd => .reconnected hd)
  | nodeAdded position => exact Or.inr (haddition ⟨.default, position⟩)
  | groupAdded position => exact Or.inr (haddition ⟨.group, position⟩)
  | measured id size handles => exact Or.inl (patchedBy_cases fun d hd => .measured hd)
  | nodeSelected id => exact Or.inl (Or.inl rfl)
  | edgeSelected id => exact Or.inl (Or.inl rfl)

/-- What becomes of the line of a drawing: the effects, the text, and the echo that is awaited. -/
inductive WritesLine (s : Session) (line : String) : List Effect → String → Option String → Prop
  | regenerated : s.configuration.regenerateText = true →
      WritesLine s line [.patched, .textRegenerated (withLine s.text line)] (withLine s.text line)
        (some (withLine s.text line))
  | dropped : s.configuration.regenerateText = false → WritesLine s line [.patched] s.text s.echo

theorem exists_drawnBy_eq (s : Session) (d : Diagram Float32) (line : String) :
    ∃ effects text echo, s.WritesLine line effects text echo ∧ effects ≠ [] ∧
      s.drawnBy d line = (effects, { s with diagram := d, text, echo }) := by
  cases hregenerate : s.configuration.regenerateText with
  | true =>
      exact ⟨_, _, _, .regenerated hregenerate, List.cons_ne_nil _ _,
        drawnBy_of_regenerateText hregenerate d line⟩
  | false =>
      exact ⟨_, _, _, .dropped hregenerate, List.cons_ne_nil _ _,
        drawnBy_of_not_regenerateText hregenerate d line⟩

/-- What is drawn is the diagram that is shown, whatever becomes of the line. -/
theorem diagram_drawnBy (s : Session) (d : Diagram Float32) (line : String) :
    (s.drawnBy d line).2.diagram = d := by
  obtain ⟨effects, text, echo, -, -, heq⟩ := s.exists_drawnBy_eq d line
  rw [heq]

/-- A line is written without counting. -/
theorem counter_drawnBy (s : Session) (d : Diagram Float32) (line : String) :
    (s.drawnBy d line).2.counter = s.counter := by
  obtain ⟨effects, text, echo, -, -, heq⟩ := s.exists_drawnBy_eq d line
  rw [heq]

/-- Someone who edits the diagram gets the diagram that the event asks for. -/
theorem diagram_onEdit (s : Session) (event : DiagramEvent) :
    (s.onEdit event).2.diagram =
      (applyEvent { s with phase := .applyingDiagram } event).2.diagram := by
  unfold onEdit
  split
  · next heq => rw [heq]
  · next heq => rw [heq]

/-- Nothing else is counted. -/
theorem counter_onEdit (s : Session) (event : DiagramEvent) :
    (s.onEdit event).2.counter =
      (applyEvent { s with phase := .applyingDiagram } event).2.counter := by
  unfold onEdit
  split
  · next heq => rw [heq]
  · next heq => rw [heq]

theorem DrawsTo.of_phase {phase : Phase} {counter : IdCounter} {d : Diagram Float32} {line : String}
    (h : DrawsTo { s with phase } counter d line) : s.DrawsTo counter d line := by
  cases h with
  | addition x n hkind hposition horigin hlabel =>
      exact .addition x n hkind hposition horigin hlabel
  | arrow ha hb hd => exact .arrow ha hb hd

/-- **What an event does to a session.**  It leaves the session alone, or it edits what is there, or
it draws something; and it does the latter only for someone who edits the diagram. -/
theorem onDiagram_cases (hphase : s.phase = .idle) (event : DiagramEvent) (origin : Provenance) :
    (∃ report, s.onDiagram event origin = (report, s) ∧
      (report = .ignored ∨ ∃ entity, report = s.onSelection entity)) ∨
    (∃ d identity lastOrigin, s.diagram.EditsTo event d ∧
      s.onDiagram event origin = (⟨some origin, [.patched]⟩,
        { s with diagram := d, identity, lastOrigin }) ∧
      (origin = .text ∧ identity = s.identity ∧ lastOrigin = s.lastOrigin ∨
        origin = .diagram ∧ identity = d.identity ∧ lastOrigin = some .diagram)) ∨
    (∃ counter d line effects text echo, s.DrawsTo counter d line ∧
      s.WritesLine line effects text echo ∧ origin = .diagram ∧
      s.onDiagram event origin = (⟨some .diagram, effects⟩,
        { s with counter, diagram := d, text, echo, identity := d.identity,
                 lastOrigin := some .diagram })) := by
  unfold onDiagram
  rw [if_neg (not_not.2 hphase)]
  split
  · exact Or.inl ⟨_, rfl, Or.inr ⟨_, rfl⟩⟩
  · exact Or.inl ⟨_, rfl, Or.inr ⟨_, rfl⟩⟩
  · unfold onFollowUp
    split
    · split
      · next hd => exact Or.inr (Or.inl ⟨_, _, _, .measured hd, rfl, Or.inl ⟨rfl, rfl, rfl⟩⟩)
      · exact Or.inl ⟨_, rfl, Or.inl rfl⟩
    · exact Or.inl ⟨_, rfl, Or.inl rfl⟩
  · -- the session that comes of an edit is idle again, as it was
    rcases applyEvent_cases { s with phase := .applyingDiagram } event with
      (happly | ⟨d, hd, happly⟩) | ⟨counter, d, line, hdraws, happly⟩
    · refine Or.inl ⟨.ignored, ?_, Or.inl rfl⟩
      rw [onEdit_of_nil _ happly, ← hphase]
    · refine Or.inr (Or.inl ⟨d, _, _, hd, ?_, Or.inr ⟨rfl, rfl, rfl⟩⟩)
      rw [onEdit_of_cons happly, ← hphase]
    · let drawing : Session := { s with phase := .applyingDiagram, counter }
      obtain ⟨effects, text, echo, hwrites, hne, hdrawn⟩ := drawing.exists_drawnBy_eq d line
      obtain ⟨effect, effects, rfl⟩ := List.exists_cons_of_ne_nil hne
      have hwrites' : s.WritesLine line (effect :: effects) text echo := by
        cases hwrites with
        | regenerated hregenerate => exact .regenerated hregenerate
        | dropped hregenerate => exact .dropped hregenerate
      refine Or.inr (Or.inr ⟨counter, d, line, _, text, echo, hdraws.of_phase, hwrites', rfl, ?_⟩)
      rw [onEdit_of_cons (happly.trans hdrawn), ← hphase]

end Session

end TextDiagram
