/-
**Echoes.**

What is drawn comes back from the editor as a longer text, perhaps later than more is drawn.  A
session awaits one text only, the last one that it gave away; and it gives up waiting as soon as any
text arrives.  So an echo is recognized if and only if no other one is under way.  All others are
taken for changes of the text, and the diagram is made anew.

Main definitions:

* `TextDiagram.Dialogue` — a session with the texts that are on their way back to it;
* `TextDiagram.Turn`, `TextDiagram.Dialogue.run?` — drawings and arrivals in any order;
* `TextDiagram.Dialogue.IsQuiet` — no arrival replaces the diagram;
* `TextDiagram.Session.Alternates` — at every arrival, at most one text is under way.

Main results:

* `TextDiagram.Dialogue.IsInStep.exists_run` — while drawings and arrivals alternate, every arrival
  is recognized;
* `TextDiagram.Dialogue.IsInStep.alternates_of_isQuiet` — once they do not, some arrival replaces
  the diagram;
* `TextDiagram.Session.Reachable.isQuiet_iff_alternates` — **after a change of the text, no arrival
  replaces the diagram** if and only if drawings and arrivals alternate.
-/

import TextDiagram.Proofs.Session.Coherence

set_option relaxedAutoImplicit false
set_option autoImplicit false

namespace TextDiagram

/-! ### Dialogues -/

/-- What happens next: something is drawn, or the text that is longest under way arrives. -/
inductive Turn where
  | draw (drawing : Drawing)
  | arrive

/-- The drawings among some turns. -/
def Turn.drawings (turns : List Turn) : List Drawing :=
  turns.filterMap fun
    | draw x => some x
    | arrive => none

/-- The texts that a report gives to the editor. -/
def Report.texts (r : Report) : List String :=
  r.effects.filterMap fun
    | .textRegenerated text => some text
    | _ => none

/-- Whether a report tells that the diagram was replaced. -/
def Report.Replaces (r : Report) : Prop := ∃ identity, Effect.replaced identity ∈ r.effects

/-- A session, and the texts on their way back to it from an editor that sends each of them once and
in order. -/
structure Dialogue where
  session : Session
  underWay : List String := []

namespace Session

/-- The session after a drawing. -/
def drawn (s : Session) (x : Drawing) : Session := (s.onDiagram x.event .diagram).2

/-- At every arrival there is at most one text under way, if `underWay` texts are under way before
the turns and every arrival is recognized. -/
def Alternates (s : Session) (underWay : Nat) : List Turn → Prop
  | [] => True
  | .draw x :: turns =>
      (s.drawn x).Alternates (underWay + (s.onDiagram x.event .diagram).1.texts.length) turns
  | .arrive :: turns => underWay ≤ 1 ∧ s.Alternates 0 turns

instance decidableAlternates (s : Session) (underWay : Nat) :
    (turns : List Turn) → Decidable (s.Alternates underWay turns)
  | [] => .isTrue trivial
  | .draw x :: turns => decidableAlternates (s.drawn x) _ turns
  | .arrive :: turns =>
      have := decidableAlternates s 0 turns
      inferInstanceAs (Decidable (underWay ≤ 1 ∧ s.Alternates 0 turns))

end Session

namespace Dialogue

/-- Something is drawn, and the texts of the report get under way. -/
def draw (d : Dialogue) (x : Drawing) : Dialogue where
  session := d.session.drawn x
  underWay := d.underWay ++ (d.session.onDiagram x.event .diagram).1.texts

/-- The first text under way arrives, if any text is under way. -/
def arrive? (d : Dialogue) : Option (Report × Dialogue) :=
  match d.underWay with
  | [] => some (.ignored, d)
  | text :: rest => (d.session.onText? text).map fun (report, session) =>
      (report, { session, underWay := rest })

/-- The reports of all arrivals and the dialogue after some turns, if all arrivals return. -/
def run? (d : Dialogue) : List Turn → Option (List Report × Dialogue)
  | [] => some ([], d)
  | .draw x :: turns => (d.draw x).run? turns
  | .arrive :: turns => d.arrive?.bind fun (report, d) =>
      (d.run? turns).map fun (reports, d) => (report :: reports, d)

/-- All arrivals return, and none replaces the diagram. -/
def IsQuiet (d : Dialogue) (turns : List Turn) : Prop :=
  ∃ reports d', d.run? turns = some (reports, d') ∧ ∀ r ∈ reports, ¬ r.Replaces

variable {d d' : Dialogue} {turns : List Turn}

/-- An arrival is the only turn that is reported. -/
theorem isQuiet_arrive_iff : d.IsQuiet (.arrive :: turns) ↔
    ∃ report d', d.arrive? = some (report, d') ∧ ¬ report.Replaces ∧ d'.IsQuiet turns := by
  constructor
  · rintro ⟨reports, d₂, hrun, hquiet⟩
    obtain ⟨⟨report, d₁⟩, harrive, hrun⟩ := Option.bind_eq_some_iff.1 hrun
    obtain ⟨⟨rest, d₃⟩, hrest, heq⟩ := Option.map_eq_some_iff.1 hrun
    obtain ⟨rfl, rfl⟩ := Prod.mk.inj heq
    exact ⟨report, d₁, harrive, hquiet report List.mem_cons_self, rest, d₃, hrest,
      fun r hr => hquiet r (List.mem_cons_of_mem _ hr)⟩
  · rintro ⟨report, d₁, harrive, hreport, rest, d₂, hrest, hquiet⟩
    refine ⟨report :: rest, d₂, ?_, List.forall_mem_cons.2 ⟨hreport, hquiet⟩⟩
    simp only [run?, harrive, hrest, Option.bind_some, Option.map_some]

end Dialogue

/-! ### Arrivals of a text -/

theorem Report.not_replaces_ignored : ¬ Report.ignored.Replaces := by
  rintro ⟨identity, hmem⟩
  exact List.not_mem_nil hmem

namespace Session

variable {s s' : Session}

theorem mem_replacement (s : Session) (identity : Identity) :
    .replaced identity ∈ s.replacement identity := by
  unfold replacement
  split <;> exact List.mem_cons_self

/-- A text that is not awaited replaces the diagram. -/
theorem replaces_of_echo_ne (hphase : s.phase = .idle) {text : String} (hecho : s.echo ≠ some text)
    {report : Report} (hs : s.onText? text = some (report, s')) : report.Replaces := by
  rcases onText?_cases hphase hs with ⟨heq, -⟩ | ⟨-, document, d, -, -, rfl, -⟩
  · exact absurd heq hecho
  · exact ⟨_, mem_replacement s _⟩

end Session

/-! ### Dialogues in step -/

namespace Dialogue

variable {d d' : Dialogue} {turns : List Turn}

/-- Of the texts under way the last one is awaited, and every one is longer than those before. -/
structure IsInStep (d : Dialogue) : Prop where
  /-- The session is coherent. -/
  coherent : d.session.IsCoherent
  /-- What is drawn becomes text. -/
  regenerates : d.session.configuration.regenerateText = true
  /-- The last text under way is awaited. -/
  awaited : d.session.echo = d.underWay.getLast?
  /-- The texts under way grow. -/
  growing : (d.underWay.map String.length).Pairwise (· < ·)

namespace IsInStep

/-- The text of the session is the longest one. -/
theorem length_le (h : d.IsInStep) {text : String} (htext : text ∈ d.underWay) :
    text.length ≤ d.session.text.length := by
  obtain ⟨last, hlast⟩ := Option.isSome_iff_exists.1
    (List.getLast?_isSome.2 (List.ne_nil_of_mem htext))
  obtain ⟨earlier, hunderWay⟩ := List.getLast?_eq_some_iff.1 hlast
  have hgrowing := h.growing
  rw [hunderWay, List.map_append, List.pairwise_append] at hgrowing
  rw [← h.coherent.echo last (h.awaited.trans hlast)]
  rw [hunderWay] at htext
  rcases List.mem_append.1 htext with hearlier | heq
  · exact Nat.le_of_lt (hgrowing.2.2 _ (List.mem_map_of_mem hearlier) _ (by simp))
  · exact Nat.le_of_eq (congrArg String.length (List.mem_singleton.1 heq))

/-- A drawing sends a longer text on its way, whatever echo is awaited, or it does nothing. -/
theorem draw_cases (h : d.IsInStep) (x : Drawing) :
    (∃ s, d.draw x = { session := s, underWay := d.underWay ++ [s.text] } ∧
      d.session.text.length < s.text.length ∧ s.echo = some s.text ∧
      s.configuration = d.session.configuration ∧
      ∀ echo, (d.session.awaiting echo).onDiagram x.event .diagram =
        (⟨some .diagram, [.patched, .textRegenerated s.text]⟩, s)) ∨
    (d.draw x = d ∧ ∀ echo, (d.session.awaiting echo).onDiagram x.event .diagram =
      (.ignored, d.session.awaiting echo)) := by
  cases hpossible : x.isPossible d.session with
  | true =>
      obtain ⟨s, hlonger, hecho, hconfiguration, hdraw⟩ :=
        Session.onDiagram_of_isPossible h.coherent.idle h.regenerates hpossible
      have hevent : d.session.onDiagram x.event .diagram = _ := hdraw d.session.echo
      refine Or.inl ⟨s, ?_, hlonger, hecho, hconfiguration, hdraw⟩
      rw [Dialogue.draw, Session.drawn, hevent]
      rfl
  | false =>
      have hevent := Session.onDiagram_of_not_isPossible h.coherent.idle hpossible
      refine Or.inr ⟨?_, fun echo => ?_⟩
      · rw [Dialogue.draw, Session.drawn, hevent, Report.texts, Report.ignored, List.filterMap_nil,
          List.append_nil]
      · refine Session.onDiagram_of_not_isPossible (s := d.session.awaiting echo) h.coherent.idle ?_
        cases x <;> exact hpossible

theorem draw (h : d.IsInStep) (x : Drawing) : (d.draw x).IsInStep := by
  have hcoherent := h.coherent.onDiagram x.event .diagram
  rcases h.draw_cases x with ⟨s, hdraw, hlonger, hecho, hconfiguration, -⟩ | ⟨hdraw, -⟩
  · have hsession : d.session.drawn x = s := congrArg Dialogue.session hdraw
    rw [hdraw]
    refine ⟨hsession ▸ hcoherent, hconfiguration ▸ h.regenerates, ?_, ?_⟩
    · rw [hecho, List.getLast?_concat]
    · rw [List.map_append, List.pairwise_append]
      -- no text under way is longer than the old text, and the new text is
      refine ⟨h.growing, List.pairwise_singleton _ _, ?_⟩
      intro earlier hearlier last hlast
      obtain ⟨text, htext, rfl⟩ := List.mem_map.1 hearlier
      rw [List.mem_singleton.1 hlast]
      exact Nat.lt_of_le_of_lt (h.length_le htext) hlonger
  · rw [hdraw]
    exact h

/-- A drawing sends as many texts on their way as it does on its own, and leaves the session that it
leaves on its own but for the echo that is awaited. -/
theorem exists_awaiting_draw (h : d.IsInStep) (x : Drawing) (echo : Option String) :
    (d.draw x).underWay.length = d.underWay.length +
        ((d.session.awaiting echo).onDiagram x.event .diagram).1.texts.length ∧
      ∃ echo', (d.session.awaiting echo).drawn x = (d.draw x).session.awaiting echo' := by
  rcases h.draw_cases x with ⟨s, hdraw, -, -, -, halone⟩ | ⟨hdraw, halone⟩
  · rw [hdraw, Session.drawn, halone]
    exact ⟨List.length_append, s.echo, rfl⟩
  · rw [hdraw, Session.drawn, halone]
    exact ⟨rfl, echo, rfl⟩

/-- With at most one text under way, an arrival is recognized. -/
theorem arrive?_of_le (h : d.IsInStep) (hle : d.underWay.length ≤ 1) :
    d.arrive? = some (.ignored, { session := d.session.awaiting none }) := by
  have hawaited := h.awaited
  obtain ⟨s, underWay⟩ := d
  match underWay, hle with
  | [], _ =>
      -- nothing is under way, so nothing is awaited either
      have hnone : s.awaiting none = s := by
        obtain ⟨⟩ := s
        simp_all [Session.awaiting]
      rw [hnone]
      rfl
  | [text], _ =>
      have htext : s.onText? text = _ := Session.onText?_of_echo h.coherent.idle hawaited
      simp only [arrive?, htext]
      rfl

/-- With more than one text under way, an arrival replaces the diagram. -/
theorem replaces_of_arrive? (h : d.IsInStep) (hlt : 1 < d.underWay.length) {report : Report}
    (harrive : d.arrive? = some (report, d')) : report.Replaces := by
  have hawaited := h.awaited
  have hgrowing := h.growing
  obtain ⟨s, underWay⟩ := d
  match underWay, hlt with
  | first :: second :: rest, _ =>
      obtain ⟨⟨report', s'⟩, htext, heq⟩ := Option.map_eq_some_iff.1 harrive
      obtain ⟨rfl, -⟩ := Prod.mk.inj heq
      refine Session.replaces_of_echo_ne h.coherent.idle ?_ htext
      -- the text that is awaited is longer than the one that arrives
      intro hecho
      have hlast : (second :: rest).getLast? = some first := by
        rw [← hecho, hawaited, List.getLast?_cons_cons]
      have hmem : first ∈ second :: rest := List.mem_of_getLast? hlast
      have hlt := (List.pairwise_cons.1 hgrowing).1 _ (List.mem_map_of_mem hmem)
      exact absurd hlt (Nat.lt_irrefl _)

/-- An arrival that is recognized leaves a dialogue in step. -/
theorem arrived (h : d.IsInStep) : IsInStep { session := d.session.awaiting none } where
  coherent := h.coherent.awaitingNone
  regenerates := h.regenerates
  awaited := rfl
  growing := List.Pairwise.nil

/-! ### Runs of a dialogue -/

/-- While drawings and arrivals alternate, all arrivals are recognized, and the diagram is that of
the drawings. -/
theorem exists_run (h : d.IsInStep) (echo : Option String)
    (halternates : (d.session.awaiting echo).Alternates d.underWay.length turns) :
    ∃ reports d', d.run? turns = some (reports, d') ∧ (∀ r ∈ reports, r = .ignored) ∧
      d'.session.diagram =
        ((Turn.drawings turns).foldl Session.drawn (d.session.awaiting echo)).diagram := by
  -- the echo is generalized: on its own, the session goes on awaiting what has arrived here
  induction turns generalizing d echo with
  | nil => exact ⟨[], d, rfl, fun _ hr => absurd hr List.not_mem_nil, rfl⟩
  | cons turn turns ih =>
      cases turn with
      | draw x =>
          obtain ⟨hlength, echo', hdrawn⟩ := h.exists_awaiting_draw x echo
          rw [Session.Alternates, ← hlength, hdrawn] at halternates
          have hrun := ih (h.draw x) echo' halternates
          rw [← hdrawn] at hrun
          exact hrun
      | arrive =>
          obtain ⟨hle, halternates⟩ := halternates
          obtain ⟨reports, d', hrun, hreports, hdiagram⟩ := ih h.arrived echo halternates
          refine ⟨.ignored :: reports, d', ?_, List.forall_mem_cons.2 ⟨rfl, hreports⟩, hdiagram⟩
          simp only [run?, h.arrive?_of_le hle, Option.bind_some, hrun, Option.map_some]

/-- As long as no arrival replaces the diagram, drawings and arrivals alternate. -/
theorem alternates_of_isQuiet (h : d.IsInStep) (echo : Option String) (hquiet : d.IsQuiet turns) :
    (d.session.awaiting echo).Alternates d.underWay.length turns := by
  induction turns generalizing d echo with
  | nil => trivial
  | cons turn turns ih =>
      cases turn with
      | draw x =>
          obtain ⟨hlength, echo', hdrawn⟩ := h.exists_awaiting_draw x echo
          rw [Session.Alternates, ← hlength, hdrawn]
          exact ih (h.draw x) echo' hquiet
      | arrive =>
          obtain ⟨report, d', harrive, hreport, hquiet⟩ := isQuiet_arrive_iff.1 hquiet
          by_cases hle : d.underWay.length ≤ 1
          · rw [h.arrive?_of_le hle] at harrive
            obtain ⟨-, rfl⟩ := Prod.mk.inj (Option.some.inj harrive)
            exact ⟨hle, ih h.arrived echo hquiet⟩
          · exact absurd (h.replaces_of_arrive? (Nat.lt_of_not_le hle) harrive) hreport

end IsInStep

end Dialogue

namespace Session

variable {s s' : Session}

/-- A change of the text begins a dialogue in step. -/
theorem IsCoherent.isInStep (h : s.IsCoherent)
    (hregenerate : s.configuration.regenerateText = true) {text : String} {report : Report}
    (htext : s.onText? text = some (report, s')) : Dialogue.IsInStep { session := s' } := by
  have hcoherent := h.onText htext
  rcases onText?_cases h.idle htext with ⟨-, -, rfl⟩ | ⟨-, document, diagram, -, -, -, rfl⟩
  · exact ⟨hcoherent, hregenerate, rfl, List.Pairwise.nil⟩
  · exact ⟨hcoherent, hregenerate, rfl, List.Pairwise.nil⟩

/-- **After a change of the text, no arrival replaces the diagram** if and only if drawings and
arrivals alternate: at no arrival is there more than one text under way.  Then the diagram is the
one that the drawings alone would make. -/
theorem Reachable.isQuiet_iff_alternates {configuration : Configuration}
    (h : Reachable configuration s) (hregenerate : s.configuration.regenerateText = true)
    {text : String} {report : Report} (htext : s.onText? text = some (report, s'))
    (turns : List Turn) :
    (Dialogue.IsQuiet { session := s' } turns ↔ s'.Alternates 0 turns) ∧
      (s'.Alternates 0 turns → ∃ reports d,
        Dialogue.run? { session := s' } turns = some (reports, d) ∧
          d.session.diagram = ((Turn.drawings turns).foldl drawn s').diagram) := by
  have hstep := h.coherent.isInStep hregenerate htext
  refine ⟨⟨hstep.alternates_of_isQuiet s'.echo, ?_⟩, ?_⟩
  · intro halternates
    obtain ⟨reports, d, hrun, hignored, -⟩ := hstep.exists_run s'.echo halternates
    refine ⟨reports, d, hrun, ?_⟩
    intro r hr
    rw [hignored r hr]
    exact Report.not_replaces_ignored
  · intro halternates
    obtain ⟨reports, d, hrun, -, hdiagram⟩ := hstep.exists_run s'.echo halternates
    exact ⟨reports, d, hrun, hdiagram⟩

/-- A node and an arrow to it are drawn, and the echo of each arrives before more is drawn. -/
theorem isQuiet_of_prompt_arrivals :
    ∃ report s, (start { regenerateText := true }).onText? "A" = some (report, s) ∧
      Dialogue.IsQuiet { session := s }
        [.draw (.node ⟨0, 0⟩), .arrive, .draw (.arrow "A" "node_1"), .arrive] := by
  have hany : ((start { regenerateText := true }).onText? "A").any (fun (_, s) =>
      decide (s.Alternates 0
        [.draw (.node ⟨0, 0⟩), .arrive, .draw (.arrow "A" "node_1"), .arrive])) = true := by
    decide +kernel
  obtain ⟨⟨report, s⟩, htext, halternates⟩ := (Option.any_eq_true _ _).1 hany
  have hquiet := (Reachable.start.isQuiet_iff_alternates rfl htext _).1.2
    (of_decide_eq_true halternates)
  exact ⟨report, s, htext, hquiet⟩

/-- Two nodes are drawn before the first echo arrives, which is then taken for a change of the
text. -/
theorem not_isQuiet_of_late_arrival :
    ∃ report s, (start { regenerateText := true }).onText? "A" = some (report, s) ∧
      ¬ Dialogue.IsQuiet { session := s }
        [.draw (.node ⟨0, 0⟩), .draw (.node ⟨300, 0⟩), .arrive] := by
  have hany : ((start { regenerateText := true }).onText? "A").any (fun (_, s) =>
      decide (¬ s.Alternates 0
        [.draw (.node ⟨0, 0⟩), .draw (.node ⟨300, 0⟩), .arrive])) = true := by
    decide +kernel
  obtain ⟨⟨report, s⟩, htext, halternates⟩ := (Option.any_eq_true _ _).1 hany
  refine ⟨report, s, htext, ?_⟩
  intro hquiet
  have hstep := (isCoherent_start { regenerateText := true }).isInStep rfl htext
  exact of_decide_eq_true halternates (hstep.alternates_of_isQuiet s.echo hquiet)

end Session

end TextDiagram
