/-
**The command line never fails late.**

A run can stop in many places, but not everything can stop it.  Every text is read, and a
configuration with a color that cannot be drawn is turned away when it is loaded, so that whatever
is placed can be drawn.  What remains are the files, the rows that are printed, and the placement.
The picture is written last: a run that has written it has nothing left to fail at.

Main definitions:

* `TextDiagram.IsRendering` — a text is the picture that a run is asked for;
* `TextDiagram.Ending` — the ways in which a run ends.

Main results:

* `TextDiagram.Configuration.exists_draw_of_flaw?` — every diagram can be drawn, unless a color is
  flawed;
* `TextDiagram.flaw?_of_loadConfiguration` — no color of a configuration that is loaded is flawed;
* `TextDiagram.ending_of_runUsing?` — a run ends in one of the ways of `TextDiagram.Ending`;
* `TextDiagram.runUsing?_fails_early` — **a run never fails at the text or the picture**, and it
  writes the picture exactly if it does not fail.
-/

import TextDiagram.CommandLine.Run
import TextDiagram.Proofs.Document.Reader

set_option relaxedAutoImplicit false
set_option autoImplicit false

namespace TextDiagram

variable {files : Files} {arguments : Arguments} {service : LayoutService}

/-! ### Accepted configurations -/

/-- Every diagram can be drawn, unless a color is flawed. -/
theorem Configuration.exists_draw_of_flaw? {c : Configuration} (h : c.flaw? = none)
    (d : Diagram Float32) : ∃ picture, c.draw d = .ok picture := by
  rw [Configuration.flaw?] at h
  split at h
  case h_1 => exact nomatch h
  case h_2 => exact nomatch h
  case h_3 background edge hbackground hedge =>
      have hlook : Look.ofStyle c.style = .ok ⟨background, edge, c.style⟩ :=
        Look.ofStyle_eq_ok_iff.2 ⟨hbackground, hedge, rfl⟩
      exact ⟨_, by rw [Configuration.draw, Diagram.svg, hlook]⟩

/-- Another engine changes no color, and neither do fonts. -/
@[simp] theorem Configuration.flaw?_withEngine (c : Configuration) (engine : Engine) :
    (c.withEngine engine).flaw? = c.flaw? := rfl

@[simp] theorem Configuration.flaw?_withFonts (c : Configuration) (fonts : Fonts) :
    (c.withFonts fonts).flaw? = c.flaw? := rfl

theorem flaw?_of_configurationOfText {text : String} {c : Configuration}
    (h : configurationOfText text = .ok c) : c.flaw? = none := by
  rw [configurationOfText] at h
  split at h
  · exact nomatch h
  · split at h
    · exact nomatch h
    · next hflaw =>
        obtain rfl := Except.ok.inj h
        exact hflaw

/-- A step that follows another one has a result only if both have. -/
theorem exists_of_bind_eq_ok {ε α β : Type} {x : Except ε α} {f : α → Except ε β} {b : β}
    (h : x.bind f = .ok b) : ∃ a, x = .ok a ∧ f a = .ok b := by
  cases x with
  | error problem => exact nomatch h
  | ok a => exact ⟨a, rfl, h⟩

/-- No color of a configuration that is loaded is flawed, and neither is one of the default. -/
theorem flaw?_of_loadConfiguration {named : Option String} {c : Configuration}
    (h : loadConfiguration files named = .ok c) : c.flaw? = none := by
  rw [loadConfiguration] at h
  split at h
  · next path _ =>
      rw [configurationOfFile] at h
      split at h
      · obtain ⟨text, -, htext⟩ := exists_of_bind_eq_ok h
        exact flaw?_of_configurationOfText htext
      · exact nomatch h
  · obtain rfl := Except.ok.inj h
    decide +kernel

/-- What a run gathers is the configuration that is loaded, with the engine of the command line and
the fonts of the machine, and the text of the input. -/
theorem gather_eq_ok {c : Configuration} {source : String}
    (h : gather files arguments = .ok (c, source)) :
    ∃ loaded, loadConfiguration files arguments.configuration = .ok loaded ∧
      files.content arguments.input = .ok source ∧
      c = (arguments.engine.elim loaded loaded.withEngine).withFonts files.fonts := by
  rw [gather] at h
  obtain ⟨loaded, hload, h⟩ := exists_of_bind_eq_ok h
  obtain ⟨text, hcontent, h⟩ := exists_of_bind_eq_ok h
  obtain ⟨rfl, rfl⟩ := Prod.mk.inj (Except.ok.inj h)
  exact ⟨loaded, hload, hcontent, rfl⟩

/-- The configuration of a run has no flaw. -/
theorem flaw?_of_loaded {loaded : Configuration}
    (h : loadConfiguration files arguments.configuration = .ok loaded) :
    ((arguments.engine.elim loaded loaded.withEngine).withFonts files.fonts).flaw? = none := by
  rw [Configuration.flaw?_withFonts]
  cases arguments.engine with
  | none => exact flaw?_of_loadConfiguration h
  | some engine =>
      rw [Option.elim_some, Configuration.flaw?_withEngine]
      exact flaw?_of_loadConfiguration h

/-! ### Endings -/

/-- A text is the picture that a run is asked for: the configuration is loaded from the file that the
command line names, or else from where it is looked for; the input file is read, placed with the
engine that the command line asks for, or else with that of the configuration, and drawn. -/
def IsRendering (service : LayoutService) (files : Files) (arguments : Arguments)
    (picture : String) : Prop :=
  ∃ loaded source document d,
    loadConfiguration files arguments.configuration = .ok loaded ∧
    files.content arguments.input = .ok source ∧
    Configuration.read source = .ok document ∧
    let used := (arguments.engine.elim loaded loaded.withEngine).withFonts files.fonts
    used.layOut? service document = some (.ok d) ∧ used.draw d = .ok picture

/-- The ways in which a run ends: with a problem of a file or of what is printed, with a node that
has no place, or with the picture written. -/
inductive Ending (service : LayoutService) (files : Files) (arguments : Arguments) : Outcome → Prop
  | stopped (printed : String) (cause : FileProblem) :
      Ending service files arguments { printed, problem := some (.file cause) }
  | placeless (printed : String) (id : Id) :
      Ending service files arguments { printed, problem := some (.placeless id) }
  | written (printed : String) {picture : String}
      (h : IsRendering service files arguments picture) :
      Ending service files arguments { printed, written := some (arguments.output, picture) }

/-- A diagram that is placed is drawn and written, unless something stands against writing. -/
theorem deliver_cases (files : Files) {c : Configuration} (h : c.flaw? = none)
    (output : String) (d : Diagram Float32) :
    (∃ cause, deliver files c output d = .error (.file cause)) ∨
      ∃ picture, c.draw d = .ok picture ∧ deliver files c output d = .ok (output, picture) := by
  obtain ⟨picture, hdraw⟩ := Configuration.exists_draw_of_flaw? h d
  simp only [deliver, hdraw]
  cases hobstacle : files.obstacle output with
  | some cause => exact Or.inl ⟨cause, rfl⟩
  | none => exact Or.inr ⟨picture, rfl, rfl⟩

/-- A placement that ends gives every node a place, or names a node without one. -/
theorem layOut?_cases {c : Configuration} {document : Document}
    {laidOut : Except Problem (Diagram Float32)}
    (h : c.layOut? service document = some laidOut) :
    (∃ id, laidOut = .error (.placeless id)) ∨ ∃ d, laidOut = .ok d := by
  obtain ⟨positions, -, hsettle⟩ := Option.map_eq_some_iff.1 h
  rw [Configuration.settle] at hsettle
  split at hsettle
  · next id _ => exact Or.inl ⟨id, hsettle.symm⟩
  · exact Or.inr ⟨_, hsettle.symm⟩

/-- **A run ends in one of these ways**, if it ends at all. -/
theorem ending_of_runUsing? {outcome : Outcome}
    (h : runUsing? service files arguments = some outcome) :
    Ending service files arguments outcome := by
  rw [runUsing?] at h
  cases hgather : gather files arguments with
  | error problem =>
      rw [hgather] at h
      obtain rfl := Option.some.inj h
      exact .stopped "" problem
  | ok gathered =>
      obtain ⟨c, source⟩ := gathered
      obtain ⟨loaded, hload, hcontent, rfl⟩ := gather_eq_ok hgather
      obtain ⟨document, hdocument, -⟩ := Document.exists_isSound source
      have hread : Configuration.read source = .ok document := by
        rw [Configuration.read, hdocument]
      simp only [hgather, hread] at h
      split at h
      · next printed problem _ =>
          obtain rfl := Option.some.inj h
          exact .stopped printed problem
      · next printed _ =>
          obtain ⟨laidOut, hlayout, rfl⟩ := Option.map_eq_some_iff.1 h
          rcases layOut?_cases hlayout with ⟨id, rfl⟩ | ⟨d, rfl⟩
          · exact .placeless printed id
          · rcases deliver_cases files (flaw?_of_loaded hload) arguments.output d with
              ⟨cause, hdeliver⟩ | ⟨picture, hdraw, hdeliver⟩
            · simp only [Except.bind, hdeliver]
              exact .stopped printed cause
            · simp only [Except.bind, hdeliver]
              exact .written printed
                ⟨loaded, source, document, d, hload, hcontent, hread, hlayout, hdraw⟩

/-- **A run never fails late**: whatever the command line, the files and the layout service are, a
run that ends has no problem with the text or with the picture, but only with the files, with what
it prints or with the placement.  It has written a file exactly if it has no problem, and then it
has written the picture of its input to its output. -/
theorem runUsing?_fails_early (service : LayoutService) (files : Files) (arguments : Arguments)
    {outcome : Outcome} (h : runUsing? service files arguments = some outcome) :
    (∀ problem, outcome.problem = some problem →
        (∃ cause, problem = .file cause) ∨ ∃ message, problem = .layout message) ∧
      (outcome.written.isSome = true ↔ outcome.problem = none) ∧
      ∀ path picture, outcome.written = some (path, picture) →
        path = arguments.output ∧ IsRendering service files arguments picture := by
  cases ending_of_runUsing? h with
  | stopped printed cause =>
      refine ⟨?_, by simp, fun path picture hwritten => nomatch hwritten⟩
      rintro problem hproblem
      exact Or.inl ⟨cause, (Option.some.inj hproblem).symm⟩
  | placeless printed id =>
      refine ⟨?_, by simp, fun path picture hwritten => nomatch hwritten⟩
      rintro problem hproblem
      exact Or.inr ⟨_, (Option.some.inj hproblem).symm⟩
  | written printed hrendering =>
      refine ⟨fun problem hproblem => (nomatch hproblem), by simp, ?_⟩
      intro path picture hwritten
      obtain ⟨rfl, rfl⟩ := Prod.mk.inj (Option.some.inj hwritten)
      exact ⟨rfl, hrendering⟩

/-- Files with a configuration and a text, of which everything can be printed and written. -/
def desk : Files where
  isThere path := path = localConfiguration
  content path :=
    if path = localConfiguration then .ok "[style]\nedge_color = \"teal\"\n"
    else .ok "A > B"
  obstacle _ := none
  userConfiguration := none

/-- A run that finds a configuration and prints the source map writes the picture of its input. -/
theorem exists_rendering_desk :
    let service : LayoutService := fun _ => .error .empty
    let arguments : Arguments := { input := "in", printsSourceMap := true }
    ∃ outcome picture, runUsing? service desk arguments = some outcome ∧
      outcome.printed = "1\tedge\tedge_A_B_0\n" ∧ outcome.problem = none ∧
      outcome.written = some ("out.svg", picture) ∧
      IsRendering service desk arguments picture := by
  intro service arguments
  have hany : (runUsing? service desk arguments).any fun outcome =>
      outcome.printed = "1\tedge\tedge_A_B_0\n" ∧ outcome.problem = none := by
    decide +kernel
  obtain ⟨outcome, hrun, hends⟩ := (Option.any_eq_true _ _).1 hany
  obtain ⟨hprinted, hproblem⟩ := of_decide_eq_true hends
  obtain ⟨-, hiff, hpicture⟩ := runUsing?_fails_early service desk arguments hrun
  obtain ⟨⟨path, picture⟩, hwritten⟩ := Option.isSome_iff_exists.1 (hiff.2 hproblem)
  obtain ⟨rfl, hrendering⟩ := hpicture path picture hwritten
  exact ⟨outcome, picture, hrun, hprinted, hproblem, hwritten, hrendering⟩

end TextDiagram
