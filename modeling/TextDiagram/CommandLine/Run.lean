/-
**Runs of the command line.**

A run reads a configuration and a text, and writes the picture of the text.  The configuration comes
from the file that the command line names, from the one in the working directory, or from the one of
the user; without any, everything has its default.  Nothing is written unless everything has gone
well.

Main definitions:

* `TextDiagram.Files` — the files that a run meets;
* `TextDiagram.loadConfiguration` — the configuration of a run;
* `TextDiagram.sourceMapText` — the printed source map of a document;
* `TextDiagram.announce` — what a run prints before it places the document;
* `TextDiagram.runUsing?` — what a run prints and writes with a layout service, if it ends;
* `TextDiagram.run?` — the run with the layered placement as its service.

Main results:

* `TextDiagram.printRows_eq` — with nothing against it, all rows are printed.
-/

import TextDiagram.Compilation
import TextDiagram.CommandLine.Arguments
import TextDiagram.Placement.Layered
import TextDiagram.Toml.Document

set_option relaxedAutoImplicit false
set_option autoImplicit false

namespace TextDiagram

/-! ### Files -/

/-- The files that a run meets: which there are, what they hold, what stands against writing one,
and what stands against printing a row when a number of rows are printed already.  The file with the
configuration of the user need not be known.  The fonts of the machine are files, too. -/
structure Files where
  isThere : String → Bool
  content : String → Except FileProblem String
  obstacle : String → Option FileProblem
  userConfiguration : Option String
  rowObstacle : Nat → Option FileProblem := fun _ => none
  fonts : Fonts := .none

/-- The configuration file of the working directory. -/
def localConfiguration : String := "tandem/config.toml"

/-! ### The configuration -/

/-- The configuration of a text, if its colors can be read. -/
def configurationOfText (text : String) : Except FileProblem Configuration :=
  match Configuration.ofFile? text with
  | none => .error .unreadableConfiguration
  | some configuration =>
      match configuration.flaw? with
      | some flaw => .error (.unusableStyle flaw)
      | none => .ok configuration

/-- The configuration of a file. -/
def configurationOfFile (files : Files) (path : String) : Except FileProblem Configuration :=
  if files.isThere path then (files.content path).bind configurationOfText
  else .error (.missingConfiguration path)

/-- The file that the configuration of a run comes from, if there is one. -/
def configurationPath? (files : Files) (named : Option String) : Option String :=
  named <|> [some localConfiguration, files.userConfiguration].reduceOption.find? files.isThere

/-- The configuration of a run. -/
def loadConfiguration (files : Files) (named : Option String) : Except FileProblem Configuration :=
  match configurationPath? files named with
  | some path => configurationOfFile files path
  | none => .ok {}

/-! ### The source map -/

/-- A row of a printed source map, with the line counted from one. -/
def sourceMapRow (line : Nat) (entity : Entity) : String :=
  s!"{line + 1}\t{entity.kind.name}\t{entity.id}\n"

/-- The rows of the printed source map of a document. -/
def sourceMapRows (document : Document) : List String :=
  document.sourceMap.entries.map fun (line, entity) => sourceMapRow line entity

/-- The printed source map of a document. -/
def sourceMapText (document : Document) : String := String.join (sourceMapRows document)

/-- Prints rows after a number of others, up to the first that something stands against. -/
def printRows (obstacle : Nat → Option FileProblem) : Nat → List String →
    String × Option FileProblem
  | _, [] => ("", none)
  | count, row :: rest =>
      match obstacle count with
      | some problem => ("", some problem)
      | none =>
          let (text, problem) := printRows obstacle (count + 1) rest
          (row ++ text, problem)

/-- With nothing against it, all rows are printed. -/
theorem printRows_eq (count : Nat) (rows : List String) :
    printRows (fun _ => none) count rows = (String.join rows, none) := by
  induction rows generalizing count with
  | nil => rfl
  | cons row rest ih => simp only [printRows, ih, String.join_cons]

/-! ### Runs -/

/-- What came of a run: what it has printed, the file that it has written, and the problem that it
has ended with. -/
structure Outcome where
  printed : String := ""
  written : Option (String × String) := none
  problem : Option Problem := none
  deriving DecidableEq, Repr

/-- What a run needs before it reads the text for its meaning: the configuration, with the engine
that the command line asks for and the fonts of the machine, and the text. -/
def gather (files : Files) (arguments : Arguments) :
    Except FileProblem (Configuration × String) := do
  let loaded ← loadConfiguration files arguments.configuration
  let source ← files.content arguments.input
  return ((arguments.engine.elim loaded loaded.withEngine).withFonts files.fonts, source)

/-- Writes the picture of a diagram. -/
def deliver (files : Files) (configuration : Configuration) (output : String)
    (diagram : Diagram Float32) : Except Problem (String × String) := do
  let picture ← configuration.draw diagram
  match files.obstacle output with
  | some problem => .error (.file problem)
  | none => .ok (output, picture)

/-- What a run prints before it places the document: the source map, if it is asked for. -/
def announce (files : Files) (arguments : Arguments) (document : Document) :
    String × Option FileProblem :=
  if arguments.printsSourceMap then printRows files.rowObstacle 0 (sourceMapRows document)
  else ("", none)

/-- What a run prints and writes with a layout service, if its placement ends. -/
def runUsing? (service : LayoutService) (files : Files) (arguments : Arguments) :
    Option Outcome :=
  match gather files arguments with
  | .error problem => some { problem := some (.file problem) }
  | .ok (configuration, source) =>
      match Configuration.read source with
      | .error problem => some { problem := some problem }
      | .ok document =>
          match announce files arguments document with
          | (printed, some problem) => some { printed, problem := some (.file problem) }
          | (printed, none) =>
              (configuration.layOut? service document).map fun laidOut =>
                match laidOut.bind (deliver files configuration arguments.output) with
                | .error problem => { printed, problem := some problem }
                | .ok file => { printed, written := some file }

/-- What a run prints and writes, if its placement ends. -/
def run? (files : Files) (arguments : Arguments) : Option Outcome :=
  runUsing? Layered.service files arguments

end TextDiagram
