/-
**Problems.**

Making a picture of a text can fail in four places: at the files, in the text, at the placement and
at the picture.  A problem is reported with a code, and one that lies in the text with the line to
look at.

Main definitions:

* `TextDiagram.FileProblem`, `TextDiagram.Problem` — what went wrong;
* `TextDiagram.Diagnosis` — how it is reported.
-/

import TextDiagram.Text.Lines
import TextDiagram.Document.Reader
import TextDiagram.Configuration.Basic

set_option relaxedAutoImplicit false
set_option autoImplicit false

namespace TextDiagram

/-! ### Causes -/

/-- What went wrong with a file. -/
inductive FileProblem where
  | notFound
  | missingConfiguration (path : String)
  | unreadableConfiguration
  | unusableStyle (flaw : StyleFlaw)
  | other (message : String)
  deriving DecidableEq, Repr

/-- What is said of a file. -/
def FileProblem.message : FileProblem → String
  | notFound => "No such file or directory (os error 2)"
  | missingConfiguration path => s!"Missing configuration file: {path}"
  | unreadableConfiguration => "Failed to parse TOML configuration"
  | unusableStyle flaw => s!"Validation error: {flaw.message}"
  | other message => message

/-- What went wrong on the way from a text to its picture. -/
inductive Problem where
  | file (cause : FileProblem)
  | parse (error : ParseError) (source : String)
  | layout (message : String)
  | rendering (message : String)
  | writing (message : String)
  deriving DecidableEq, Repr

namespace Problem

/-- A node has got no place. -/
def placeless (id : Id) : Problem := layout s!"node `{id}` has no finite position"

/-- The colors of a style cannot be read. -/
def unusableStyle (flaw : StyleFlaw) : Problem := rendering flaw.message

/-- What is said of a problem. -/
def message : Problem → String
  | file cause => s!"I/O error: {cause.message}"
  | parse error _ => error.message
  | layout message => s!"Layout error: {message}"
  | rendering message => s!"Export error: Render error: {message}"
  | writing message => s!"Export error: I/O error: {message}"

end Problem

/-! ### Reports -/

/-- How a problem is reported: a text with a code, where it lies in the text a help, the text and
the span to point at, and what caused it. -/
structure Diagnosis where
  text : String
  code : String
  help : Option String := none
  source : Option String := none
  label : Option Text.Span := none
  cause : Option String := none
  deriving DecidableEq, Repr

namespace Problem

/-- The code of a problem. -/
def code : Problem → String
  | file _ => "tandem::io"
  | parse (.danglingEdge ..) _ => "tandem::parse::dangling_edge"
  | parse (.sourceMap _) _ => "tandem::parse::source_map"
  | layout _ => "tandem::layout"
  | rendering _ | writing _ => "tandem::export"

/-- The report of a problem. -/
def diagnosis (p : Problem) : Diagnosis :=
  match p with
  | parse error source =>
      { text := p.message
        code := p.code
        help := some "the previous diagram is kept until this line is fixed"
        source := some source
        label := Text.lineSpan source error.line }
  | file cause => { text := p.message, code := p.code, cause := some cause.message }
  | _ => { text := p.message, code := p.code }

end Problem

end TextDiagram
