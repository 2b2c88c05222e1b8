/-
**Command lines.**

A command line names the text to read, and options besides.  The value of an option stands behind an
equals sign, right behind a short name, or in the next argument.  An option with its value in one
argument is looked at more closely at once.  With its value in the next argument it is looked at
only when the argument after that has been recognized, so an argument that is no option at all is
complained about first.

Main definitions:

* `TextDiagram.Arguments` — what a command line asks for;
* `TextDiagram.UsageError` — why it cannot be followed, or need not be;
* `TextDiagram.Arguments.read` — the arguments of a command line.
-/

import TextDiagram.Text.Cut
import TextDiagram.Configuration.Basic

set_option relaxedAutoImplicit false
set_option autoImplicit false

namespace TextDiagram

/-! ### Arguments -/

/-- What a command line asks for. -/
structure Arguments where
  input : String
  output : String := "out.svg"
  configuration : Option String := none
  engine : Option Engine := none
  printsSourceMap : Bool := false
  logLevel : String := "info"
  deriving DecidableEq, Repr

/-- Why a command line cannot be followed, or need not be. -/
inductive UsageError where
  | missingInput
  | missingValue
  | unknownEngine
  | unknownArgument
  | repeated
  | unexpectedValue
  | help
  | version
  deriving DecidableEq, Repr

/-- The options that take a value. -/
inductive OptionName where
  | output
  | configuration
  | engine
  | logLevel
  deriving DecidableEq, Repr

/-- The options that take none. -/
inductive Switch where
  | printSourceMap
  | help
  | version
  deriving DecidableEq, Repr

/-! ### Single arguments -/

/-- What a single argument is. -/
inductive Token where
  | separator
  | word (text : String)
  | option (name : OptionName) (value : Option String)
  | switch (name : Switch) (hasValue : Bool)
  | unknown
  deriving DecidableEq, Repr

namespace Token

/-- The token of a long name with the value behind its equals sign. -/
def ofLong (name : String) (value : Option String) : Token :=
  match name with
  | "output" => option .output value
  | "config" => option .configuration value
  | "engine" => option .engine value
  | "log-level" => option .logLevel value
  | "print-source-map" => switch .printSourceMap value.isSome
  | "help" => switch .help value.isSome
  | "version" => switch .version value.isSome
  | _ => unknown

/-- The value right behind a short name.  An equals sign before it is dropped. -/
def attached : List Char → Option String
  | [] => none
  | '=' :: rest => some (String.ofList rest)
  | rest => some (String.ofList rest)

/-- The token of a short name with what stands behind it. -/
def ofShort (name : Char) (rest : List Char) : Token :=
  match name with
  | 'o' => option .output (attached rest)
  | 'c' => option .configuration (attached rest)
  | 'h' => switch .help false
  | 'V' => switch .version false
  | _ => unknown

/-- What a single argument is. -/
def of (argument : String) : Token :=
  match argument.toList with
  | ['-', '-'] => separator
  | '-' :: '-' :: long =>
      match Text.cutAround ['='] long with
      | some (name, value) => ofLong (String.ofList name) (some (String.ofList value))
      | none => ofLong (String.ofList long) none
  | '-' :: name :: rest => ofShort name rest
  | _ => word argument

end Token

/-! ### Reading -/

/-- What has been read of a command line. -/
structure ArgumentsDraft where
  input : Option String := none
  given : List (OptionName × String) := []
  printsSourceMap : Bool := false
  /-- The last option without a value of its own, with the next argument if that has been read. -/
  pending : Option (OptionName × Option String) := none
  /-- Whether only words follow. -/
  isOver : Bool := false
  deriving DecidableEq, Repr

namespace ArgumentsDraft

/-- Looks at an option with its value. -/
def give (draft : ArgumentsDraft) (name : OptionName) (value : String) :
    Except UsageError ArgumentsDraft :=
  if draft.given.any fun (other, _) => other = name then .error .repeated
  else if name = .engine && (Engine.ofName? value).isNone then .error .unknownEngine
  else .ok { draft with given := draft.given ++ [(name, value)], pending := none }

/-- Looks at the option that is pending. -/
def commit (draft : ArgumentsDraft) : Except UsageError ArgumentsDraft :=
  match draft.pending with
  | none => .ok draft
  | some (_, none) => .error .missingValue
  | some (name, some value) => draft.give name value

/-- Reads a word: the value of the pending option if that waits for one, and the input otherwise. -/
def readWord (draft : ArgumentsDraft) (text : String) : Except UsageError ArgumentsDraft :=
  match draft.pending, draft.isOver, draft.input with
  | some (name, none), false, _ => .ok { draft with pending := some (name, some text) }
  | _, _, some _ => .error .unknownArgument
  | _, _, none => draft.commit.map fun draft => { draft with input := some text }

/-- Reads an option that takes no value. -/
def readSwitch (draft : ArgumentsDraft) : Switch → Except UsageError ArgumentsDraft
  | .help => .error .help
  | .version => .error .version
  | .printSourceMap =>
      if draft.printsSourceMap then .error .repeated
      else .ok { draft with printsSourceMap := true }

/-- Reads one argument. -/
def readArgument (draft : ArgumentsDraft) (argument : String) :
    Except UsageError ArgumentsDraft :=
  if draft.isOver then draft.readWord argument
  else
    match Token.of argument with
    | .separator => .ok { draft with isOver := true }
    | .word text => draft.readWord text
    | .option name (some value) => draft.commit.bind fun draft => draft.give name value
    | .option name none =>
        draft.commit.map fun draft => { draft with pending := some (name, none) }
    | .switch _ true => .error .unexpectedValue
    | .switch name false => draft.commit.bind fun draft => draft.readSwitch name
    | .unknown => .error .unknownArgument

/-- The value given for an option. -/
def value? (draft : ArgumentsDraft) (name : OptionName) : Option String :=
  (draft.given.find? fun (other, _) => other = name).map Prod.snd

/-- The arguments that have been read. -/
def finish (draft : ArgumentsDraft) : Except UsageError Arguments :=
  draft.commit.bind fun draft =>
    match draft.input with
    | none => .error .missingInput
    | some input => .ok {
        input := input
        output := (draft.value? .output).getD "out.svg"
        configuration := draft.value? .configuration
        engine := (draft.value? .engine).bind Engine.ofName?
        printsSourceMap := draft.printsSourceMap
        logLevel := (draft.value? .logLevel).getD "info" }

end ArgumentsDraft

/-- The arguments of a command line. -/
def Arguments.read (line : List String) : Except UsageError Arguments :=
  (line.foldlM ArgumentsDraft.readArgument {}).bind ArgumentsDraft.finish

end TextDiagram
