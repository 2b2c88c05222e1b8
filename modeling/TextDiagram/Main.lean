/-
**The command line.**

The program reads the files that a run can ask for, makes the run, and writes what came of it.
Everything it decides is decided by `TextDiagram.run?`.

Main definitions:

* `TextDiagram.filesOf` — the files of a run, from what was read of them;
* `main` — the program.
-/

import TextDiagram.CommandLine.Run

set_option relaxedAutoImplicit false
set_option autoImplicit false

namespace TextDiagram

/-- The files of a run, from what was read of them.  Whether a file can be written shows when it is
written. -/
def filesOf (userConfiguration : Option String) (contents : List (String × String)) : Files where
  isThere path := (contents.lookup path).isSome
  content path := (contents.lookup path).elim (.error .notFound) .ok
  obstacle _ := none
  userConfiguration := userConfiguration

/-- The usage of the program. -/
def usage : String :=
  "Usage: tandem [OPTIONS] <INPUT>\n\n" ++
  "  -o, --output <OUTPUT>        Path to the output SVG file [default: out.svg]\n" ++
  "  -c, --config <CONFIG>        Path to configuration file (TOML)\n" ++
  "      --engine <ENGINE>        Layout engine overriding the configuration\n" ++
  "                               (grid, hierarchical)\n" ++
  "      --print-source-map       Print the line-to-entity source map to stdout\n" ++
  "      --log-level <LOG_LEVEL>  Log level (off, error, warn, info, debug, trace)\n" ++
  "                               [default: info]\n" ++
  "  -h, --help                   Print help\n" ++
  "  -V, --version                Print version\n"

/-- What is said of a command line that cannot be followed. -/
def UsageError.message : UsageError → String
  | missingInput => "the following required arguments were not provided: <INPUT>"
  | missingValue => "a value is required but none was supplied"
  | unknownEngine => "invalid value for '--engine <ENGINE>'"
  | unknownArgument => "unexpected argument found"
  | repeated => "an argument cannot be used multiple times"
  | unexpectedValue => "unexpected value for an argument found; no more were expected"
  | help => usage
  | version => "tandem"

/-- The file with the configuration of the user. -/
def userConfigurationPath : IO (Option String) := do
  match ← IO.getEnv "XDG_CONFIG_HOME", ← IO.getEnv "HOME" with
  | some directory, _ => return some s!"{directory}/tandem/config.toml"
  | none, some home => return some s!"{home}/.config/tandem/config.toml"
  | none, none => return none

/-- What a file holds, if it can be read. -/
def contentOf? (path : String) : IO (Option (String × String)) := do
  try
    let content ← IO.FS.readFile path
    return some (path, content)
  catch _ => return none

/-- What the given files hold, without those that cannot be read. -/
def contentsOf (paths : List String) : IO (List (String × String)) := paths.filterMapM contentOf?

/-- Makes a run and says how it ended. -/
def runWith (arguments : Arguments) : IO UInt32 := do
  let user ← userConfigurationPath
  let paths := [arguments.configuration, some localConfiguration, user, some arguments.input]
  let files := filesOf user (← contentsOf paths.reduceOption)
  match run? files arguments with
  | none =>
      IO.eprintln "the placement does not end"
      return 1
  | some outcome =>
      IO.print outcome.printed
      if let some (path, picture) := outcome.written then
        IO.FS.writeFile path picture
      match outcome.problem with
      | none => return 0
      | some problem =>
          IO.eprintln problem.message
          return 1

end TextDiagram

/-- The program. -/
def main (line : List String) : IO UInt32 := do
  match TextDiagram.Arguments.read line with
  | .ok arguments =>
      try TextDiagram.runWith arguments
      catch error =>
        IO.eprintln (toString error)
        return 1
  | .error .help =>
      IO.print TextDiagram.usage
      return 0
  | .error .version =>
      IO.println "tandem"
      return 0
  | .error error =>
      IO.eprintln s!"error: {error.message}"
      return 2
