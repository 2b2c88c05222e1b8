/-
**Configuration files.**

A configuration file is a sequence of lines: headings, which open a table or a further item of an
array of tables, and keys with values, which go to the table opened last.

Main definitions:

* `TextDiagram.Toml.Line` — what a line of a file does;
* `TextDiagram.Toml.openTable`, `TextDiagram.Toml.openItem` — what a heading does to the tables;
* `TextDiagram.Toml.read?` — the settings of a file, if it keeps the rules of the format;
* `TextDiagram.Configuration.ofFile?` — the configuration of a file.
-/

import TextDiagram.Toml.Value

set_option relaxedAutoImplicit false
set_option autoImplicit false

namespace TextDiagram.Toml

/-! ### Lines -/

/-- What a line of a file does. -/
inductive Line where
  | heading (path : List String)
  | item (path : List String)
  | field (path : List String) (setting : Setting)

/-- A heading, after its first bracket. -/
def headingLine : Reading Line := do
  if ← word "[" then
    let path ← keyPath nesting
    expect "]]"
    return .item path
  else
    let path ← keyPath nesting
    expect "]"
    return .heading path

/-- A key with its value. -/
def fieldLine : Reading Line := do
  let path ← keyPath nesting
  expect "="
  skipBlanks
  let setting ← value nesting
  return .field path setting

/-- The lines of a file, at most `steps` of them. -/
def fileLines : Nat → Reading (List Line)
  | 0 => failure
  | steps + 1 => do
      skipLines ((← get).length + 1)
      match ← peek with
      | none => return []
      | some _ =>
          let line ← if ← word "[" then headingLine else fieldLine
          skipBlanks
          skipComment
          let ended ← lineEnd
          match ended, ← peek with
          | false, some _ => failure
          | _, _ => return line :: (← fileLines steps)

/-! ### Tables -/

/-- The fields with the table of a path changed.  The way to it leads through tables, and through
the last item of an array of tables; tables that are missing on the way are implied.  The table
itself is new, or was only implied before. -/
def openTable (change : Fields → Option Fields) : List String → Fields → Option Fields
  | [], _ => none
  | [key], all =>
      match all.lookup key with
      | none => (change []).map fun inner => all ++ [(key, .table .heading inner)]
      | some (.table .implied inner) =>
          (change inner).map fun inner => replace key (.table .heading inner) all
      | some _ => none
  | key :: rest, all =>
      match all.lookup key with
      | none =>
          (openTable change rest []).map fun inner => all ++ [(key, .table .implied inner)]
      | some (.table .closed _) => none
      | some (.table opening inner) =>
          (openTable change rest inner).map fun inner => replace key (.table opening inner) all
      | some (.tables items) =>
          match items.getLast? with
          | some (.table opening inner) =>
              (openTable change rest inner).map fun inner =>
                replace key (.tables (items.dropLast ++ [.table opening inner])) all
          | _ => none
      | some _ => none

/-- The fields with one more item in the array of tables of a path. -/
def openItem (change : Fields → Option Fields) : List String → Fields → Option Fields
  | [], _ => none
  | [key], all =>
      match all.lookup key with
      | none => (change []).map fun inner => all ++ [(key, .tables [.table .heading inner])]
      | some (.tables items) =>
          (change []).map fun inner =>
            replace key (.tables (items ++ [.table .heading inner])) all
      | some _ => none
  | key :: rest, all =>
      match all.lookup key with
      | none => (openItem change rest []).map fun inner => all ++ [(key, .table .implied inner)]
      | some (.table .closed _) => none
      | some (.table opening inner) =>
          (openItem change rest inner).map fun inner => replace key (.table opening inner) all
      | some (.tables items) =>
          match items.getLast? with
          | some (.table opening inner) =>
              (openItem change rest inner).map fun inner =>
                replace key (.tables (items.dropLast ++ [.table opening inner])) all
          | _ => none
      | some _ => none

/-! ### Files -/

/-- A table of a file: the way it is opened, and the fields that follow. -/
structure Section where
  heading : Option Line
  fields : List (List String × Setting)

/-- The tables of a file in order, the first one without a heading. -/
def sections : List Line → List Section
  | [] => [⟨none, []⟩]
  | .field path setting :: rest =>
      match sections rest with
      | ⟨none, fields⟩ :: others => ⟨none, (path, setting) :: fields⟩ :: others
      | others => ⟨none, [(path, setting)]⟩ :: others
  | heading :: rest =>
      match sections rest with
      | ⟨none, fields⟩ :: others => ⟨none, []⟩ :: ⟨some heading, fields⟩ :: others
      | others => ⟨none, []⟩ :: ⟨some heading, []⟩ :: others

/-- The fields of a table with further ones. -/
def assignAll (given : List (List String × Setting)) (fields : Fields) : Option Fields :=
  given.foldlM (fun fields (path, setting) => assign path setting fields) fields

/-- The settings with one more table. -/
def Section.apply (s : Section) (root : Fields) : Option Fields :=
  match s.heading with
  | some (.heading path) => openTable (assignAll s.fields) path root
  | some (.item path) => openItem (assignAll s.fields) path root
  | _ => assignAll s.fields root

/-- The settings of a file, if it keeps the rules of the format.  A byte order mark at its start
means nothing. -/
def read? (file : String) : Option Setting := do
  let text := match file.toList with
    | c :: rest => if c.toNat = 0xFEFF then rest else c :: rest
    | [] => []
  let (lines, _) ← (fileLines (text.length + 2)).run text
  let root ← (sections lines).foldlM (fun root s => s.apply root) []
  return .table .heading root

end TextDiagram.Toml

namespace TextDiagram

/-- The configuration of a file. -/
def Configuration.ofFile? (file : String) : Option Configuration :=
  (Toml.read? file).bind (Configuration.ofSetting? .toml)

end TextDiagram
