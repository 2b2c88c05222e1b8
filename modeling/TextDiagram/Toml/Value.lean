/-
**The values of a configuration file.**

A configuration file is written in TOML.  This module reads what stands behind an equals sign:
strings in four forms, numbers, switches, dates, arrays and inline tables.  A value that breaks a
rule of the format is none.  A number may be as large as it likes; out of all range it stays in the
tree as a number of which no value is known.

Main definitions:

* `TextDiagram.Toml.Reading` — taking a value off the start of a text, if it is there;
* `TextDiagram.Toml.key`, `TextDiagram.Toml.keyPath` — keys and dotted keys;
* `TextDiagram.Toml.assign` — a dotted key with its value among the fields of a table;
* `TextDiagram.Toml.value` — values;
* `TextDiagram.Toml.nesting` — how deep values and keys may be nested.
-/

import TextDiagram.Configuration.Setting

set_option relaxedAutoImplicit false
set_option autoImplicit false

namespace TextDiagram.Toml

/-! ### Taking characters -/

/-- Reading takes a value off the start of a text, if it is there. -/
abbrev Reading := StateT (List Char) Option

/-- The next character, which stays. -/
def peek : Reading (Option Char) := fun text => some (text.head?, text)

/-- Whether a word comes next, which is then taken. -/
def word (w : String) : Reading Bool := fun text =>
  if w.toList.isPrefixOf text then some (true, text.drop w.toList.length) else some (false, text)

/-- Takes a word that has to come next. -/
def expect (w : String) : Reading Unit := do
  if !(← word w) then failure

/-- The longest run of characters that satisfy a condition. -/
def run (p : Char → Bool) : Reading (List Char) := fun text =>
  some (text.takeWhile p, text.dropWhile p)

/-- The next character, which is taken. -/
def take : Reading Char := fun text =>
  match text with
  | c :: rest => some (c, rest)
  | [] => none

/-- Drops spaces and tabs. -/
def skipBlanks : Reading Unit := do
  let _ ← run fun c => c = ' ' || c = '\t'

/-- Whether a line end comes next, which is then taken. -/
def lineEnd : Reading Bool := do
  if ← word "\r\n" then return true else word "\n"

/-- Whether a character may not stand in a file, apart from line ends. -/
def isControl (c : Char) : Bool := (c.toNat < 0x20 && c ≠ '\t') || c.toNat = 0x7F

/-- Drops a comment up to the end of its line. -/
def skipComment : Reading Unit := do
  if ← word "#" then
    let _ ← run fun c => !isControl c

/-- Drops blanks, line ends and comments, at most `steps` lines of them. -/
def skipLines : Nat → Reading Unit
  | 0 => pure ()
  | steps + 1 => do
      skipBlanks
      skipComment
      if ← lineEnd then skipLines steps

/-! ### Strings -/

/-- The character of a hexadecimal code point with a given number of digits. -/
def codePoint (size : Nat) : Reading Char := fun text =>
  match ((text.take size).map Color.hexValue?).mapM id with
  | some digits =>
      let n := digits.foldl (fun n d => 16 * n + d) 0
      if digits.length = size && Nat.isValidChar n then some (Char.ofNat n, text.drop size)
      else none
  | none => none

/-- The character that stands for an escape, after its backslash. -/
def escape : Reading Char := do
  match ← take with
  | 'b' => return '\x08'
  | 't' => return '\t'
  | 'n' => return '\n'
  | 'f' => return '\x0c'
  | 'r' => return '\r'
  | 'e' => return '\x1b'
  | '"' => return '"'
  | '\\' => return '\\'
  | 'x' => codePoint 2
  | 'u' => codePoint 4
  | 'U' => codePoint 8
  | _ => failure

/-- The rest of a string on one line, up to its quote. -/
def oneLine (quote : Char) (escapes : Bool) : Nat → List Char → Reading String
  | 0, _ => failure
  | steps + 1, seen => do
      let c ← take
      if c = quote then return String.ofList seen.reverse
      else if c = '\\' && escapes then oneLine quote escapes steps ((← escape) :: seen)
      else if isControl c then failure
      else oneLine quote escapes steps (c :: seen)

/-- Drops blanks and line ends, at most `steps` line ends. -/
def skipEmptyLines : Nat → Reading Unit
  | 0 => pure ()
  | steps + 1 => do
      skipBlanks
      if ← lineEnd then skipEmptyLines steps

/-- Drops the blanks and line ends after a backslash at the end of a line. -/
def continued : Reading Unit := do
  skipBlanks
  if !(← lineEnd) then failure
  skipEmptyLines ((← get).length + 1)

/-- The rest of a string over several lines, up to its three quotes.  One or two more quotes right
before them belong to the string, and so do its line ends as they are written. -/
def manyLines (quote : Char) (escapes : Bool) : Nat → List Char → Reading String
  | 0, _ => failure
  | steps + 1, seen => do
      let three := String.ofList [quote, quote, quote]
      if ← word three then
        let one := String.ofList [quote]
        let more := (if ← word one then 1 else 0) + (if ← word one then 1 else 0)
        return String.ofList (seen.reverse ++ List.replicate more quote)
      else if ← word "\r\n" then manyLines quote escapes steps ('\n' :: '\r' :: seen)
      else
        let c ← take
        if c = '\\' && escapes then
          match ← peek with
          | some next =>
              if next = ' ' || next = '\t' || next = '\r' || next = '\n' then
                continued
                manyLines quote escapes steps seen
              else manyLines quote escapes steps ((← escape) :: seen)
          | none => failure
        else if isControl c && c ≠ '\n' then failure
        else manyLines quote escapes steps (c :: seen)

/-- A string on one line, after its first quote. -/
def shortString (quote : Char) : Reading String := do
  oneLine quote (quote = '"') (← get).length []

/-- A string over several lines, after its first three quotes.  A line end right behind them does
not belong to it. -/
def longString (quote : Char) : Reading String := do
  let _ ← lineEnd
  manyLines quote (quote = '"') ((← get).length + 1) []

/-- A string in one of the four forms, if one comes next. -/
def string? : Reading (Option String) := do
  if ← word "\"\"\"" then return some (← longString '"')
  else if ← word "'''" then return some (← longString '\'')
  else if ← word "\"" then return some (← shortString '"')
  else if ← word "'" then return some (← shortString '\'')
  else return none

/-! ### Keys -/

/-- Whether a character can stand in a key without quotes. -/
def isKeyChar (c : Char) : Bool := c.isAlphanum || c = '_' || c = '-'

/-- A key, with or without quotes. -/
def key : Reading String := do
  if ← word "\"" then shortString '"'
  else if ← word "'" then shortString '\''
  else
    let name ← run isKeyChar
    if name.isEmpty then failure
    return String.ofList name

/-- How deep arrays and inline tables may be nested, and how many keys a dotted key may have. -/
def nesting : Nat := 80

/-- The keys of a dotted key, at most `steps` of them, with the blanks after the last one. -/
def keyPath : Nat → Reading (List String)
  | 0 => failure
  | steps + 1 => do
      skipBlanks
      let first ← key
      skipBlanks
      if ← word "." then return first :: (← keyPath steps) else return [first]

/-- The fields of a table. -/
abbrev Fields := List (String × Setting)

/-- The fields with the value of a key replaced. -/
def replace (key : String) (setting : Setting) (fields : Fields) : Fields :=
  fields.map fun (k, old) => if k = key then (k, setting) else (k, old)

/-- The fields with a value for a dotted key.  No key gets a second value.  The way to the key leads
through tables that were begun by dotted keys or as the way to another table, and through the last
item of an array of tables, which itself takes no value in this way. -/
def assign : List String → Setting → Fields → Option Fields
  | [], _, _ => none
  | [key], setting, fields =>
      match fields.lookup key with
      | none => some (fields ++ [(key, setting)])
      | some _ => none
  | key :: rest, setting, fields =>
      match fields.lookup key with
      | none => (assign rest setting []).map fun inner => fields ++ [(key, .table .dotted inner)]
      | some (.table opening inner) =>
          if opening = .dotted || opening = .implied then
            (assign rest setting inner).map fun inner =>
              replace key (.table opening inner) fields
          else none
      | some (.tables items) =>
          match items.getLast? with
          | some (.table opening inner) =>
              if rest.length = 1 then none
              else
                (assign rest setting inner).map fun inner =>
                  replace key (.tables (items.dropLast ++ [.table opening inner])) fields
          | _ => none
      | some _ => none

/-! ### Numbers -/

/-- The value of digits between single underscores, if they are well placed. -/
def digits? (base : Nat) (text : List Char) : Option Nat :=
  let groups := Text.pieces '_' text
  let value := fun (c : Char) => (Color.hexValue? c).filter (· < base)
  if groups.any List.isEmpty then none
  else (groups.flatten.mapM value).map fun digits => digits.foldl (fun n d => base * n + d) 0

/-- Whether decimal digits start with a zero that means nothing. -/
def hasIdleZero (text : List Char) : Bool :=
  match text with
  | '0' :: _ :: _ => true
  | _ => false

/-- The setting of an integer.  Its range is that of 128 bits, with or without a sign. -/
def ofInteger (n : Int) : Setting :=
  if -(Number.twoTo 127 : Int) ≤ n ∧ n < Number.twoTo 128 then .integer n else .excess

/-- The integer of a sign and decimal digits. -/
def integer? (negative : Bool) (text : List Char) : Option Setting :=
  if hasIdleZero text then none
  else (digits? 10 text).map fun n => ofInteger (if negative then -(n : Int) else n)

/-- The setting of a decimal that is written in digits. -/
def ofDecimal (x : Float) : Setting := if x.isInf then .excess else .decimal x

/-- The decimal of a sign, whole digits, a fraction and an exponent. -/
def decimal? (negative : Bool) (text : List Char) : Option Setting := do
  let (mantissa, power) := match Text.cutAround ['e'] (text.map Char.toLower) with
    | some (mantissa, power) => (mantissa, some power)
    | none => (text, none)
  let (whole, part) := match Text.cutAround ['.'] mantissa with
    | some (whole, part) => (whole, some part)
    | none => (mantissa, none)
  if hasIdleZero whole then failure
  let _ ← digits? 10 whole
  let part ← match part with
    | some part => (digits? 10 part).map fun _ => part
    | none => some []
  let exponent : Int ← match power with
    | some power =>
        let (down, digits) := Color.signed power
        (digits? 10 digits).map fun n => if down then -(n : Int) else n
    | none => some 0
  let shown := (whole ++ part).filter (· ≠ '_')
  let places := (part.filter (· ≠ '_')).length
  return ofDecimal (Number.doubleOfDecimal negative (Color.digitsValue shown) (exponent - places))

/-- A number from its text. -/
def number? (text : List Char) : Option Setting :=
  match text with
  | '0' :: 'x' :: digits => (digits? 16 digits).map fun n => ofInteger n
  | '0' :: 'o' :: digits => (digits? 8 digits).map fun n => ofInteger n
  | '0' :: 'b' :: digits => (digits? 2 digits).map fun n => ofInteger n
  | _ =>
      let (negative, unsigned) := Color.signed text
      let sign := fun (x : Float) => Setting.decimal (if negative then -x else x)
      if unsigned = "inf".toList then
        some (sign (Float.ofBits (Number.Format.double.infinity false).toUInt64))
      else if unsigned = "nan".toList then
        some (sign (Float.ofBits Number.Format.double.quiet.toUInt64))
      else if unsigned.any fun c => c = '.' || c = 'e' || c = 'E' then decimal? negative unsigned
      else integer? negative unsigned

/-! ### Dates -/

/-- Digits of a fixed number with a value within bounds. -/
def isField (size low high : Nat) (text : List Char) : Bool :=
  text.length = size && text.all Char.isDigit && low ≤ Color.digitsValue text &&
    Color.digitsValue text ≤ high

/-- The days of a month. -/
def daysIn (year month : Nat) : Nat :=
  if month = 2 then
    if year % 4 = 0 && (year % 100 ≠ 0 || year % 400 = 0) then 29 else 28
  else if month = 4 || month = 6 || month = 9 || month = 11 then 30 else 31

/-- Whether a text is a date. -/
def isDate (text : List Char) : Bool :=
  match Text.pieces '-' text with
  | [year, month, day] =>
      isField 4 0 9999 year && isField 2 1 12 month &&
        isField 2 1 (daysIn (Color.digitsValue year) (Color.digitsValue month)) day
  | _ => false

/-- Whether a text is a time of a day, with or without seconds. -/
def isTime (text : List Char) : Bool :=
  match Text.pieces ':' text with
  | [hour, minute] => isField 2 0 23 hour && isField 2 0 59 minute
  | [hour, minute, second] =>
      let whole := second.takeWhile (· ≠ '.')
      let part := second.dropWhile (· ≠ '.')
      isField 2 0 23 hour && isField 2 0 59 minute && isField 2 0 60 whole &&
        (part.isEmpty || (part.length ≠ 1 && (part.drop 1).all Char.isDigit))
  | _ => false

/-- Whether a text is the distance of a clock from the universal time. -/
def isOffset (text : List Char) : Bool :=
  match text with
  | [c] => c = 'Z' || c = 'z'
  | c :: rest =>
      (c = '+' || c = '-') &&
        match Text.pieces ':' rest with
        | [hour, minute] => isField 2 0 23 hour && isField 2 0 59 minute
        | _ => false
  | [] => true

/-- Whether a text is a date, a time, or both with or without an offset. -/
def isMoment (text : List Char) : Bool :=
  if isDate text || isTime text then true
  else
    let date := text.take 10
    match text.drop 10 with
    | c :: clock =>
        let time := clock.takeWhile fun c => c.isDigit || c = ':' || c = '.'
        isDate date && (c = 'T' || c = 't' || c = ' ') && isTime time &&
          isOffset (clock.drop time.length)
    | [] => false

/-! ### Values -/

/-- Whether a character can stand in a number, a switch or a date. -/
def isWordChar (c : Char) : Bool :=
  c.isAlphanum || c = '_' || c = '-' || c = '+' || c = '.' || c = ':'

/-- A number, a switch or a date.  A date may be followed by one blank and a time. -/
def plain : Reading Setting := do
  let first ← run isWordChar
  let text ← get
  let follows := isDate first &&
    match text with
    | ' ' :: c :: _ => c.isDigit
    | _ => false
  let all ← if follows then
      let _ ← take
      let second ← run isWordChar
      pure (first ++ ' ' :: second)
    else pure first
  if all = "true".toList then return .flag true
  else if all = "false".toList then return .flag false
  else if isMoment all then return .moment
  else
    match number? all with
    | some setting => return setting
    | none => failure

/-- A value that holds no other values. -/
def scalar : Reading Setting := do
  match ← string? with
  | some text => return .text text
  | none => plain

/-- The items of an array after its bracket or a comma, for a given reader of the values inside.
Line ends and comments may stand between them, and a comma behind the last one. -/
def items (inside : Reading Setting) : Nat → Reading (List Setting)
  | 0 => failure
  | steps + 1 => do
      skipLines (← get).length
      if ← word "]" then return []
      let first ← inside
      skipLines (← get).length
      if ← word "," then return first :: (← items inside steps)
      expect "]"
      return [first]

/-- The fields of an inline table after its brace or a comma, in the same way.  Line ends and
comments may also stand on both sides of an equals sign. -/
def fields (inside : Reading Setting) : Nat → Fields → Reading Fields
  | 0, _ => failure
  | steps + 1, seen => do
      skipLines (← get).length
      if ← word "\x7d" then return seen
      let path ← keyPath nesting
      skipLines (← get).length
      expect "="
      skipLines (← get).length
      let setting ← inside
      skipLines (← get).length
      match assign path setting seen with
      | none => failure
      | some more =>
          if ← word "," then fields inside steps more
          else
            expect "\x7d"
            return more

/-- A value, with arrays and inline tables nested at most `depth` deep. -/
def value : Nat → Reading Setting
  | 0 => scalar
  | depth + 1 => do
      if ← word "[" then return .list (← items (value depth) (← get).length)
      else if ← word "\x7b" then
        return .table .closed (← fields (value depth) (← get).length [])
      else scalar

end TextDiagram.Toml
