/-
**Blank characters and trimming.**

A line of a diagram is read after its surrounding blanks are dropped, and a keyword ends at the
first blank.  Blank means the Unicode property White_Space, so the no-break space and the
ideographic space count, while the zero-width space and the byte order mark do not.

Main definitions:

* `TextDiagram.Text.isBlank` — the White_Space property;
* `TextDiagram.Text.trim` — a text without the blanks at its two ends;
* `TextDiagram.Text.firstWord` — the first run of non-blank characters.

Main results:

* `TextDiagram.Text.trimStart_eq_self_iff`, `TextDiagram.Text.trim_nil` — when trimming changes
  nothing.
-/

set_option relaxedAutoImplicit false
set_option autoImplicit false

namespace TextDiagram.Text

/-! ### The White_Space property -/

/-- The code points of the White_Space property, as closed ranges in increasing order. -/
def blankRanges : List (Nat × Nat) :=
  [(0x9, 0xD), (0x20, 0x20), (0x85, 0x85), (0xA0, 0xA0), (0x1680, 0x1680), (0x2000, 0x200A),
    (0x2028, 0x2029), (0x202F, 0x202F), (0x205F, 0x205F), (0x3000, 0x3000)]

/-- A character is blank when its code point lies in one of the ranges. -/
def isBlank (c : Char) : Bool :=
  blankRanges.any fun (low, high) => low ≤ c.toNat && c.toNat ≤ high

/-! ### Trimming -/

/-- A text without its leading blanks. -/
def trimStart (text : List Char) : List Char := text.dropWhile isBlank

/-- A text without its trailing blanks. -/
def trimEnd (text : List Char) : List Char := (text.reverse.dropWhile isBlank).reverse

/-- A text without the blanks at its two ends. -/
def trim (text : List Char) : List Char := trimEnd (trimStart text)

/-- The first run of non-blank characters, empty when there is none. -/
def firstWord (text : List Char) : List Char := (trimStart text).takeWhile (!isBlank ·)

@[simp] theorem trimStart_nil : trimStart [] = [] := rfl

@[simp] theorem trim_nil : trim [] = [] := rfl

/-- Nothing is dropped from a text that does not start with a blank. -/
theorem trimStart_eq_self_iff {text : List Char} :
    trimStart text = text ↔ ∀ c, text.head? = some c → isBlank c = false := by
  cases text with
  | nil => simp [trimStart]
  | cons c rest =>
      cases h : isBlank c with
      | false => simp [trimStart, h]
      | true =>
          have hlen : (rest.dropWhile isBlank).length ≤ rest.length :=
            (List.dropWhile_sublist _).length_le
          simp only [trimStart, List.dropWhile_cons, h, List.head?_cons, Option.some.injEq,
            forall_eq', Bool.true_eq_false, iff_false, ↓reduceIte]
          intro heq
          have := congrArg List.length heq
          simp only [List.length_cons] at this
          omega

/-- The trimmed form of a string. -/
def trimmed (text : String) : String := String.ofList (trim text.toList)

end TextDiagram.Text
