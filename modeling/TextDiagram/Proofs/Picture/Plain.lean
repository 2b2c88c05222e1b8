/-
**What is written of numbers and colors is plain.**

Of the texts in a picture only ids, labels and icons can hold any character.  Numbers, colors and
drawing commands are written with printable characters of ASCII.  For a named color this needs a
reason: a color remembers the name that it was written with, and such a name is one of a table.

Main definitions:

* `TextDiagram.Color.HasPlainName` — the name of a color, if it has one, is plain;
* `TextDiagram.Look.gray` — the look of the default, with colors that have no names.

Main results:

* `TextDiagram.Number.isPlain_text` — numbers are plain;
* `TextDiagram.Color.isPlain_css`, `TextDiagram.Color.isPlain_idSafe` — colors are plain if their
  names are;
* `TextDiagram.Color.hasPlainName_of_read`, `TextDiagram.Color.hasPlainName_resolve` — **the names
  of colors that are read are plain**.
-/

import Mathlib.Data.List.Basic
import TextDiagram.Picture.Drawing
import TextDiagram.Proofs.Color.Text
import TextDiagram.Proofs.Text.Characters

set_option relaxedAutoImplicit false
set_option autoImplicit false

namespace TextDiagram

/-! ### Numbers -/

namespace Number

/-- A number is plain. -/
@[simp] theorem isPlain_text (x : Float32) : IsPlain (text x) :=
  (hasOnly_text_iff (fun _ => isPlain_of_isAlphanum) (by decide) x).2 fun _ => by decide

end Number

/-! ### Drawing commands -/

@[simp] theorem Curve.isPlain_coordinates (p : Point Float32) : IsPlain (coordinates p) := by
  simp [coordinates, show IsPlain " " by decide]

theorem Curve.isPlain_pathData (curve : Curve Float32) : IsPlain curve.pathData := by
  cases curve with
  | quadratic start control finish =>
      simp [pathData, show IsPlain "M " by decide, show IsPlain " Q " by decide,
        show IsPlain ", " by decide]
  | cubic start control₁ control₂ finish =>
      simp [pathData, show IsPlain "M " by decide, show IsPlain " C " by decide,
        show IsPlain ", " by decide]

/-! ### Colors -/

namespace Color

/-- The name of a color, if it has one, is plain. -/
def HasPlainName (c : Color) : Prop := ∀ name, c.spelling = .name name → IsPlain name

variable {c : Color}

/-- A color is written plainly if its name is. -/
theorem isPlain_css (h : c.HasPlainName) : IsPlain c.css :=
  (hasOnly_css_iff (forall_isUsual (fun _ => isPlain_of_isAlphanum) (by decide)) h).2
    fun _ => by decide

/-- A color is made fit for an id plainly if its name is plain. -/
theorem isPlain_idSafe (h : c.HasPlainName) : IsPlain c.idSafe := by
  have hsafe : ∀ d ∈ c.css.toList.flatMap idSafeChar, isPlain d = true := by
    intro d hd
    obtain ⟨e, he, hd⟩ := List.mem_flatMap.1 hd
    unfold idSafeChar at hd
    split at hd
    · have hhex : IsPlain "hex" := by decide
      exact hhex d hd
    · split at hd
      · rw [List.mem_singleton.1 hd]
        decide
      · rw [List.mem_singleton.1 hd]
        exact isPlain_css h e he
  simp only [idSafe]
  split
  · intro d hd
    rw [String.toList_ofList] at hd
    split at hd
    · rcases List.mem_cons.1 hd with rfl | hd
      · decide
      · rcases List.mem_cons.1 hd with rfl | hd
        · decide
        · exact hsafe d hd
    · exact hsafe d hd
  · decide

/-! ### Names that are read -/

/-- The name of a color that is given is plain. -/
theorem IsGiven.hasPlainName (h : c.IsGiven) : c.HasPlainName :=
  fun name hname ch hch => isPlain_of_isAlphanum
    (isAlphanum_of_isAlpha (isAlpha_of_mem_knownNames name (h.hasKnownName name hname) ch hch))

/-- The name of a color that is read is plain. -/
theorem hasPlainName_of_read {text : String} (h : read text = .ok c) : c.HasPlainName :=
  (isGiven_of_read h).hasPlainName

/-- The name of a color that is resolved is plain, if that of the fallback is. -/
theorem hasPlainName_resolve {fallback : Color} (h : fallback.HasPlainName)
    (value : Option String) : (resolve value fallback).HasPlainName := by
  cases value with
  | none => exact h
  | some text =>
      rw [resolve]
      cases hread : read (Text.trimmed text) with
      | error flaw => exact h
      | ok c => exact hasPlainName_of_read hread

end Color

/-! ### The default -/

namespace Look

/-- The look that is set if nothing else is, on a machine with given fonts. -/
def gray (fonts : Fonts) : Look := ⟨none, Color.ofBytes .function 0x55 0x55 0x55 1, { fonts }⟩

theorem ofStyle_gray (fonts : Fonts) : ofStyle { fonts } = .ok (gray fonts) := by
  have hread : Color.read "#555555" = .ok (Color.ofBytes .function 0x55 0x55 0x55 1) := by
    decide +kernel
  have hedge : Style.edge { fonts } = .ok (Color.ofBytes .function 0x55 0x55 0x55 1) := by
    rw [Style.edge, hread]
  exact ofStyle_eq_ok_iff.2 ⟨rfl, hedge, rfl⟩

end Look

/-! ### Heads -/

/-- The id of a head of a color is plain if the name of the color is. -/
theorem Head.isPlain_id (head : Head) {color : Color} (h : color.HasPlainName) :
    IsPlain (head.id color) := by
  cases head with
  | left => simpa [Head.id] using ⟨by decide, Color.isPlain_idSafe h⟩
  | right => simpa [Head.id] using ⟨by decide, Color.isPlain_idSafe h⟩

end TextDiagram
