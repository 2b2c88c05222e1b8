/-
**The characters of colors.**

A color is written by its name, or as a function of numbers.  Apart from the numbers, the text is
made of letters, digits and a few marks; a hyphen can stand in it only as the minus sign of a number
or in the name of a color space.

Main definitions:

* `TextDiagram.Color.written` — the numbers in the text of a color;
* `TextDiagram.Color.hasHyphen` — a hyphen stands in the text of a color.

Main results:

* `TextDiagram.Color.hasOnly_legacyText_iff`, `TextDiagram.Color.hasOnly_modernText_iff` — the two
  forms of functions have the characters of their numbers;
* `TextDiagram.Color.form` — the forms in which colors are written;
* `TextDiagram.Color.hasOnly_css_iff` — **which characters the text of a color has**.
-/

import TextDiagram.Proofs.Color.Reading
import TextDiagram.Proofs.Number.Text

set_option relaxedAutoImplicit false
set_option autoImplicit false

namespace TextDiagram.Color

/-! ### Names -/

/-- The names of colors are words. -/
theorem isAlpha_of_mem_knownNames :
    ∀ name ∈ knownNames, HasOnly (fun ch => ch.isAlpha = true) name := by
  decide +kernel

/-- The name of a color, if it has one, is a known one. -/
def HasKnownName (c : Color) : Prop := ∀ name, c.spelling = .name name → name ∈ knownNames

theorem IsGiven.hasKnownName {c : Color} (h : c.IsGiven) : c.HasKnownName :=
  fun _ hname => (exists_eq_ofBytes_of_ofName? (h.ofName?_eq hname)).1

/-! ### Numbers -/

/-- The number that a component is written as, if it was not left out. -/
def Component.number? (scale : Float32) (x : Component) : Option Float32 :=
  if x.missing then none else some (x.value * scale)

/-- The numbers that are written of the components and the opacity. -/
def numbers (scale : Float32) (c : Color) : List Float32 :=
  [c.first, c.second, c.third].filterMap (Component.number? scale) ++
    if c.alpha < 1 then (c.opacity.number? 1).toList else []

/-- The numbers in the text of a color. -/
def written (c : Color) : List Float32 :=
  match c.spelling, c.space with
  | .name _, _ => []
  | .function, .srgb => c.numbers 255
  | .function, .hsl =>
      (c.withChannels (channelsOfHsl c.first.value c.second.value c.third.value)).numbers 255
  | .function, .hwb =>
      (c.withChannels (channelsOfHwb c.first.value c.second.value c.third.value)).numbers 255
  | _, _ => c.numbers 1

/-- Whether a hyphen stands in the name of a space. -/
def Space.isHyphenated : Space → Bool
  | linearSrgb | displayP3 | a98Rgb | prophotoRgb | xyzD50 | xyzD65 => true
  | _ => false

/-- Whether a hyphen stands in the text of a color: in the name of its space, or as a minus sign. -/
def hasHyphen (c : Color) : Bool :=
  match c.spelling with
  | .name _ => false
  | _ => c.space.isHyphenated || c.written.any Number.hasMinus

theorem forall_mem_numbers {p : Float32 → Prop} {scale : Float32} {c : Color} :
    (∀ v ∈ c.numbers scale, p v) ↔
      (∀ v ∈ c.first.number? scale, p v) ∧ (∀ v ∈ c.second.number? scale, p v) ∧
        (∀ v ∈ c.third.number? scale, p v) ∧ (c.alpha < 1 → ∀ v ∈ c.opacity.number? 1, p v) := by
  have hparts : (∀ v ∈ [c.first, c.second, c.third].filterMap (Component.number? scale), p v) ↔
      (∀ v ∈ c.first.number? scale, p v) ∧ (∀ v ∈ c.second.number? scale, p v) ∧
        (∀ v ∈ c.third.number? scale, p v) := by
    simp only [List.mem_filterMap, List.mem_cons, List.not_mem_nil, or_false, forall_exists_index,
      and_imp, forall_eq_or_imp, Option.mem_def, forall_eq, forall_and]
  rw [numbers, List.forall_mem_append, hparts, and_assoc, and_assoc]
  refine and_congr_right' (and_congr_right' (and_congr_right' ?_))
  split
  · next h => simp [h]
  · next h => simp [h]

theorem hasHyphen_eq {c : Color} (h : ∀ name, c.spelling ≠ .name name) :
    c.hasHyphen = (c.space.isHyphenated || c.written.any Number.hasMinus) := by
  unfold hasHyphen
  split
  · next name hname => exact absurd hname (h name)
  · rfl

/-! ### Forms -/

/-- What the functions with blanks open with, where the name of the space has no hyphen. -/
def openings : List String :=
  ["color(srgb ", "color(rec2020 ", "hwb(", "lab(", "lch(", "oklab(", "oklch("]

/-- What the functions with blanks open with, where the name of the space has a hyphen. -/
def hyphenatedOpenings : List String :=
  ["color(srgb-linear ", "color(display-p3 ", "color(a98-rgb ", "color(prophoto-rgb ",
    "color(xyz-d50 ", "color(xyz-d65 "]

/-- The forms in which a color is written. -/
inductive Form (c : Color) : Prop
  /-- A named color is its name. -/
  | name (name : String) (hspelling : c.spelling = .name name) (hcss : c.css = name)
  /-- A function with commas, perhaps of other components. -/
  | legacy (function : String) (scale : Float32) (d : Color)
      (hspelling : ∀ name, c.spelling ≠ .name name) (hspace : c.space.isHyphenated = false)
      (hfunction : function ∈ ["rgb", "hsl"]) (hopacity : d.opacity = c.opacity)
      (hcss : c.css = d.legacyText function scale) (hwritten : c.written = d.numbers scale)
  /-- A function with blanks. -/
  | modern (opening : String) (hspelling : ∀ name, c.spelling ≠ .name name)
      (hopening : if c.space.isHyphenated then opening ∈ hyphenatedOpenings
        else opening ∈ openings)
      (hcss : c.css = c.modernText opening) (hwritten : c.written = c.numbers 1)

/-- Every color is written in one of the forms. -/
theorem form (c : Color) : c.Form := by
  obtain ⟨space, spelling, first, second, third, opacity⟩ := c
  cases spelling with
  | name name => exact .name name rfl rfl
  | function =>
      let c : Color := ⟨space, .function, first, second, third, opacity⟩
      cases space
      case srgb => exact .legacy "rgb" 255 c nofun rfl (by decide) rfl rfl rfl
      case hsl =>
        let channels := channelsOfHsl first.value second.value third.value
        exact .legacy "rgb" 255 (c.withChannels channels) nofun rfl (by decide) rfl rfl rfl
      case hwb =>
        let channels := channelsOfHwb first.value second.value third.value
        exact .legacy "rgb" 255 (c.withChannels channels) nofun rfl (by decide) rfl rfl rfl
      all_goals exact .modern _ nofun (of_decide_eq_true rfl) rfl rfl
  | coordinates =>
      let c : Color := ⟨space, .coordinates, first, second, third, opacity⟩
      cases space
      case hsl => exact .legacy "hsl" 1 c nofun rfl (by decide) rfl rfl rfl
      all_goals exact .modern _ nofun (of_decide_eq_true rfl) rfl rfl

/-! ### Texts -/

/-- The marks that functions are written with. -/
def marks : String := "(),./ "

/-- Whether a character is a letter, a digit or a mark of functions. -/
def isUsual (ch : Char) : Bool := ch.isAlphanum || marks.toList.contains ch

theorem forall_isUsual {allowed : Char → Prop} (hletters : ∀ ch, ch.isAlphanum = true → allowed ch)
    (hmarks : HasOnly allowed marks) : ∀ ch, isUsual ch = true → allowed ch := by
  intro ch hch
  rw [isUsual, Bool.or_eq_true, List.contains_iff_mem] at hch
  exact hch.elim (hletters ch) (hmarks ch)

theorem isUsual_of_mem_openings :
    ∀ opening ∈ openings, HasOnly (fun ch => isUsual ch = true) opening := by
  decide

theorem eq_or_isUsual_of_mem_hyphenatedOpenings : ∀ opening ∈ hyphenatedOpenings,
    '-' ∈ opening.toList ∧ HasOnly (fun ch => ch = '-' ∨ isUsual ch = true) opening := by
  decide

section

variable {allowed : Char → Prop} (husual : ∀ ch, isUsual ch = true → allowed ch) {c : Color}

include husual

theorem hasOnly_of_isUsual {word : String} (h : HasOnly (fun ch => isUsual ch = true) word) :
    HasOnly allowed word := fun ch hch => husual ch (h ch hch)

/-- A word whose other characters are usual depends on its hyphen. -/
theorem hasOnly_hyphenated_iff {word : String} (hhyphen : '-' ∈ word.toList)
    (h : HasOnly (fun ch => ch = '-' ∨ isUsual ch = true) word) :
    HasOnly allowed word ↔ allowed '-' := by
  refine ⟨fun hall => hall _ hhyphen, fun hallowed ch hch => ?_⟩
  rcases h ch hch with rfl | hch
  · exact hallowed
  · exact husual ch hch

theorem hasOnly_component_iff {scale : Float32} {x : Component} :
    HasOnly allowed (x.text scale) ↔ ∀ v ∈ x.number? scale, HasOnly allowed (Number.text v) := by
  unfold Component.text Component.number?
  split
  · exact iff_of_true (hasOnly_of_isUsual husual (by decide)) (fun v hv => nomatch hv)
  · simp

/-- A function with commas has the characters of its numbers. -/
theorem hasOnly_legacyText_iff {function : String} (hfunction : HasOnly allowed function)
    (scale : Float32) : HasOnly allowed (c.legacyText function scale) ↔
      ∀ v ∈ c.numbers scale, HasOnly allowed (Number.text v) := by
  have hcomma : HasOnly allowed ", " := hasOnly_of_isUsual husual (by decide)
  have hopening : HasOnly allowed "(" := hasOnly_of_isUsual husual (by decide)
  have hopening' : HasOnly allowed "a(" := hasOnly_of_isUsual husual (by decide)
  have hclosing : HasOnly allowed ")" := hasOnly_of_isUsual husual (by decide)
  rw [forall_mem_numbers]
  simp only [← hasOnly_component_iff husual]
  unfold legacyText
  simp only [List.cons_append, List.nil_append, String.intercalate_cons_cons,
    String.intercalate_singleton]
  split
  · next h => simp [hfunction, hcomma, hopening', hclosing, h]
  · next h => simp [hfunction, hcomma, hopening, hclosing, h]

/-- A function with blanks has the characters of its opening and of its numbers. -/
theorem hasOnly_modernText_iff {opening : String} : HasOnly allowed (c.modernText opening) ↔
    HasOnly allowed opening ∧ ∀ v ∈ c.numbers 1, HasOnly allowed (Number.text v) := by
  have hblank : HasOnly allowed " " := hasOnly_of_isUsual husual (by decide)
  have hslash : HasOnly allowed " / " := hasOnly_of_isUsual husual (by decide)
  have hclosing : HasOnly allowed ")" := hasOnly_of_isUsual husual (by decide)
  rw [forall_mem_numbers]
  simp only [← hasOnly_component_iff husual]
  unfold modernText
  simp only [String.intercalate_cons_cons, String.intercalate_singleton]
  split
  · next h => simp [hblank, hslash, hclosing, h, and_assoc]
  · next h => simp [hblank, hclosing, h]

/-- The numbers of a text have usual characters, and a hyphen where they are written with a minus
sign. -/
theorem forall_mem_hasOnly_text_iff {numbers : List Float32} :
    (∀ v ∈ numbers, HasOnly allowed (Number.text v)) ↔
      (numbers.any Number.hasMinus = true → allowed '-') := by
  have hletters : ∀ ch, ch.isAlphanum = true → allowed ch :=
    fun ch hch => husual ch (by simp [isUsual, hch])
  have hpoint : allowed '.' := husual '.' (by decide)
  simp only [Number.hasOnly_text_iff hletters hpoint, List.any_eq_true, forall_exists_index,
    and_imp]

/-- **Which characters the text of a color has.**  Where the usual ones and those of a name are
allowed, it depends on the hyphen alone. -/
theorem hasOnly_css_iff (hname : ∀ name, c.spelling = .name name → HasOnly allowed name) :
    HasOnly allowed c.css ↔ (c.hasHyphen = true → allowed '-') := by
  cases c.form with
  | name name hspelling hcss =>
      rw [hcss, hasHyphen, hspelling]
      exact iff_of_true (hname name hspelling) (fun h => nomatch h)
  | legacy function scale d hspelling hspace hfunction hopacity hcss hwritten =>
      have hword : HasOnly allowed function := by
        have husual' : ∀ f ∈ ["rgb", "hsl"], HasOnly (fun ch => isUsual ch = true) f := by decide
        exact hasOnly_of_isUsual husual (husual' function hfunction)
      rw [hcss, hasOnly_legacyText_iff husual hword, forall_mem_hasOnly_text_iff husual,
        hasHyphen_eq hspelling, hspace, hwritten, Bool.false_or]
  | modern opening hspelling hopening hcss hwritten =>
      rw [hcss, hasOnly_modernText_iff husual, forall_mem_hasOnly_text_iff husual,
        hasHyphen_eq hspelling, hwritten]
      cases hspace : c.space.isHyphenated with
      | false =>
          rw [if_neg (by simp [hspace])] at hopening
          rw [Bool.false_or]
          exact and_iff_right (hasOnly_of_isUsual husual (isUsual_of_mem_openings _ hopening))
      | true =>
          rw [if_pos hspace] at hopening
          obtain ⟨hhyphen, hothers⟩ := eq_or_isUsual_of_mem_hyphenatedOpenings _ hopening
          rw [hasOnly_hyphenated_iff husual hhyphen hothers, Bool.true_or]
          exact ⟨fun h _ => h.1, fun h => ⟨h rfl, fun _ => h rfl⟩⟩

end

end TextDiagram.Color
