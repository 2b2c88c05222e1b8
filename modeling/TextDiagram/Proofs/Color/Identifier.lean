/-
**Ids made of colors.**

An id made of the text of a color starts with a letter, since the text does: it is a word, or a
function that is named by a word.  Most of the other characters that the text can have are not fit
for an id and are written otherwise.  The hyphen is the one that stays, so an id is safe exactly if
the text of the color has none.

Main definitions:

* `TextDiagram.IsSafeId` — a text has letters, digits and underscores only and starts with a letter;
* `TextDiagram.Color.faded` — a color, with another opacity if one is given.

Main results:

* `TextDiagram.Color.startsWithLetter_css` — the text of a color starts with a letter;
* `TextDiagram.Color.toList_idSafe` — so its id is written without a prefix;
* `TextDiagram.Color.hasOnly_idSafe_iff` — which characters the id of a color has;
* `TextDiagram.Color.isSafeId_idSafe_iff` — **when the id of a color is safe**.
-/

import TextDiagram.Proofs.Color.Text

set_option relaxedAutoImplicit false
set_option autoImplicit false

namespace TextDiagram

/-! ### Ids -/

/-- A text starts with a letter. -/
def StartsWithLetter (text : String) : Prop := text.toList.head?.any Char.isAlpha = true

instance (text : String) : Decidable (StartsWithLetter text) := inferInstanceAs (Decidable (_ = _))

theorem startsWithLetter_iff {text : String} : StartsWithLetter text ↔
    ∃ first rest, text.toList = first :: rest ∧ first.isAlpha = true := by
  unfold StartsWithLetter
  cases text.toList with
  | nil => simp
  | cons first rest => simp

theorem StartsWithLetter.append {text : String} (h : StartsWithLetter text) (other : String) :
    StartsWithLetter (text ++ other) := by
  obtain ⟨first, rest, htext, hfirst⟩ := startsWithLetter_iff.1 h
  refine startsWithLetter_iff.2 ⟨first, rest ++ other.toList, ?_, hfirst⟩
  rw [String.toList_append, htext, List.cons_append]

/-- No letter is a digit. -/
theorem isDigit_eq_false_of_isAlpha {ch : Char} (h : ch.isAlpha = true) : ch.isDigit = false := by
  rw [Bool.eq_false_iff]
  intro hdigit
  have hletter := toNat_of_isAlpha h
  have hrange := toNat_of_isDigit hdigit
  omega

/-- A character may stand in a safe id. -/
def isSafeInIds (c : Char) : Bool := c.isAlphanum || c = '_'

/-- A text has letters, digits and underscores only, and starts with a letter. -/
def IsSafeId (text : String) : Prop :=
  StartsWithLetter text ∧ HasOnly (fun c => isSafeInIds c = true) text

instance (text : String) : Decidable (IsSafeId text) := inferInstanceAs (Decidable (_ ∧ _))

namespace Color

variable {c : Color}

/-! ### The first character -/

theorem startsWithLetter_of_mem_knownNames : ∀ name ∈ knownNames, StartsWithLetter name := by
  decide +kernel

theorem startsWithLetter_of_mem_openings :
    ∀ opening ∈ openings ++ hyphenatedOpenings, StartsWithLetter opening := by
  decide

/-- The text of a color starts with a letter. -/
theorem startsWithLetter_css (h : c.HasKnownName) : StartsWithLetter c.css := by
  cases c.form with
  | name name hspelling hcss =>
      exact hcss ▸ startsWithLetter_of_mem_knownNames name (h name hspelling)
  | legacy function scale d hspelling hspace hfunction hopacity hcss hwritten =>
      have hword : StartsWithLetter function :=
        (by decide : ∀ f ∈ ["rgb", "hsl"], StartsWithLetter f) function hfunction
      rw [hcss]
      simp only [legacyText, String.append_assoc, toString]
      split
      · exact hword.append _
      · exact hword.append _
  | modern opening hspelling hopening hcss hwritten =>
      have hword : StartsWithLetter opening := by
        refine startsWithLetter_of_mem_openings opening (List.mem_append.2 ?_)
        split at hopening
        · exact .inr hopening
        · exact .inl hopening
      rw [hcss]
      simp only [modernText, String.append_assoc, toString]
      split
      · exact hword.append _
      · exact hword.append _

/-! ### The other characters -/

/-- A letter is written as it is. -/
theorem idSafeChar_of_isAlphanum {ch : Char} (h : ch.isAlphanum = true) : idSafeChar ch = [ch] := by
  have hmarks : ('#' :: unsafeInIds).all (fun mark => !mark.isAlphanum) = true := by decide
  have hch : ch ∉ '#' :: unsafeInIds := by
    intro hmem
    have hnot := List.all_eq_true.1 hmarks ch hmem
    rw [h] at hnot
    exact Bool.false_ne_true hnot
  rw [List.mem_cons, not_or] at hch
  rw [idSafeChar, if_neg hch.1, if_neg (by simpa using hch.2)]

/-- An id made of a text that starts with a letter has no prefix. -/
theorem toList_idSafe (h : c.HasKnownName) : c.idSafe.toList = c.css.toList.flatMap idSafeChar := by
  obtain ⟨first, rest, htext, hfirst⟩ := startsWithLetter_iff.1 (startsWithLetter_css h)
  have hkept : idSafeChar first = [first] := idSafeChar_of_isAlphanum (isAlphanum_of_isAlpha hfirst)
  simp only [idSafe, htext, List.flatMap_cons, hkept, List.singleton_append,
    isDigit_eq_false_of_isAlpha hfirst, Bool.false_eq_true, if_false, String.toList_ofList]

/-- The id of a color starts with a letter. -/
theorem startsWithLetter_idSafe (h : c.HasKnownName) : StartsWithLetter c.idSafe := by
  obtain ⟨first, rest, htext, hfirst⟩ := startsWithLetter_iff.1 (startsWithLetter_css h)
  refine startsWithLetter_iff.2 ⟨first, rest.flatMap idSafeChar, ?_, hfirst⟩
  rw [toList_idSafe h, htext, List.flatMap_cons,
    idSafeChar_of_isAlphanum (isAlphanum_of_isAlpha hfirst), List.singleton_append]

/-- **Which characters the id of a color has.** -/
theorem hasOnly_idSafe_iff {allowed : Char → Prop}
    (hsafe : ∀ ch, isSafeInIds ch = true → allowed ch)
    (h : c.HasKnownName) : HasOnly allowed c.idSafe ↔ (c.hasHyphen = true → allowed '-') := by
  have hletters : ∀ ch, ch.isAlphanum = true → ∀ d ∈ idSafeChar ch, allowed d := by
    intro ch hch d hd
    rw [idSafeChar_of_isAlphanum hch, List.mem_singleton] at hd
    exact hd ▸ hsafe ch (by rw [isSafeInIds, hch, Bool.true_or])
  have hreplaced : HasOnly (fun ch => (idSafeChar ch).all isSafeInIds = true) marks := by decide
  have husual : ∀ ch, isUsual ch = true → ∀ d ∈ idSafeChar ch, allowed d :=
    forall_isUsual hletters fun ch hch d hd =>
      hsafe d (List.all_eq_true.1 (hreplaced ch hch) d hd)
  have hname : ∀ name, c.spelling = .name name →
      HasOnly (fun ch => ∀ d ∈ idSafeChar ch, allowed d) name := by
    intro name hname ch hch
    have hletter := isAlpha_of_mem_knownNames name (h name hname) ch hch
    exact hletters ch (isAlphanum_of_isAlpha hletter)
  calc HasOnly allowed c.idSafe
      ↔ HasOnly (fun ch => ∀ d ∈ idSafeChar ch, allowed d) c.css := by
        rw [HasOnly, toList_idSafe h, List.forall_mem_flatMap, HasOnly]
    _ ↔ (c.hasHyphen = true → ∀ d ∈ idSafeChar '-', allowed d) := hasOnly_css_iff husual hname
    _ ↔ (c.hasHyphen = true → allowed '-') := by
        rw [show idSafeChar '-' = ['-'] from rfl, List.forall_mem_singleton]

/-! ### Safe ids -/

/-- A color, with another opacity if one is given. -/
def faded (c : Color) (alpha? : Option Float32) : Color := alpha?.elim c c.withAlpha

theorem HasKnownName.faded (h : c.HasKnownName) (alpha? : Option Float32) :
    (c.faded alpha?).HasKnownName := by
  cases alpha? with
  | none => exact h
  | some alpha =>
      simp only [Color.faded, Option.elim_some, withAlpha]
      split
      · exact h
      · exact nofun

/-- **When the id of a color is safe.**  It starts with a letter and has no characters but letters,
digits, underscores and hyphens; it is safe exactly if the text of the color has no hyphen. -/
theorem isSafeId_idSafe_iff {text : String} (h : read text = .ok c) (alpha? : Option Float32) :
    StartsWithLetter (c.faded alpha?).idSafe ∧
      HasOnly (fun ch => isSafeInIds ch = true ∨ ch = '-') (c.faded alpha?).idSafe ∧
      (IsSafeId (c.faded alpha?).idSafe ↔ (c.faded alpha?).hasHyphen = false) := by
  have hknown : (c.faded alpha?).HasKnownName := (isGiven_of_read h).hasKnownName.faded alpha?
  have hstart := startsWithLetter_idSafe hknown
  refine ⟨hstart, (hasOnly_idSafe_iff (fun ch => .inl) hknown).2 fun _ => .inr rfl, ?_⟩
  have hhyphen : ¬isSafeInIds '-' = true := by decide
  rw [IsSafeId, and_iff_right hstart, hasOnly_idSafe_iff (fun ch => id) hknown,
    imp_iff_not hhyphen, Bool.not_eq_true]

/-- A color with a minus sign: its id keeps the sign. -/
def grass : Color :=
  ⟨.lab, .function, ⟨50, false⟩, ⟨-20, false⟩, ⟨30, false⟩, ⟨1, false⟩⟩

theorem not_isSafeId_faded_grass :
    read "lab(50 -20 30)" = .ok grass ∧ (grass.faded none).hasHyphen = true ∧
      (grass.faded (some 0.5)).idSafe = "lab_50_-20_30___0_5_" ∧
      ¬IsSafeId (grass.faded none).idSafe := by
  have hread : read "lab(50 -20 30)" = .ok grass := by decide +kernel
  have hhyphen : (grass.faded none).hasHyphen = true := by decide +kernel
  refine ⟨hread, hhyphen, by decide +kernel, fun hsafe => ?_⟩
  exact Bool.false_ne_true (((isSafeId_idSafe_iff hread none).2.2.1 hsafe).symm.trans hhyphen)

/-- Not every id that is made of a color is safe. -/
theorem not_forall_isSafeId_idSafe : ¬∀ text c, read text = .ok c → ∀ alpha? : Option Float32,
    IsSafeId (c.faded alpha?).idSafe := by
  intro hall
  have hread : read "lab(50 -20 30)" = .ok grass := by decide +kernel
  have hunsafe : ¬IsSafeId (grass.faded none).idSafe := by decide +kernel
  exact hunsafe (hall _ _ hread none)

end Color

end TextDiagram
