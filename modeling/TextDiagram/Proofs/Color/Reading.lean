/-
**How colors are given.**

However a color is written, it is read in one of three ways: by its name from a table, from bytes in
hexadecimal digits, or from the arguments of a function.  What holds of the colors that are made in
these ways holds of every color that is read.

Main definitions:

* `TextDiagram.Color.IsGiven` — the ways to make a color;
* `TextDiagram.Color.knownNames` — the names that colors are found by.

Main results:

* `TextDiagram.Color.isGiven_of_read` — **every color that is read was made in one of them**;
* `TextDiagram.Color.IsGiven.ofName?_eq`, `TextDiagram.Color.IsGiven.opacity_eq_zero` — what a color
  remembers of its name and of an opacity that was left out.
-/

import TextDiagram.Color.Reader

set_option relaxedAutoImplicit false
set_option autoImplicit false

namespace TextDiagram.Color

variable {c : Color}

/-! ### Ways to make a color -/

/-- How a color that is read was made. -/
inductive IsGiven : Color → Prop
  | named {name : String} {c : Color} (h : ofName? name = some c) : IsGiven c
  | digits (red green blue : Nat) (opacity : Float32) :
      IsGiven (ofBytes .function red green blue opacity)
  | arguments (space : Space) (spelling : Spelling) (h : ∀ name, spelling ≠ .name name)
      (x y z opacity : Option Float) : IsGiven (ofArguments space spelling x y z opacity)

theorem mem_of_lookup_eq_some {β : Type} {entries : List (String × β)} {key : String} {b : β}
    (h : entries.lookup key = some b) : (key, b) ∈ entries := by
  obtain ⟨before, after, rfl, -⟩ := List.lookup_eq_some_iff.1 h
  exact List.mem_append_right _ List.mem_cons_self

/-- The names of colors: that of the color that cannot be seen, and those in the table. -/
def knownNames : List String := "transparent" :: names.map Prod.fst

/-- What is found by a name: a color of bytes that is written by this name. -/
theorem exists_eq_ofBytes_of_ofName? {name : String} (h : ofName? name = some c) :
    name ∈ knownNames ∧ ∃ red green blue opacity,
      c = ofBytes (.name name) red green blue opacity := by
  unfold ofName? at h
  split at h
  · next hname =>
      exact ⟨hname ▸ List.mem_cons_self, _, _, _, _, (Option.some.inj h).symm⟩
  · obtain ⟨bytes, hbytes, rfl⟩ := Option.map_eq_some_iff.1 h
    have hmem := List.mem_map_of_mem (f := Prod.fst) (mem_of_lookup_eq_some hbytes)
    exact ⟨List.mem_cons_of_mem _ hmem, _, _, _, _, rfl⟩

/-- The table gives a color the name that it is found by. -/
theorem spelling_of_ofName? {name : String} (h : ofName? name = some c) :
    c.spelling = .name name := by
  obtain ⟨-, red, green, blue, opacity, rfl⟩ := exists_eq_ofBytes_of_ofName? h
  rfl

/-- The opacity of a color in the table is given. -/
theorem missing_of_ofName? {name : String} (h : ofName? name = some c) :
    c.opacity.missing = false := by
  obtain ⟨-, red, green, blue, opacity, rfl⟩ := exists_eq_ofBytes_of_ofName? h
  rfl

/-- A named color is the one in the table. -/
theorem IsGiven.ofName?_eq (h : c.IsGiven) {name : String} (hname : c.spelling = .name name) :
    ofName? name = some c := by
  cases h with
  | named hfound =>
      rw [spelling_of_ofName? hfound] at hname
      exact Spelling.name.inj hname ▸ hfound
  | digits red green blue opacity => exact nomatch hname
  | arguments space spelling hspelling x y z opacity => exact absurd hname (hspelling name)

/-- An opacity that was left out counts as zero. -/
theorem IsGiven.opacity_eq_zero (h : c.IsGiven) (hmissing : c.opacity.missing = true) :
    c.opacity.value = 0 := by
  cases h with
  | named hfound =>
      rw [missing_of_ofName? hfound] at hmissing
      exact nomatch hmissing
  | digits red green blue opacity => exact nomatch hmissing
  | arguments space spelling hspelling x y z opacity =>
      cases opacity with
      | none => rfl
      | some value => exact nomatch hmissing

/-! ### Readings -/

/-- Whatever a reading takes off a text is a color that was made in one of the ways. -/
def Gives (reading : Reading Color) : Prop :=
  ∀ text c rest, reading text = .ok (c, rest) → c.IsGiven

theorem Gives.bind {β : Type} {reading : Reading β} {next : β → Reading Color}
    (h : ∀ b, Gives (next b)) : Gives (reading >>= next) := by
  intro text c rest hc
  simp only [Bind.bind, StateT.bind, Except.bind] at hc
  split at hc
  · exact nomatch hc
  · exact h _ _ c rest hc

theorem gives_pure (h : c.IsGiven) : Gives (pure c) := by
  intro text d rest hd
  obtain ⟨rfl, -⟩ := Prod.mk.inj (Except.ok.inj hd)
  exact h

/-- The functions make colors of their arguments. -/
theorem gives_of_mem_functions {p : String × Reading Color} (h : p ∈ functions) : Gives p.2 := by
  have hfunction : ∀ space x y z opacity,
      Gives (pure (ofArguments space .function x y z opacity)) :=
    fun space x y z opacity => gives_pure (.arguments space .function nofun x y z opacity)
  have hcoordinates : ∀ space x y z opacity,
      Gives (pure (ofArguments space .coordinates x y z opacity)) :=
    fun space x y z opacity => gives_pure (.arguments space .coordinates nofun x y z opacity)
  have hrgb : Gives rgbArguments := by
    unfold rgbArguments
    repeat' refine Gives.bind fun _ => ?_
    exact hfunction _ _ _ _ _
  have hhsl : Gives hslArguments := by
    unfold hslArguments
    repeat' refine Gives.bind fun _ => ?_
    exact hfunction _ _ _ _ _
  have hhwb : Gives hwbArguments := by
    unfold hwbArguments
    repeat' refine Gives.bind fun _ => ?_
    exact hfunction _ _ _ _ _
  have haxes : ∀ space lightest percent, Gives (axesArguments space lightest percent) := by
    intro space lightest percent
    unfold axesArguments
    repeat' refine Gives.bind fun _ => ?_
    exact hfunction _ _ _ _ _
  have hpolar : ∀ space lightest percent, Gives (polarArguments space lightest percent) := by
    intro space lightest percent
    unfold polarArguments
    repeat' refine Gives.bind fun _ => ?_
    exact hfunction _ _ _ _ _
  have hcolor : Gives coordinateArguments := by
    unfold coordinateArguments
    repeat' refine Gives.bind fun _ => ?_
    exact hcoordinates _ _ _ _ _
  have hall : ∀ p ∈ functions, Gives p.2 := by
    simp only [functions, List.forall_mem_cons, List.not_mem_nil, false_imp_iff, implies_true,
      hrgb, hhsl, hhwb, haxes, hpolar, hcolor, and_true]
  exact hall p h

/-- Hexadecimal digits make a color of bytes. -/
theorem gives_ofHex : Gives ofHex := by
  intro text c rest hc
  simp only [ofHex] at hc
  split at hc
  all_goals first
    | obtain ⟨rfl, -⟩ := Prod.mk.inj (Except.ok.inj hc)
      exact .digits _ _ _ _
    | cases hc

theorem gives_start : Gives start := by
  intro text c rest hc
  unfold start at hc
  split at hc
  · exact gives_ofHex _ _ _ hc
  · split at hc
    · cases hc
    · split at hc
      · next hlookup _ => exact gives_of_mem_functions (mem_of_lookup_eq_some hlookup) _ _ _ hc
      · cases hc
      · split at hc
        · next hname =>
            obtain ⟨rfl, -⟩ := Prod.mk.inj (Except.ok.inj hc)
            exact .named hname
        · cases hc

/-- **Every color that is read was made in one of the three ways.** -/
theorem isGiven_of_read {text : String} (h : read text = .ok c) : c.IsGiven := by
  unfold read at h
  split at h
  · next hstart =>
      obtain rfl := Except.ok.inj h
      exact gives_start _ _ _ hstart
  · exact nomatch h
  · exact nomatch h

/-- A color that is resolved was given if the fallback was. -/
theorem isGiven_resolve {fallback : Color} (h : fallback.IsGiven) (value : Option String) :
    (resolve value fallback).IsGiven := by
  cases value with
  | none => exact h
  | some text =>
      rw [resolve]
      cases hread : read (Text.trimmed text) with
      | error flaw => exact h
      | ok c => exact isGiven_of_read hread

end TextDiagram.Color
