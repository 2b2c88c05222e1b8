/-
**When properties are read back.**

A property is written as a key, a colon and a value, and properties are written one after the other
with commas between them.  Nothing is quoted, so a key ends at its first colon and a value at the
next comma; properties that keep to this are read back one by one.  Of the properties with one key
the last one counts, and if its value is empty, the node has none.

Main definitions:

* `TextDiagram.IsProperty` — the keys and values that can be told from what is around them;
* `TextDiagram.lastValue?` — the value of the last property with a key;
* `TextDiagram.NodeStatement.ofProperties` — the node that properties describe.

Main results:

* `TextDiagram.properties_propertyList` — **properties are read back**;
* `TextDiagram.NodeStatement.withProperties_eq_ofProperties` — **the last one of a key counts**;
* `TextDiagram.Statement.ofLine?_propertyBlock` — the line of a node with properties;
* `TextDiagram.Statement.ofLine?_value` — the values that the line of a node keeps.
-/

import TextDiagram.Proofs.Statement.Declaration

set_option relaxedAutoImplicit false
set_option autoImplicit false

namespace TextDiagram

open Text

/-! ### Properties as they are written -/

/-- A key and a value that can be told from what is around them. -/
structure IsProperty (key value : String) : Prop where
  /-- There are no blanks at the ends of the key. -/
  keyTrimmed : IsTrimmed key.toList
  /-- There are no blanks at the ends of the value. -/
  valueTrimmed : IsTrimmed value.toList
  /-- The key holds no colon, which would end it. -/
  noColon : ':' ∉ key.toList
  /-- Nor does it hold a comma, which would end the property. -/
  keyNoComma : ',' ∉ key.toList
  /-- The value holds no comma either. -/
  valueNoComma : ',' ∉ value.toList

theorem isProperty_iff {key value : String} : IsProperty key value ↔
    (IsTrimmed key.toList ∧ IsTrimmed value.toList) ∧
      ':' ∉ key.toList ∧ ',' ∉ key.toList ∧ ',' ∉ value.toList :=
  ⟨fun h => ⟨⟨h.keyTrimmed, h.valueTrimmed⟩, h.noColon, h.keyNoComma, h.valueNoComma⟩,
    fun h => ⟨h.1.1, h.1.2, h.2.1, h.2.2.1, h.2.2.2⟩⟩

instance (key value : String) : Decidable (IsProperty key value) :=
  decidable_of_iff _ isProperty_iff.symm

/-- Properties as they are written one after the other. -/
def propertyList (given : List (String × String)) : String :=
  ", ".intercalate (given.map fun property => propertyText property.1 property.2)

variable {key value name : String} {given : List (String × String)}

theorem toList_propertyText (key value : String) :
    (propertyText key value).toList = key.toList ++ ':' :: ' ' :: value.toList := by
  simp [propertyText, toString]

@[simp] theorem propertyList_singleton (property : String × String) :
    propertyList [property] = propertyText property.1 property.2 := by
  simp [propertyList]

theorem toList_propertyList_cons_cons (first second : String × String)
    (given : List (String × String)) :
    (propertyList (first :: second :: given)).toList =
      (propertyText first.1 first.2).toList ++
        ',' :: ' ' :: (propertyList (second :: given)).toList := by
  simp [propertyList, String.intercalate_cons_cons]

/-- The line of a node with properties is its name with the properties in brackets. -/
theorem toList_line_propertyBlock (name : String) (given : List (String × String)) :
    (name ++ " " ++ propertyBlock given).toList = bracketed name (propertyList given).toList := by
  simp [propertyBlock, propertyList, bracketed]

theorem isUnconnected_propertyText (hkey : IsUnconnected key.toList)
    (hvalue : IsUnconnected value.toList) : IsUnconnected (propertyText key value).toList := by
  rw [toList_propertyText, isUnconnected_append, isUnconnected_cons, isUnconnected_cons]
  exact ⟨hkey, by decide, by decide, hvalue⟩

theorem isUnconnected_propertyList
    (h : ∀ property ∈ given, IsUnconnected property.1.toList ∧ IsUnconnected property.2.toList) :
    IsUnconnected (propertyList given).toList := by
  induction given with
  | nil => decide
  | cons first given ih =>
      have hfirst := h first List.mem_cons_self
      have hgiven := ih fun property hproperty => h property (List.mem_cons_of_mem _ hproperty)
      have htext := isUnconnected_propertyText hfirst.1 hfirst.2
      cases given with
      | nil => rwa [propertyList_singleton]
      | cons second given =>
          rw [toList_propertyList_cons_cons, isUnconnected_append, isUnconnected_cons,
            isUnconnected_cons]
          exact ⟨htext, by decide, by decide, hgiven⟩

/-! ### Reading properties -/

/-- A comma stands between properties. -/
theorem properties_append_comma (before after : List Char) :
    properties (before ++ ',' :: after) = properties before ++ properties after := by
  rw [properties, pieces_append_separator, List.filterMap_append]
  rfl

/-- A blank before properties is not a part of them. -/
theorem properties_cons_blank (text : List Char) : properties (' ' :: text) = properties text := by
  have hcomma : ' ' ≠ ',' := by decide
  rw [properties, properties, pieces, if_neg hcomma]
  cases hpieces : pieces ',' text with
  | nil => exact absurd hpieces (pieces_ne_nil ',' text)
  | cons piece others =>
      have hcut : cutAround [':'] (' ' :: piece) =
          (cutAround [':'] piece).map fun cut => (' ' :: cut.1, cut.2) := by
        rw [cutAround, if_neg (by simp [List.isPrefixOf])]
      simp only [List.filterMap_cons, hcut, Option.map_map]
      cases cutAround [':'] piece with
      | none => rfl
      | some cut => simp [trim_cons (by decide : isBlank ' ' = true)]

/-- A property is read back. -/
theorem properties_propertyText (h : IsProperty key value) :
    properties (propertyText key value).toList = [(key.toList, value.toList)] := by
  have hcomma : ',' ∉ (propertyText key value).toList := by
    simp [toList_propertyText, h.keyNoComma, h.valueNoComma]
  have hvalue : trim (' ' :: value.toList) = value.toList := by
    rw [trim_cons (by decide), h.valueTrimmed.trim_eq]
  rw [properties, pieces_eq_singleton hcomma, toList_propertyText]
  simp [cutAround_append_cons h.noColon, h.keyTrimmed.trim_eq, hvalue]

/-- **Properties are read back**, one after the other. -/
theorem properties_propertyList (h : ∀ property ∈ given, IsProperty property.1 property.2) :
    properties (propertyList given).toList =
      given.map fun property => (property.1.toList, property.2.toList) := by
  induction given with
  | nil => rfl
  | cons first given ih =>
      have hfirst := properties_propertyText (h first List.mem_cons_self)
      have hgiven := ih fun property hproperty => h property (List.mem_cons_of_mem _ hproperty)
      cases given with
      | nil => rw [propertyList_singleton, hfirst, List.map_singleton]
      | cons second given =>
          rw [toList_propertyList_cons_cons, properties_append_comma, properties_cons_blank,
            hfirst, hgiven]
          rfl

/-! ### The last property of a key -/

/-- The value of the last property with a key. -/
def lastValue? (key : String) (given : List (String × String)) : Option String :=
  (given.findRev? fun property => property.1 = key).map Prod.snd

theorem lastValue?_concat (key : String) (given : List (String × String))
    (property : String × String) :
    lastValue? key (given ++ [property]) =
      if property.1 = key then some property.2 else lastValue? key given := by
  rw [lastValue?, lastValue?, List.findRev?_eq_find?_reverse, List.reverse_concat,
    List.find?_cons, List.findRev?_eq_find?_reverse]
  by_cases hkey : property.1 = key
  · simp [hkey]
  · simp [hkey]

/-- The node that properties describe: of each key the last value counts, and an empty value is
none. -/
def NodeStatement.ofProperties (name : String) (given : List (String × String)) :
    NodeStatement where
  name := name
  icon := (lastValue? "icon" given).filter (· ≠ "")
  color := (lastValue? "color" given).filter (· ≠ "")
  parent := (lastValue? "parent" given).filter (· ≠ "")
  isGroup := lastValue? "type" given = some "group"

theorem nonEmpty?_toList (text : String) :
    nonEmpty? text.toList = (some text).filter (· ≠ "") := by
  by_cases hempty : text = ""
  · simp [hempty, nonEmpty?, Option.filter]
  · simp [hempty, nonEmpty?, Option.filter]

/-- A further property replaces what the properties before it say of its key. -/
theorem NodeStatement.withProperty_ofProperties (name : String) (given : List (String × String))
    (property : String × String) :
    (ofProperties name given).withProperty property.1.toList property.2.toList =
      ofProperties name (given ++ [property]) := by
  obtain ⟨key, value⟩ := property
  simp only [withProperty, String.toList_inj, nonEmpty?_toList, ofProperties, lastValue?_concat]
  by_cases hicon : key = "icon"
  · simp [hicon]
  by_cases hcolor : key = "color"
  · simp [hcolor]
  by_cases hparent : key = "parent"
  · simp [hparent]
  by_cases htype : key = "type"
  · have hword : value = "group" → value ≠ "" := by
      rintro rfl
      decide
    simpa [htype, Option.filter] using hword
  · simp [hicon, hcolor, hparent, htype]

/-- **The last property of a key counts.** -/
theorem NodeStatement.withProperties_eq_ofProperties (name : String)
    (given : List (String × String)) :
    NodeStatement.withProperties { name }
        (given.map fun property => (property.1.toList, property.2.toList)) =
      ofProperties name given := by
  induction given using List.reverseRecOn with
  | nil => rfl
  | append_singleton given property ih =>
      rw [withProperties] at ih ⊢
      rw [List.map_append, List.map_singleton, List.foldl_concat, ih]
      exact withProperty_ofProperties name given property

/-! ### The line of a node with properties -/

/-- What stands in the brackets is read as properties, if no connector is in it. -/
theorem Statement.ofLine?_of_isUnconnected (h : StandsAlone name)
    (hunconnected : ∀ property ∈ given,
      IsUnconnected property.1.toList ∧ IsUnconnected property.2.toList) :
    Statement.ofLine? (name ++ " " ++ propertyBlock given) =
      some (.node (NodeStatement.withProperties { name }
        (properties (propertyList given).toList))) :=
  Statement.ofLine?_bracketed h (isUnconnected_propertyList hunconnected)
    (toList_line_propertyBlock name given)

/-- **The line of a node is read back with its properties**, the last one of each key. -/
theorem Statement.ofLine?_propertyBlock (h : StandsAlone name)
    (hproperties : ∀ property ∈ given, IsProperty property.1 property.2)
    (hunconnected : ∀ property ∈ given,
      IsUnconnected property.1.toList ∧ IsUnconnected property.2.toList) :
    Statement.ofLine? (name ++ " " ++ propertyBlock given) =
      some (.node (NodeStatement.ofProperties name given)) := by
  rw [Statement.ofLine?_of_isUnconnected h hunconnected, properties_propertyList hproperties,
    NodeStatement.withProperties_eq_ofProperties]

/-- A second icon replaces the first one, with a colon and brackets in it, and an empty color takes
the color away. -/
theorem Statement.ofLine?_propertyBlock_of_repeated_keys :
    let given := [("icon", "redis"), ("color", "red"), ("icon", "a: [b]"), ("color", ""),
      ("type", "group"), ("shape", "cloud")]
    StandsAlone "Cache" ∧ (∀ property ∈ given, IsProperty property.1 property.2) ∧
      (∀ property ∈ given, IsUnconnected property.1.toList ∧ IsUnconnected property.2.toList) ∧
      Statement.ofLine?
          "Cache [icon: redis, color: red, icon: a: [b], color: , type: group, shape: cloud]" =
        some (.node { name := "Cache", icon := some "a: [b]", isGroup := true }) := by
  intro given
  have hname : StandsAlone "Cache" := by decide
  have hproperties : ∀ property ∈ given, IsProperty property.1 property.2 := by decide
  have hunconnected : ∀ property ∈ given,
      IsUnconnected property.1.toList ∧ IsUnconnected property.2.toList := by decide
  have hline : "Cache" ++ " " ++ propertyBlock given =
      "Cache [icon: redis, color: red, icon: a: [b], color: , type: group, shape: cloud]" := by
    decide
  have hread : NodeStatement.ofProperties "Cache" given =
      { name := "Cache", icon := some "a: [b]", isGroup := true } := by decide
  refine ⟨hname, hproperties, hunconnected, ?_⟩
  rw [← hline, ← hread]
  exact Statement.ofLine?_propertyBlock hname hproperties hunconnected

/-! ### The values that a line keeps -/

/-- A comma ends a property. -/
theorem notMem_of_mem_properties {block : List Char} {property : List Char × List Char}
    (h : property ∈ properties block) : ',' ∉ property.2 := by
  obtain ⟨piece, hpiece, hproperty⟩ := List.mem_filterMap.1 h
  obtain ⟨⟨key, value⟩, hcut, rfl⟩ := Option.map_eq_some_iff.1 hproperty
  intro hmem
  have hcomma : ',' ∈ value := mem_of_mem_trim hmem
  exact not_mem_of_mem_pieces hpiece (append_of_cutAround hcut ▸ List.mem_append_right _ hcomma)

/-- **A value without connectors is kept if and only if it has no comma.**  The line of a node with
such an icon is the line of a node in any case, but its icon does not reach beyond a comma. -/
theorem Statement.ofLine?_value (h : StandsAlone name) (hne : value.toList ≠ [])
    (htrimmed : IsTrimmed value.toList) (hunconnected : IsUnconnected value.toList) :
    (',' ∉ value.toList →
      Statement.ofLine? (name ++ " " ++ propertyBlock [("icon", value)]) =
          some (.node { name, icon := some value }) ∧
        Statement.ofLine? (name ++ " " ++ propertyBlock [("color", value)]) =
          some (.node { name, color := some value })) ∧
    (',' ∈ value.toList →
      ∃ n, Statement.ofLine? (name ++ " " ++ propertyBlock [("icon", value)]) =
          some (.node n) ∧ n.name = name ∧ n.icon ≠ some value) := by
  have hline : ∀ key : String, IsUnconnected key.toList →
      Statement.ofLine? (name ++ " " ++ propertyBlock [(key, value)]) =
        some (.node (NodeStatement.withProperties { name }
          (properties (propertyText key value).toList))) := by
    intro key hkey
    rw [Statement.ofLine?_of_isUnconnected h (List.forall_mem_singleton.2 ⟨hkey, hunconnected⟩),
      propertyList_singleton]
  have hvalue : nonEmpty? value.toList = some value := nonEmpty?_eq_some_iff.2 ⟨rfl, hne⟩
  constructor
  · intro hcomma
    have hicon : IsProperty "icon" value :=
      ⟨by decide, htrimmed, by decide, by decide, hcomma⟩
    have hcolor : IsProperty "color" value :=
      ⟨by decide, htrimmed, by decide, by decide, hcomma⟩
    rw [hline "icon" (by decide), hline "color" (by decide), properties_propertyText hicon,
      properties_propertyText hcolor, ← hvalue]
    exact ⟨rfl, rfl⟩
  · intro hcomma
    refine ⟨_, hline "icon" (by decide), NodeStatement.name_withProperties _ _, ?_⟩
    intro heq
    rcases NodeStatement.icon_withProperties { name }
      (properties (propertyText "icon" value).toList) with hicon | ⟨property, hproperty, hicon⟩
    · exact nomatch heq.symm.trans hicon
    · obtain ⟨heq, -⟩ := nonEmpty?_eq_some_iff.1 (hicon.symm.trans heq)
      exact notMem_of_mem_properties hproperty (heq ▸ hcomma)

/-- A color is kept with its blanks, and an icon with a comma only up to that. -/
theorem Statement.ofLine?_value_of_function :
    (StandsAlone "Box" ∧ IsTrimmed "rgb(0 0 0)".toList ∧ IsUnconnected "rgb(0 0 0)".toList ∧
      Statement.ofLine? "Box [color: rgb(0 0 0)]" =
        some (.node { name := "Box", color := some "rgb(0 0 0)" })) ∧
    (IsTrimmed "a, b".toList ∧ IsUnconnected "a, b".toList ∧
      ∃ n, Statement.ofLine? "Box [icon: a, b]" = some (.node n) ∧
        n.name = "Box" ∧ n.icon ≠ some "a, b") := by
  have hname : StandsAlone "Box" := by decide
  have htrimmed : IsTrimmed "rgb(0 0 0)".toList := by decide
  have hunconnected : IsUnconnected "rgb(0 0 0)".toList := by decide
  have htrimmed' : IsTrimmed "a, b".toList := by decide
  have hunconnected' : IsUnconnected "a, b".toList := by decide
  have hline : "Box" ++ " " ++ propertyBlock [("color", "rgb(0 0 0)")] =
      "Box [color: rgb(0 0 0)]" := by decide
  have hline' : "Box" ++ " " ++ propertyBlock [("icon", "a, b")] = "Box [icon: a, b]" := by
    decide
  rw [← hline, ← hline']
  exact ⟨⟨hname, htrimmed, hunconnected,
      ((Statement.ofLine?_value hname (by decide) htrimmed hunconnected).1 (by decide)).2⟩,
    htrimmed', hunconnected',
    (Statement.ofLine?_value hname (by decide) htrimmed' hunconnected').2 (by decide)⟩

/-- What follows a comma is a property of its own, and a connector makes an edge of the line. -/
theorem Statement.ofLine?_value_with_comma_or_connector :
    (StandsAlone "Cache" ∧ IsName "redis, color: red" ∧
      Statement.ofLine? "Cache [icon: redis, color: red]" =
        some (.node { name := "Cache", icon := some "redis", color := some "red" })) ∧
    (StandsAlone "Gateway" ∧ IsName "aws-api-gateway" ∧
      ∀ n, Statement.ofLine? "Gateway [icon: aws-api-gateway]" ≠ some (.node n)) := by
  have hedge : Statement.ofLine? "Gateway [icon: aws-api-gateway]" =
      some (.edge { kind := .plain, source := "Gateway [icon: aws", target := "api-gateway]" }) := by
    decide
  refine ⟨⟨by decide, by decide, by decide⟩, by decide, by decide, ?_⟩
  intro n
  rw [hedge]
  exact nofun

end TextDiagram
