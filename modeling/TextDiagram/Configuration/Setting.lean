/-
**Settings.**

A configuration is given as a tree of settings: a table of sections, each a table of named values.
Sections and values may be left out and unknown ones are passed over, but a value of the wrong kind
makes the whole tree unusable.  No value is converted, except that an integer counts as a length.

Trees are written in two formats, which agree on tables.  They differ on sections that are given as
lists and on words that are given as fields.

Main definitions:

* `TextDiagram.Setting` — a tree of settings;
* `TextDiagram.SettingFormat` — the formats in which trees are written;
* `TextDiagram.Configuration.ofSetting?` — the configuration that a tree stands for.
-/

import TextDiagram.Vocabulary
import TextDiagram.Configuration.Basic

set_option relaxedAutoImplicit false
set_option autoImplicit false

namespace TextDiagram

/-! ### Trees of settings -/

/-- How a table was begun, which decides what may be added to it: only as the way to another table,
by its own heading, by dotted keys, or all at once. -/
inductive Opening where
  | implied
  | heading
  | dotted
  | closed
  deriving DecidableEq, Repr

/-- A tree of settings. -/
inductive Setting where
  | text (value : String)
  | integer (value : Int)
  | decimal (value : Float)
  /-- A number out of all range, of which no value is known. -/
  | excess
  | flag (value : Bool)
  | moment
  | absent
  | list (items : List Setting)
  | tables (items : List Setting)
  | table (opening : Opening) (fields : List (String × Setting))

instance : Inhabited Setting := ⟨.absent⟩

/-- The formats in which trees of settings are written. -/
inductive SettingFormat where
  | json
  | toml
  deriving DecidableEq, Repr

/-! ### Values -/

mutual

/-- Whether a setting can be passed over: no number in it is out of all range. -/
def Setting.isReadable : Setting → Bool
  | .excess => false
  | .list items => Setting.areReadable items
  | .tables items => Setting.areReadable items
  | .table _ fields => Setting.fieldsReadable fields
  | _ => true

/-- Whether all settings of a list can be passed over. -/
def Setting.areReadable : List Setting → Bool
  | [] => true
  | item :: rest => item.isReadable && Setting.areReadable rest

/-- Whether all fields of a table can be passed over. -/
def Setting.fieldsReadable : List (String × Setting) → Bool
  | [] => true
  | (_, setting) :: rest => setting.isReadable && Setting.fieldsReadable rest

end

/-- The values of a section in a fixed order without their names.  In JSON there are at most as many
as names; in TOML the rest is not looked at. -/
def positional? (format : SettingFormat) (names : List String) (items : List Setting) :
    Option (List (String × Setting)) :=
  if format = .toml || items.length ≤ names.length then some (names.zip items) else none

/-- The fields of a section, or their values without their names.  Unknown fields are passed over.
A moment counts as a section of which no field is known. -/
def Setting.fields? (format : SettingFormat) (names : List String) :
    Setting → Option (List (String × Setting))
  | table _ fields =>
      if fields.all fun (name, setting) => names.contains name || setting.isReadable then
        some fields
      else none
  | moment => some []
  | list items => positional? format names items
  | tables items => positional? format names items
  | _ => none

/-- The value of a field, and its default where the field is left out. -/
def fieldOr {α : Type} (fields : List (String × Setting)) (name : String)
    (read : Setting → Option α) (default : α) : Option α :=
  match fields.lookup name with
  | none => some default
  | some setting => read setting

/-- Whether an integer is in the range of 64 bits, with or without a sign. -/
def isMachineInteger (n : Int) : Bool := -(Number.twoTo 63 : Int) ≤ n && n < Number.twoTo 64

/-- A length. -/
def Setting.length? : Setting → Option Float32
  | integer value => if isMachineInteger value then some (Number.ofInt value) else none
  | decimal value => some (Number.narrow value)
  | _ => none

/-- A text. -/
def Setting.text? : Setting → Option String
  | text value => some value
  | _ => none

/-- A text that may be absent. -/
def Setting.optionalText? : Setting → Option (Option String)
  | absent => some none
  | text value => some (some value)
  | _ => none

/-- A switch. -/
def Setting.flag? : Setting → Option Bool
  | flag value => some value
  | _ => none

/-- A number of sixteen bits. -/
def Setting.word? : Setting → Option UInt16
  | integer value => if 0 ≤ value ∧ value < 65536 then some value.toNat.toUInt16 else none
  | _ => none

/-- Whether a setting stands for no value: `null` in JSON, an empty list or table in TOML. -/
def Setting.isNothing : SettingFormat → Setting → Bool
  | .json, absent => true
  | .toml, list [] => true
  | .toml, table _ [] => true
  | _, _ => false

/-- A word of a vocabulary.  It may also be given as the only field of a section, without a
value. -/
def Setting.named? {α : Type} (format : SettingFormat) (ofName? : String → Option α) :
    Setting → Option α
  | text value => ofName? value
  | table _ [(name, setting)] => if setting.isNothing format then ofName? name else none
  | _ => none

/-! ### Sections -/

/-- The distances of the grid placement. -/
def GridSpacing.ofSetting? (format : SettingFormat) (setting : Setting) :
    Option (GridSpacing Float32) := do
  let fields ← setting.fields? format ["node_spacing", "group_spacing", "origin", "child_offset",
    "child_column_spacing", "child_row_spacing"]
  let standard := GridSpacing.standard
  return {
    node := ← fieldOr fields "node_spacing" Setting.length? standard.node
    group := ← fieldOr fields "group_spacing" Setting.length? standard.group
    origin := ← fieldOr fields "origin" Setting.length? standard.origin
    childOffset := ← fieldOr fields "child_offset" Setting.length? standard.childOffset
    childColumn := ← fieldOr fields "child_column_spacing" Setting.length? standard.childColumn
    childRow := ← fieldOr fields "child_row_spacing" Setting.length? standard.childRow }

/-- The distances of the layered placement. -/
def LayerSpacing.ofSetting? (format : SettingFormat) (setting : Setting) :
    Option LayerSpacing := do
  let fields ← setting.fields? format ["layer_spacing", "node_spacing", "default_node_width",
    "default_node_height"]
  let standard : LayerSpacing := {}
  return {
    layer := ← fieldOr fields "layer_spacing" Setting.length? standard.layer
    node := ← fieldOr fields "node_spacing" Setting.length? standard.node
    defaultWidth := ← fieldOr fields "default_node_width" Setting.length? standard.defaultWidth
    defaultHeight := ← fieldOr fields "default_node_height" Setting.length?
      standard.defaultHeight }

/-- How nodes are placed. -/
def Placing.ofSetting? (format : SettingFormat) (setting : Setting) : Option Placing := do
  let fields ← setting.fields? format ["engine", "grid", "hierarchical"]
  return {
    engine := ← fieldOr fields "engine" (Setting.named? format Engine.ofName?) .grid
    grid := ← fieldOr fields "grid" (GridSpacing.ofSetting? format) .standard
    layered := ← fieldOr fields "hierarchical" (LayerSpacing.ofSetting? format) {} }

/-- The look of a picture. -/
def Style.ofSetting? (format : SettingFormat) (setting : Setting) : Option Style := do
  let fields ← setting.fields? format ["background_color", "edge_color", "font_size", "font_family"]
  let standard : Style := {}
  return {
    backgroundColor := ← fieldOr fields "background_color" Setting.optionalText? none
    edgeColor := ← fieldOr fields "edge_color" Setting.text? standard.edgeColor
    fontSize := ← fieldOr fields "font_size" Setting.word? standard.fontSize
    fontFamily := ← fieldOr fields "font_family" Setting.optionalText? none }

/-- Whether drawing on a diagram adds lines to its text. -/
def regenerationOfSetting? (format : SettingFormat) (setting : Setting) : Option Bool := do
  let fields ← setting.fields? format ["regenerate_text"]
  fieldOr fields "regenerate_text" Setting.flag? false

/-- The configuration that a tree of settings stands for. -/
def Configuration.ofSetting? (format : SettingFormat) (setting : Setting) :
    Option Configuration := do
  let fields ← setting.fields? format ["layout", "style", "sync"]
  return {
    placing := ← fieldOr fields "layout" (Placing.ofSetting? format) {}
    style := ← fieldOr fields "style" (Style.ofSetting? format) {}
    regenerateText := ← fieldOr fields "sync" (regenerationOfSetting? format) false }

/-! ### Appearances -/

/-- The choices that a node is drawn with. -/
def Appearance.ofSetting? (format : SettingFormat) (setting : Setting) : Option Appearance := do
  let fields ← setting.fields? format ["color_mode", "style_mode", "typeface"]
  return {
    colorMode := ← fieldOr fields "color_mode" (Setting.named? format ColorMode.ofName?) .pastel
    styleMode := ← fieldOr fields "style_mode" (Setting.named? format StyleMode.ofName?) .shadow
    typeface := ← fieldOr fields "typeface" (Setting.named? format Typeface.ofName?) .rough }

end TextDiagram
