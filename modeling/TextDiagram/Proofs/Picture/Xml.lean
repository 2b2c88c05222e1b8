/-
**Well-formed XML.**

The rules of XML 1.0 that a picture has to follow, and what a text that follows them says.  A
document is one element with blanks around it.  An element is an empty one, or it has its content
between two tags of the same name, and the content is made of elements, of characters that stand for
themselves, and of references.  A value stands between two quotes of one kind and holds neither that
quote nor an opening bracket, and in values and texts an ampersand starts a reference.

Declarations, comments, processing instructions, sections of character data and references by
number are left out.  A text without them is a document by these rules exactly if XML says so.

Main definitions:

* `TextDiagram.Xml.isChar`, `TextDiagram.Xml.isName` — the characters and the names of XML;
* `TextDiagram.Xml.Tag`, `TextDiagram.Xml.Item` — what a text says;
* `TextDiagram.Xml.Value`, `TextDiagram.Xml.Attributes`, `TextDiagram.Xml.IsTag`,
  `TextDiagram.Xml.Content` — texts with what they say;
* `TextDiagram.Xml.tagsIn`, `TextDiagram.Xml.Item.marks` — the tags in what a text says, and what
  those of a class give for an attribute;
* `TextDiagram.Xml.IsDocument` — a text follows the rules for documents;
* `TextDiagram.Xml.IsWellFormed` — and has only characters of XML.

Main results:

* `TextDiagram.Xml.Value.notMem` — a value that is written holds no opening bracket;
* `TextDiagram.Xml.Value.exists_reference` — and every ampersand in it starts a reference.
-/

import Mathlib.Data.List.Basic

set_option relaxedAutoImplicit false
set_option autoImplicit false

namespace TextDiagram.Xml

/-! ### Characters and names -/

/-- Whether the code point of a character lies in one of some closed ranges. -/
def isIn (ranges : List (Nat × Nat)) (c : Char) : Bool :=
  ranges.any fun (low, high) => low ≤ c.toNat && c.toNat ≤ high

/-- Whether a document may hold a character. -/
def isChar (c : Char) : Bool :=
  isIn [(0x9, 0xA), (0xD, 0xD), (0x20, 0xD7FF), (0xE000, 0xFFFD), (0x10000, 0x10FFFF)] c

/-- Whether a character is a blank between the parts of a tag. -/
def isSpace (c : Char) : Bool := isIn [(0x9, 0xA), (0xD, 0xD), (0x20, 0x20)] c

/-- Whether a name may start with a character. -/
def isNameStart (c : Char) : Bool :=
  isIn [(0x3A, 0x3A), (0x41, 0x5A), (0x5F, 0x5F), (0x61, 0x7A), (0xC0, 0xD6), (0xD8, 0xF6),
    (0xF8, 0x2FF), (0x370, 0x37D), (0x37F, 0x1FFF), (0x200C, 0x200D), (0x2070, 0x218F),
    (0x2C00, 0x2FEF), (0x3001, 0xD7FF), (0xF900, 0xFDCF), (0xFDF0, 0xFFFD), (0x10000, 0xEFFFF)] c

/-- Whether a character may stand in a name. -/
def isNameChar (c : Char) : Bool :=
  isNameStart c ||
    isIn [(0x2D, 0x2E), (0x30, 0x39), (0xB7, 0xB7), (0x300, 0x36F), (0x203F, 0x2040)] c

/-- Whether a text is a name. -/
def isName : List Char → Bool
  | [] => false
  | c :: rest => isNameStart c && rest.all isNameChar

/-- A character of a name may stand anywhere. -/
theorem isChar_of_isNameChar {c : Char} (h : isNameChar c = true) : isChar c = true := by
  simp only [isNameChar, isNameStart, isChar, isIn, List.any_cons, List.any_nil, Bool.or_false,
    Bool.or_eq_true, Bool.and_eq_true, decide_eq_true_eq] at h ⊢
  omega

/-- A name has only characters that may stand anywhere. -/
theorem isChar_of_mem_name {name : List Char} (h : isName name = true) {c : Char} (hc : c ∈ name) :
    isChar c = true := by
  cases name with
  | nil => exact absurd hc List.not_mem_nil
  | cons first rest =>
      rw [isName, Bool.and_eq_true, List.all_eq_true] at h
      refine isChar_of_isNameChar ?_
      rcases List.mem_cons.1 hc with rfl | hc
      · rw [isNameChar, h.1, Bool.true_or]
      · exact h.2 c hc

/-- The names that can be referred to without being declared, with what they stand for. -/
def entities : List (String × Char) :=
  [("amp", '&'), ("lt", '<'), ("gt", '>'), ("apos", '\''), ("quot", '"')]

/-! ### Tags -/

/-- The name and the attributes of an element. -/
structure Tag where
  name : String
  attributes : List (String × String)

/-- The value of an attribute of a tag. -/
def Tag.value? (t : Tag) (name : String) : Option String := t.attributes.lookup name

/-- A text is written between two quotes and stands for a value. -/
inductive Value (quote : Char) : List Char → List Char → Prop
  | nil : Value quote [] []
  | char {c : Char} {rest value : List Char} (hlt : c ≠ '<') (hamp : c ≠ '&') (hquote : c ≠ quote)
      (hrest : Value quote rest value) : Value quote (c :: rest) (c :: value)
  | reference {name : String} {c : Char} {rest value : List Char} (hname : (name, c) ∈ entities)
      (hrest : Value quote rest value) :
      Value quote ('&' :: name.toList ++ ';' :: rest) (c :: value)

/-- A text is written behind the name of an element and gives attributes. -/
inductive Attributes : List Char → List (String × String) → Prop
  | nil {space : List Char} (hspace : ∀ c ∈ space, isSpace c = true) : Attributes space []
  | cons {space before after written rest : List Char} {quote : Char} {name value : String}
      {others : List (String × String)} (hne : space ≠ [])
      (hspace : ∀ c ∈ space ++ before ++ after, isSpace c = true)
      (hname : isName name.toList = true) (hquote : quote = '"' ∨ quote = '\'')
      (hvalue : Value quote written value.toList) (hrest : Attributes rest others) :
      Attributes
        (space ++ name.toList ++ before ++ '=' :: after ++ quote :: written ++ quote :: rest)
        ((name, value) :: others)

/-- A text is written between two brackets and says what a tag says.  No attribute is given
twice. -/
structure IsTag (written : List Char) (tag : Tag) : Prop where
  name : isName tag.name.toList = true
  attributes : ∃ rest, written = tag.name.toList ++ rest ∧ Attributes rest tag.attributes
  nodup : (tag.attributes.map Prod.fst).Nodup

/-! ### Content -/

/-- A part of the content of an element. -/
inductive Item where
  | char (c : Char)
  | element (tag : Tag) (content : List Item)

/-- A text is written between two tags and says what a list of items says.  An end of a section of
character data does not stand for itself. -/
inductive Content : List Char → List Item → Prop
  | nil : Content [] []
  | char {c : Char} {rest : List Char} {items : List Item} (hlt : c ≠ '<') (hamp : c ≠ '&')
      (hend : ¬ [']', ']', '>'] <+: c :: rest) (hrest : Content rest items) :
      Content (c :: rest) (.char c :: items)
  | reference {name : String} {c : Char} {rest : List Char} {items : List Item}
      (hname : (name, c) ∈ entities) (hrest : Content rest items) :
      Content ('&' :: name.toList ++ ';' :: rest) (.char c :: items)
  | emptyElement {written rest : List Char} {tag : Tag} {items : List Item}
      (htag : IsTag written tag) (hrest : Content rest items) :
      Content ('<' :: written ++ '/' :: '>' :: rest) (.element tag [] :: items)
  | element {written inner space rest : List Char} {tag : Tag} {content items : List Item}
      (htag : IsTag written tag) (hinner : Content inner content)
      (hspace : ∀ c ∈ space, isSpace c = true) (hrest : Content rest items) :
      Content
        ('<' :: written ++ '>' :: inner ++ '<' :: '/' :: tag.name.toList ++ space ++ '>' :: rest)
        (.element tag content :: items)

mutual

/-- The tags in an item, in the order in which they are opened. -/
def Item.tags : Item → List Tag
  | .char _ => []
  | .element tag content => tag :: tagsIn content

/-- The tags in a list of items, in the order in which they are opened. -/
def tagsIn : List Item → List Tag
  | [] => []
  | item :: rest => item.tags ++ tagsIn rest

end

theorem tagsIn_eq_flatMap (items : List Item) : tagsIn items = items.flatMap Item.tags := by
  induction items with
  | nil => rfl
  | cons item rest ih => rw [tagsIn, ih, List.flatMap_cons]

@[simp] theorem tagsIn_append (items others : List Item) :
    tagsIn (items ++ others) = tagsIn items ++ tagsIn others := by
  simp only [tagsIn_eq_flatMap, List.flatMap_append]

/-- There are no tags in characters. -/
@[simp] theorem tagsIn_map_char (text : List Char) : tagsIn (text.map .char) = [] := by
  rw [tagsIn_eq_flatMap, List.flatMap_map]
  exact List.flatMap_eq_nil_iff.2 fun _ _ => rfl

/-- What the tags of a class give for an attribute, in the order in which they are opened. -/
def Item.marks (root : Item) (tagClass key : String) : List (Option String) :=
  (root.tags.filter fun t => t.value? "class" = some tagClass).map fun t => t.value? key

/-! ### Documents -/

/-- A text follows the rules for documents: it is an element with blanks around it. -/
def IsDocument (text : List Char) (root : Item) : Prop :=
  ∃ before written after tag content, text = before ++ written ++ after ∧
    (∀ c ∈ before ++ after, isSpace c = true) ∧ root = .element tag content ∧
    Content written [root]

/-- A text is well-formed: it is a document, and it has only characters of XML. -/
structure IsWellFormed (text : List Char) : Prop where
  isChar : ∀ c ∈ text, isChar c = true
  document : ∃ root, IsDocument text root

/-! ### Values -/

namespace Value

variable {quote : Char} {written value : List Char}

/-- A value that is written holds no opening bracket. -/
theorem notMem (h : Value quote written value) : '<' ∉ written := by
  induction h with
  | nil => exact List.not_mem_nil
  | char hlt _ _ _ ih => exact List.not_mem_cons_of_ne_of_not_mem (Ne.symm hlt) ih
  | reference hname _ ih =>
      have hentity : ∀ p ∈ entities, '<' ∉ '&' :: p.1.toList := by decide
      intro hmem
      rcases List.mem_append.1 hmem with hmem | hmem
      · exact hentity _ hname hmem
      · exact List.not_mem_cons_of_ne_of_not_mem (by decide) ih hmem

/-- Every ampersand in a value that is written starts a reference. -/
theorem exists_reference (h : Value quote written value) {before after : List Char}
    (heq : written = before ++ '&' :: after) :
    ∃ p ∈ entities, p.1.toList ++ [';'] <+: after := by
  have hentity : ∀ p ∈ entities, '&' ∉ p.1.toList ++ [';'] := by decide
  induction h generalizing before with
  | nil => exact absurd heq (by simp)
  | char _ hamp _ _ ih =>
      cases before with
      | nil => exact absurd (List.cons.inj heq).1 hamp
      | cons _ before => exact ih (List.cons.inj heq).2
  | @reference name c rest value hname _ ih =>
      have hsplit : '&' :: name.toList ++ ';' :: rest = '&' :: (name.toList ++ [';']) ++ rest := by
        simp
      rw [hsplit, List.append_eq_append_iff] at heq
      rcases heq with ⟨middle, rfl, hrest⟩ | ⟨middle, hmiddle, hafter⟩
      · exact ih hrest
      · cases before with
        | nil =>
            -- it is the ampersand of this reference
            refine ⟨(name, c), hname, ?_⟩
            cases middle with
            | nil => exact absurd hmiddle (by simp)
            | cons _ middle =>
                rw [List.nil_append] at hmiddle
                rw [(List.cons.inj hmiddle).2, (List.cons.inj hafter).2]
                exact List.prefix_append _ _
        | cons _ before =>
            cases middle with
            | nil => exact ih (show _ = [] ++ '&' :: after by simpa using hafter.symm)
            | cons d middle =>
                obtain rfl := (List.cons.inj hafter).1
                have hmem : '&' ∈ name.toList ++ [';'] := by
                  rw [(List.cons.inj hmiddle).2]
                  simp
                exact absurd hmem (hentity _ hname)

end Value

end TextDiagram.Xml
