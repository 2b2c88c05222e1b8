/-
**What is written can be read again.**

A tree whose names are names of XML, and whose elements have no attribute twice, is written as a
text that says again what the tree says: the same elements with the same attributes, and the same
characters.  Only the attributes come in the order of their names, and the line breaks between
elements are read as characters.

The characters of what is written are those of the tree, apart from those of brackets, quotes,
blanks and references.

Main definitions:

* `TextDiagram.Markup.All` — something holds of everything in a tree;
* `TextDiagram.Markup.HasNames` — an element has names of XML, and no attribute twice;
* `TextDiagram.Markup.tag`, `TextDiagram.Markup.items` — what a tree says;
* `TextDiagram.Markup.HasChars` — the characters of a tree are allowed.

Main results:

* `TextDiagram.Markup.isTag_opening` — an opening that is written is a tag;
* `TextDiagram.Markup.isDocument_chars` — **a tree that is written is a document**;
* `TextDiagram.Markup.tags_items`, `TextDiagram.Markup.value?_tag` — which has the tags of the tree,
  with the values that it gives;
* `TextDiagram.Markup.isWellFormed_chars_iff` — and which is **well-formed** exactly if the tree has
  only characters of XML.
-/

import Mathlib.Data.List.Sort
import TextDiagram.Proofs.Picture.Figures
import TextDiagram.Proofs.Picture.Xml
import TextDiagram.Proofs.Text.Cut

set_option relaxedAutoImplicit false
set_option autoImplicit false

namespace TextDiagram

open Xml (Content Item Tag Value)

namespace Markup

variable {name : String} {attributes : List Attribute} {children : List Markup}

/-! ### Everything in a tree -/

/-- Something holds of everything in a tree. -/
def All (p : Markup → Prop) (m : Markup) : Prop := ∀ t ∈ m.subtrees, p t

theorem all_text {p : Markup → Prop} {content : String} :
    (text content).All p ↔ p (text content) := by
  simp [All, subtrees]

/-- Something holds of everything in an element if it holds of the element and of everything in its
children. -/
theorem all_element {p : Markup → Prop} : (element name attributes children).All p ↔
    p (element name attributes children) ∧ ∀ child ∈ children, child.All p := by
  simp only [All, subtrees, childrenSubtrees_eq_flatMap, List.forall_mem_cons, List.mem_flatMap]
  refine and_congr_right fun _ => ?_
  constructor
  · intro h child hchild t ht
    exact h t ⟨child, hchild, ht⟩
  · rintro h t ⟨child, hchild, ht⟩
    exact h child hchild t ht

theorem All.mono {p q : Markup → Prop} {m : Markup} (h : m.All p) (hpq : ∀ t, p t → q t) :
    m.All q := fun t ht => hpq t (h t ht)

/-! ### What a tree says -/

/-- An element has names of XML, and no attribute twice. -/
def HasNames : Markup → Prop
  | text _ => True
  | element name attributes _ => Xml.isName name.toList = true ∧
      (∀ a ∈ attributes, Xml.isName a.name.toList = true) ∧
      (attributes.map Attribute.name).Nodup

/-- The attributes of an element in the order in which they are written. -/
def sortedAttributes (attributes : List Attribute) : List Attribute :=
  attributes.mergeSort fun a b => decide (a.name ≤ b.name)

/-- What the opening of an element says. -/
def tag (name : String) (attributes : List Attribute) : Tag where
  name := name
  attributes := (sortedAttributes attributes).map fun a => (a.name, a.value.toText)

mutual

/-- What a tree says. -/
def items : Markup → List Item
  | text content => content.toList.map .char
  | element name attributes [] => [.element (tag name attributes) []]
  | element name attributes (child :: rest) =>
      [.element (tag name attributes) (childrenItems (child :: rest) ++ [.char '\n'])]

/-- What the children of an element say, with the line breaks before them. -/
def childrenItems : List Markup → List Item
  | [] => []
  | child :: rest => .char '\n' :: items child ++ childrenItems rest

end

/-! ### Values and texts -/

/-- A character of a value is read again. -/
theorem value_escapeValueChar (c : Char) {rest value : List Char} (h : Value '"' rest value) :
    Value '"' (escapeValueChar c ++ rest) (c :: value) := by
  have hentity : ∀ (name : String) (c : Char), (name, c) ∈ Xml.entities →
      Value '"' ('&' :: name.toList ++ ';' :: rest) (c :: value) :=
    fun _ _ hname => .reference hname h
  unfold escapeValueChar
  split
  · exact hentity "quot" '"' (by decide)
  · exact hentity "apos" '\'' (by decide)
  · next hquot _ =>
      unfold escapeTextChar
      split
      · exact hentity "amp" '&' (by decide)
      · exact hentity "lt" '<' (by decide)
      · exact hentity "gt" '>' (by decide)
      · next hamp hlt _ => exact .char hlt hamp hquot h

/-- A value is read again. -/
theorem value_escapeValue (value : List Char) : Value '"' (escapeValue value) value := by
  induction value with
  | nil => exact .nil
  | cons c value ih =>
      rw [escapeValue, List.flatMap_cons]
      exact value_escapeValueChar c ih

/-- No escaped text holds a closing bracket. -/
theorem notMem_escapeText (text : List Char) : '>' ∉ escapeText text := by
  rw [escapeText, List.mem_flatMap]
  rintro ⟨c, -, hmem⟩
  unfold escapeTextChar at hmem
  split at hmem
  · exact absurd hmem (by decide)
  · exact absurd hmem (by decide)
  · exact absurd hmem (by decide)
  · next hgt => exact hgt (List.mem_singleton.1 hmem).symm

/-- A text is read again, if a line break comes after it. -/
theorem content_escapeText (text : List Char) {rest : List Char} {items : List Item}
    (h : Content ('\n' :: rest) items) :
    Content (escapeText text ++ '\n' :: rest) (text.map .char ++ items) := by
  induction text with
  | nil => exact h
  | cons c text ih =>
      -- no section of character data ends here: its end has a closing bracket and no line break
      have hend : c ≠ '>' → ¬ [']', ']', '>'] <+: c :: (escapeText text ++ '\n' :: rest) := by
        intro hc hprefix
        rw [← List.cons_append, Text.prefix_append_cons_iff (by decide)] at hprefix
        have hmem : '>' ∈ c :: escapeText text := hprefix.subset (by decide)
        exact List.not_mem_cons_of_ne_of_not_mem (Ne.symm hc) (notMem_escapeText text) hmem
      have hentity : ∀ (name : String) (c : Char), (name, c) ∈ Xml.entities →
          Content ('&' :: name.toList ++ ';' :: (escapeText text ++ '\n' :: rest))
            (.char c :: (text.map .char ++ items)) := fun _ _ hname => .reference hname ih
      rw [escapeText, List.flatMap_cons, List.append_assoc, ← escapeText, List.map_cons,
        List.cons_append]
      unfold escapeTextChar
      split
      · exact hentity "amp" '&' (by decide)
      · exact hentity "lt" '<' (by decide)
      · exact hentity "gt" '>' (by decide)
      · next hamp hlt hgt => exact .char hlt hamp (hend hgt) ih

/-! ### Tags -/

theorem attributes_flatMap_attributeChars :
    ∀ {attributes : List Attribute}, (∀ a ∈ attributes, Xml.isName a.name.toList = true) →
      Xml.Attributes (attributes.flatMap attributeChars)
        (attributes.map fun a => (a.name, a.value.toText)) := by
  intro attributes
  induction attributes with
  | nil => exact fun _ => .nil (by simp)
  | cons a rest ih =>
      intro h
      have hspace : ∀ c ∈ [' '] ++ [] ++ [], Xml.isSpace c = true :=
        List.all_eq_true.1 (by decide)
      have hrest := ih fun b hb => h b (List.mem_cons_of_mem _ hb)
      have hcons := Xml.Attributes.cons (List.cons_ne_nil ' ' []) hspace (h a List.mem_cons_self)
        (.inl rfl) (value_escapeValue a.value.toText.toList) hrest
      simpa [attributeChars] using hcons

theorem perm_sortedAttributes (attributes : List Attribute) :
    (sortedAttributes attributes).Perm attributes := List.mergeSort_perm ..

/-- An opening that is written is a tag. -/
theorem isTag_opening (h : (element name attributes children).HasNames) :
    ∃ written, opening name attributes = '<' :: written ∧
      Xml.IsTag written (tag name attributes) := by
  obtain ⟨hname, hattributes, hnodup⟩ := h
  have hperm := perm_sortedAttributes attributes
  refine ⟨_, rfl, hname, ⟨_, rfl, ?_⟩, ?_⟩
  · exact attributes_flatMap_attributeChars fun a ha => hattributes a (hperm.subset ha)
  · rw [tag, List.map_map]
    exact (hperm.map Attribute.name).nodup_iff.2 hnodup

/-! ### Trees -/

/-- An element is read again if its children are. -/
theorem content_element (h : (element name attributes children).HasNames)
    (hchildren : Content (childrenChars children ++ ['\n'])
      (childrenItems children ++ [.char '\n']))
    {rest : List Char} {items : List Item} (hrest : Content rest items) :
    Content ((element name attributes children).chars ++ rest)
      ((element name attributes children).items ++ items) := by
  obtain ⟨written, hopening, htag⟩ := isTag_opening h
  cases children with
  | nil =>
      have hempty := Content.emptyElement htag hrest
      simpa [chars, Markup.items, hopening] using hempty
  | cons child others =>
      have hspace : ∀ c ∈ ([] : List Char), Xml.isSpace c = true := by simp
      have helement := Content.element htag hchildren hspace hrest
      simpa [chars, Markup.items, hopening, closing, tag] using helement

theorem content_newline {rest : List Char} {items : List Item} (h : Content rest items) :
    Content ('\n' :: rest) (.char '\n' :: items) := .char (by decide) (by decide) (by simp) h

mutual

/-- A tree is read again, if a line break comes after it. -/
theorem content_chars : ∀ (m : Markup), m.All HasNames → ∀ {rest : List Char} {items : List Item},
    Content ('\n' :: rest) items → Content (m.chars ++ '\n' :: rest) (m.items ++ items)
  | text content, _, _, _, hrest => content_escapeText content.toList hrest
  | element _ _ children, h, _, _, hrest =>
      content_element (all_element.1 h).1
        (content_childrenChars children (all_element.1 h).2 (content_newline .nil)) hrest

/-- The children of an element are read again, if a line break comes after them. -/
theorem content_childrenChars : ∀ (children : List Markup), (∀ m ∈ children, m.All HasNames) →
    ∀ {rest : List Char} {items : List Item}, Content ('\n' :: rest) items →
      Content (childrenChars children ++ '\n' :: rest) (childrenItems children ++ items)
  | [], _, _, _, hrest => hrest
  | [child], h, rest, items, hrest => by
      have hchild := content_chars child (h child List.mem_cons_self) hrest
      simpa [childrenChars, childrenItems] using content_newline hchild
  | child :: next :: others, h, rest, items, hrest => by
      have hothers := content_childrenChars (next :: others)
        (fun m hm => h m (List.mem_cons_of_mem _ hm)) hrest
      rw [childrenChars, List.cons_append, List.cons_append] at hothers
      have hchild := content_chars child (h child List.mem_cons_self) hothers
      have hall := content_newline hchild
      simpa [childrenChars, childrenItems] using hall

end

/-- **A tree that is written is a document**, and it says what the tree says. -/
theorem isDocument_chars (h : (element name attributes children).All HasNames) :
    ∃ content, Xml.IsDocument (element name attributes children).chars
        (.element (tag name attributes) content) ∧
      (element name attributes children).items = [.element (tag name attributes) content] := by
  obtain ⟨helement, hchildren⟩ := all_element.1 h
  have hinner := content_childrenChars children hchildren (content_newline .nil)
  obtain ⟨content, hitems⟩ : ∃ content,
      (element name attributes children).items = [.element (tag name attributes) content] := by
    cases children with
    | nil => exact ⟨_, rfl⟩
    | cons child others => exact ⟨_, rfl⟩
  refine ⟨content, ⟨[], (element name attributes children).chars, [], _, content, ?_, by simp, rfl,
    ?_⟩, hitems⟩
  · rw [List.nil_append, List.append_nil]
  · rw [← hitems]
    simpa using content_element helement hinner .nil

/-! ### Tags in order -/

/-- The tag of an element. -/
def tag? : Markup → Option Tag
  | text _ => none
  | element name attributes _ => some (tag name attributes)

mutual

/-- What a tree says has the tags of its elements. -/
theorem tags_items : ∀ m : Markup, Xml.tagsIn m.items = m.subtrees.filterMap tag?
  | text content => by simp [items, subtrees, tag?]
  | element name attributes [] => by
      simp [items, subtrees, childrenSubtrees, tag?, Xml.tagsIn, Item.tags]
  | element name attributes (child :: rest) => by
      have hchildren := tags_childrenItems (child :: rest)
      simp [items, subtrees, tag?, Xml.tagsIn, Item.tags, hchildren]

theorem tags_childrenItems : ∀ children : List Markup,
    Xml.tagsIn (childrenItems children) = (childrenSubtrees children).filterMap tag?
  | [] => rfl
  | child :: rest => by
      have hchild := tags_items child
      have hrest := tags_childrenItems rest
      simp [childrenItems, childrenSubtrees, Xml.tagsIn, Item.tags, hchild, hrest]

end

/-- Attributes are found by their names. -/
theorem attribute?_element (name : String) (attributes : List Attribute) (children : List Markup)
    (key : String) : (element name attributes children).attribute? key =
      (attributes.map fun a => (a.name, a.value.toText)).lookup key := by
  rw [attribute?]
  induction attributes with
  | nil => rfl
  | cons a rest ih =>
      rw [List.find?_cons, List.map_cons, List.lookup_cons]
      by_cases hkey : a.name = key
      · simp [hkey]
      · have hne : (key == a.name) = false := by simpa using Ne.symm hkey
        simpa [hkey, hne] using ih

/-- A tag gives every attribute the value that it has in the tree. -/
theorem value?_tag (h : (element name attributes children).HasNames) (key : String) :
    (tag name attributes).value? key = (element name attributes children).attribute? key := by
  have hperm := (perm_sortedAttributes attributes).map fun a => (a.name, a.value.toText)
  have hnodup : ((attributes.map fun a => (a.name, a.value.toText)).map Prod.fst).Nodup := by
    rw [List.map_map]
    exact h.2.2
  rw [attribute?_element, Tag.value?, tag]
  ext value
  rw [lookup_eq_some_iff_mem hnodup,
    lookup_eq_some_iff_mem ((hperm.map Prod.fst).nodup_iff.2 hnodup), hperm.mem_iff]

/-! ### Characters -/

/-- The texts and the values of attributes have only characters that are allowed. -/
def HasChars (allowed : Char → Prop) : Markup → Prop
  | text content => ∀ c ∈ content.toList, allowed c
  | element _ attributes _ => ∀ a ∈ attributes, ∀ c ∈ a.value.toText.toList, allowed c

theorem isChar_reference : ∀ name ∈ Xml.entities.map Prod.fst, ∀ d ∈ '&' :: name.toList ++ [';'],
    Xml.isChar d = true := by
  have hall : ((Xml.entities.map Prod.fst).all fun name =>
      ('&' :: name.toList ++ [';']).all Xml.isChar) = true := by
    decide
  exact fun name hname => List.all_eq_true.1 (List.all_eq_true.1 hall name hname)

/-- A character is written with characters of XML if it is one itself. -/
theorem isChar_of_mem_escapeTextChar {c d : Char} (hc : Xml.isChar c = true)
    (hd : d ∈ escapeTextChar c) : Xml.isChar d = true := by
  unfold escapeTextChar at hd
  split at hd
  · exact isChar_reference "amp" (by decide) d hd
  · exact isChar_reference "lt" (by decide) d hd
  · exact isChar_reference "gt" (by decide) d hd
  · rwa [List.mem_singleton.1 hd]

theorem isChar_of_mem_escapeValueChar {c d : Char} (hc : Xml.isChar c = true)
    (hd : d ∈ escapeValueChar c) : Xml.isChar d = true := by
  unfold escapeValueChar at hd
  split at hd
  · exact isChar_reference "quot" (by decide) d hd
  · exact isChar_reference "apos" (by decide) d hd
  · exact isChar_of_mem_escapeTextChar hc hd

/-- An opening is written with characters of XML. -/
theorem isChar_of_mem_opening (h : (element name attributes children).HasNames)
    (hc : (element name attributes children).HasChars fun c => Xml.isChar c = true) {c : Char}
    (hmem : c ∈ opening name attributes) : Xml.isChar c = true := by
  obtain ⟨hname, hattributes, -⟩ := h
  rw [opening, List.mem_append, List.mem_cons, List.mem_flatMap] at hmem
  rcases hmem with (rfl | hmem) | ⟨a, ha, hmem⟩
  · decide
  · exact Xml.isChar_of_mem_name hname hmem
  · have ha := (perm_sortedAttributes attributes).subset ha
    simp only [attributeChars, List.cons_append, List.append_assoc, List.mem_cons, List.mem_append,
      List.not_mem_nil, or_false, escapeValue, List.mem_flatMap] at hmem
    rcases hmem with rfl | hmem | rfl | rfl | ⟨d, hd, hmem⟩ | rfl
    · decide
    · exact Xml.isChar_of_mem_name (hattributes a ha) hmem
    · decide
    · decide
    · exact isChar_of_mem_escapeValueChar (hc a ha d hd) hmem
    · decide

theorem isChar_of_mem_closing (h : Xml.isName name.toList = true) {c : Char}
    (hmem : c ∈ closing name) : Xml.isChar c = true := by
  simp only [closing, List.cons_append, List.mem_cons, List.mem_append, List.not_mem_nil,
    or_false] at hmem
  rcases hmem with rfl | rfl | rfl | hmem | rfl
  · decide
  · decide
  · decide
  · exact Xml.isChar_of_mem_name h hmem
  · decide

mutual

/-- A tree is written with characters of XML, if it has no others. -/
theorem isChar_of_mem_chars : ∀ m : Markup, m.All HasNames →
    m.All (HasChars fun c => Xml.isChar c = true) → ∀ c ∈ m.chars, Xml.isChar c = true
  | text content, _, hc, c, hmem => by
      obtain ⟨d, hd, hmem⟩ := List.mem_flatMap.1 hmem
      exact isChar_of_mem_escapeTextChar (all_text.1 hc d hd) hmem
  | element name attributes [], h, hc, c, hmem => by
      rw [chars, List.mem_append] at hmem
      rcases hmem with hmem | hmem
      · exact isChar_of_mem_opening (all_element.1 h).1 (all_element.1 hc).1 hmem
      · have hend : ∀ d ∈ ['/', '>'], Xml.isChar d = true := List.all_eq_true.1 (by decide)
        exact hend c hmem
  | element name attributes (child :: rest), h, hc, c, hmem => by
      rw [chars, List.mem_append, List.mem_append, List.mem_cons] at hmem
      rcases hmem with (hmem | rfl | hmem) | hmem
      · exact isChar_of_mem_opening (all_element.1 h).1 (all_element.1 hc).1 hmem
      · decide
      · exact isChar_of_mem_childrenChars (child :: rest) (all_element.1 h).2 (all_element.1 hc).2
          c hmem
      · exact isChar_of_mem_closing (all_element.1 h).1.1 hmem

theorem isChar_of_mem_childrenChars : ∀ children : List Markup, (∀ m ∈ children, m.All HasNames) →
    (∀ m ∈ children, m.All (HasChars fun c => Xml.isChar c = true)) →
    ∀ c ∈ childrenChars children, Xml.isChar c = true
  | [], _, _, _, hmem => absurd hmem List.not_mem_nil
  | child :: rest, h, hc, c, hmem => by
      rw [childrenChars, List.mem_append, List.mem_cons] at hmem
      rcases hmem with (rfl | hmem) | hmem
      · decide
      · exact isChar_of_mem_chars child (h child List.mem_cons_self) (hc child List.mem_cons_self)
          c hmem
      · exact isChar_of_mem_childrenChars rest (fun m hm => h m (List.mem_cons_of_mem _ hm))
          (fun m hm => hc m (List.mem_cons_of_mem _ hm)) c hmem

end

/-- A character that is not one of XML is written as it is. -/
theorem mem_escapeTextChar_or_isChar (c : Char) :
    c ∈ escapeTextChar c ∨ Xml.isChar c = true := by
  unfold escapeTextChar
  split
  · exact .inr (by decide)
  · exact .inr (by decide)
  · exact .inr (by decide)
  · exact .inl List.mem_cons_self

theorem mem_escapeValueChar_or_isChar (c : Char) :
    c ∈ escapeValueChar c ∨ Xml.isChar c = true := by
  unfold escapeValueChar
  split
  · exact .inr (by decide)
  · exact .inr (by decide)
  · exact mem_escapeTextChar_or_isChar c

/-- The values in an opening have only characters of XML, if it is written with such characters. -/
theorem hasChars_of_forall_mem_opening
    (h : ∀ c ∈ opening name attributes, Xml.isChar c = true) :
    (element name attributes children).HasChars fun c => Xml.isChar c = true := by
  intro a ha c hc
  rcases mem_escapeValueChar_or_isChar c with hmem | hchar
  · refine h c (List.mem_append_right _ (List.mem_flatMap.2 ⟨a, ?_, ?_⟩))
    · exact (perm_sortedAttributes attributes).symm.subset ha
    · have hvalue : c ∈ escapeValue a.value.toText.toList := List.mem_flatMap.2 ⟨c, hc, hmem⟩
      simp [attributeChars, hvalue]
  · exact hchar

mutual

/-- A tree has only characters of XML, if it is written with such characters. -/
theorem hasChars_of_forall_mem_chars : ∀ m : Markup, (∀ c ∈ m.chars, Xml.isChar c = true) →
    m.All (HasChars fun c => Xml.isChar c = true)
  | text content, h => all_text.2 fun c hc => by
      rcases mem_escapeTextChar_or_isChar c with hmem | hchar
      · exact h c (List.mem_flatMap.2 ⟨c, hc, hmem⟩)
      · exact hchar
  | element name attributes [], h => all_element.2
      ⟨hasChars_of_forall_mem_opening fun c hc => h c (List.mem_append_left _ hc), by simp⟩
  | element name attributes (child :: rest), h => all_element.2
      ⟨hasChars_of_forall_mem_opening fun c hc => h c (by simp [chars, hc]),
        hasChars_of_forall_mem_childrenChars (child :: rest) fun c hc => h c (by simp [chars, hc])⟩

theorem hasChars_of_forall_mem_childrenChars : ∀ children : List Markup,
    (∀ c ∈ childrenChars children, Xml.isChar c = true) →
    ∀ m ∈ children, m.All (HasChars fun c => Xml.isChar c = true)
  | [], _, _, hm => absurd hm List.not_mem_nil
  | child :: rest, h, m, hm => by
      have hchild := hasChars_of_forall_mem_chars child fun c hc =>
        h c (by simp [childrenChars, hc])
      have hrest := hasChars_of_forall_mem_childrenChars rest
        fun c hc => h c (by simp [childrenChars, hc])
      rcases List.mem_cons.1 hm with rfl | hm
      · exact hchild
      · exact hrest m hm

end

/-- **A tree that is written is well-formed** exactly if it has only characters of XML. -/
theorem isWellFormed_chars_iff (h : (element name attributes children).All HasNames) :
    Xml.IsWellFormed (element name attributes children).chars ↔
      (element name attributes children).All (HasChars fun c => Xml.isChar c = true) := by
  constructor
  · exact fun hwell => hasChars_of_forall_mem_chars _ hwell.isChar
  · intro hc
    obtain ⟨content, hdocument, -⟩ := isDocument_chars h
    exact ⟨isChar_of_mem_chars _ h hc, _, hdocument⟩

end Markup

end TextDiagram
