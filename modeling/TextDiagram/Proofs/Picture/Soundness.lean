/-
**Every picture can be written as XML.**

In the picture of a diagram, all names are names of XML and no element has an attribute twice.  The
elements of the class of nodes and those of the class of edges tell what they are drawings of.  And
the characters of a picture are printable ones of ASCII, or they come from the ids, the labels and
the icons of the diagram and from the fonts of the style.

Main definitions:

* `TextDiagram.Markup.IsSound` — what is asked of an element or a text;
* `TextDiagram.Look.HasChars` — the fonts of a look have only characters that are allowed;
* `TextDiagram.Diagram.HasChars` — so do the ids, labels and icons of a diagram.

Main results:

* `TextDiagram.Look.isSound_node`, `TextDiagram.Look.isSound_edgePath`,
  `TextDiagram.Look.isSound_edgeLabel` — every drawing is sound;
* `TextDiagram.Look.isSound_picture` — **the picture of a diagram is sound**.
-/

import TextDiagram.Proofs.Picture.Plain
import TextDiagram.Proofs.Picture.Reading

set_option relaxedAutoImplicit false
set_option autoImplicit false

namespace TextDiagram

open Markup (leaf label)
open Attribute (word length count)

/-! ### Attributes -/

namespace Attribute

@[simp] theorem name_length (name : String) (x : Float32) : (length name x).name = name := rfl

@[simp] theorem name_count (name : String) (n : Nat) : (count name n).name = name := rfl

/-- An attribute has a name of XML, and its value has only characters that are allowed. -/
def IsFit (allowed : Char → Prop) (a : Attribute) : Prop :=
  Xml.isName a.name.toList = true ∧ HasOnly allowed a.value.toText

variable {allowed : Char → Prop} {name value : String}

theorem isFit_word (hname : Xml.isName name.toList = true) (h : HasOnly allowed value) :
    (word name value).IsFit allowed := ⟨hname, h⟩

variable (hallowed : ∀ c, isPlain c = true → allowed c) (hname : Xml.isName name.toList = true)

include hallowed hname

theorem isFit_plain (h : IsPlain value) : (word name value).IsFit allowed :=
  ⟨hname, h.hasOnly hallowed⟩

theorem isFit_length (x : Float32) : (length name x).IsFit allowed :=
  ⟨hname, (Number.isPlain_text x).hasOnly hallowed⟩

theorem isFit_count (n : Nat) : (count name n).IsFit allowed :=
  ⟨hname, (isPlain_toString n).hasOnly hallowed⟩

end Attribute

/-! ### Sound trees -/

namespace Markup

/-- What is asked of an element or a text: its names are names of XML, its characters are allowed,
and it tells what it is a drawing of if it is of the class of nodes or of edges. -/
structure IsSound (allowed : Char → Prop) (t : Markup) : Prop where
  names : t.HasNames
  chars : t.HasChars allowed
  node : t.attribute? "class" = some "node" →
    t.isOfClass "g" "node" = true ∧ (t.attribute? "data-node").isSome = true
  edge : t.attribute? "class" = some "edge" →
    t.isOfClass "path" "edge" = true ∧ (t.attribute? "data-edge").isSome = true

variable {allowed : Char → Prop} {name : String} {attributes : List Attribute}
  {children : List Markup}

theorem isSound_text {content : String} (h : HasOnly allowed content) :
    (text content).IsSound allowed := ⟨trivial, h, nofun, nofun⟩

/-- An element whose class is neither that of nodes nor that of edges. -/
theorem isSound_element (hname : Xml.isName name.toList = true)
    (h : ∀ a ∈ attributes, a.IsFit allowed) (hnodup : (attributes.map Attribute.name).Nodup)
    (hclass : ∀ a ∈ attributes, a.name = "class" →
      a.value.toText ≠ "node" ∧ a.value.toText ≠ "edge") :
    (element name attributes children).IsSound allowed := by
  have hvalue : ∀ value, (element name attributes children).attribute? "class" = some value →
      value ≠ "node" ∧ value ≠ "edge" := by
    intro value hvalue
    obtain ⟨a, ha, rfl⟩ := Option.map_eq_some_iff.1 hvalue
    exact hclass a (List.mem_of_find?_eq_some ha) (by simpa using List.find?_some ha)
  exact ⟨⟨hname, fun a ha => (h a ha).1, hnodup⟩, fun a ha => (h a ha).2,
    fun hnode => absurd rfl (hvalue _ hnode).1, fun hedge => absurd rfl (hvalue _ hedge).2⟩

theorem all_leaf (h : (leaf name attributes).IsSound allowed) :
    (leaf name attributes).All (IsSound allowed) := all_element.2 ⟨h, by simp⟩

theorem all_label {content : String} (h : (label attributes content).IsSound allowed)
    (hcontent : HasOnly allowed content) :
    (label attributes content).All (IsSound allowed) := by
  refine all_element.2 ⟨h, ?_⟩
  intro child hchild
  rw [List.mem_singleton.1 hchild]
  exact all_text.2 (isSound_text hcontent)

end Markup

/-! ### What drawings are made from -/

/-- The texts of a palette are plain. -/
structure Palette.IsPlain (palette : Palette) : Prop where
  fill : TextDiagram.IsPlain palette.fill
  stroke : TextDiagram.IsPlain palette.stroke
  text : TextDiagram.IsPlain palette.text

theorem Palette.isPlain_of {color : Color} (h : color.HasPlainName) (mode : ColorMode) :
    (Palette.of color mode).IsPlain := by
  have hcss := Color.isPlain_css h
  cases mode with
  | pastel => exact ⟨hcss, hcss, (by decide : TextDiagram.IsPlain "black")⟩
  | bold => exact ⟨hcss, hcss, (by decide : TextDiagram.IsPlain "white")⟩
  | outline => exact ⟨(by decide : TextDiagram.IsPlain "white"), hcss, hcss⟩

theorem NodeKind.hasPlainName_color (kind : NodeKind) : kind.color.HasPlainName := by
  have hblack : Color.black.HasPlainName := by
    rintro _ ⟨⟩
    decide
  cases kind with
  | default => exact Color.hasPlainName_resolve hblack _
  | group => exact Color.hasPlainName_resolve hblack _

/-- The colors of a look have plain names, and its fonts only characters that are allowed. -/
structure Look.HasChars (allowed : Char → Prop) (look : Look) : Prop where
  background : ∀ color, look.background = some color → color.HasPlainName
  edge : look.edge.HasPlainName
  font : ∀ typeface, HasOnly allowed (look.fontFamily typeface)

/-- The label of a node has only characters that are allowed, and so has the icon, which is not
drawn in a group. -/
structure Diagram.Node.HasChars (allowed : Char → Prop) (n : Diagram.Node Float32) : Prop where
  label : HasOnly allowed n.label
  icon : n.kind = .default → ∀ icon, n.icon = some icon → HasOnly allowed icon

/-- The ids, labels and icons of a diagram have only characters that are allowed. -/
structure Diagram.HasChars (allowed : Char → Prop) (d : Diagram Float32) : Prop where
  nodes : ∀ p ∈ d.nodes.entries, HasOnly allowed p.1 ∧ p.2.HasChars allowed
  edges : ∀ p ∈ d.edges.entries, HasOnly allowed p.1 ∧
    ∀ label, p.2.label = some label → HasOnly allowed label

theorem Diagram.hasChars_true (d : Diagram Float32) : d.HasChars fun _ => True :=
  have htext : ∀ text, HasOnly (fun _ => True) text := fun _ _ _ => trivial
  ⟨fun _ _ => ⟨htext _, htext _, fun _ _ _ => htext _⟩, fun _ _ => ⟨htext _, fun _ _ => htext _⟩⟩

/-! ### Drawings -/

namespace Look

open Markup (IsSound isSound_element)
open Attribute (isFit_word isFit_plain isFit_length isFit_count)

variable {allowed : Char → Prop} (hallowed : ∀ c, isPlain c = true → allowed c) {look : Look}

include hallowed

theorem isSound_shadow (box : Box Float32) : (shadow box).All (IsSound allowed) := by
  refine Markup.all_leaf (isSound_element (by decide) ?_ ?_ ?_)
  · simp (disch := decide) [frame, isFit_plain hallowed, isFit_length hallowed]
  · simp [frame]
  · simp [frame]

theorem isSound_nodeBox (box : Box Float32) {palette : Palette} (h : palette.IsPlain)
    (kind : NodeKind) (mode : StyleMode) :
    (nodeBox box palette kind mode).All (IsSound allowed) := by
  refine Markup.all_leaf (isSound_element (by decide) ?_ ?_ ?_)
  · have hfilling : ∀ a ∈ filling palette kind mode, a.IsFit allowed := by
      unfold filling
      split
      all_goals simp (disch := decide) [isFit_plain hallowed, isFit_length hallowed]
    simp only [List.forall_mem_append]
    refine ⟨⟨?_, ?_⟩, hfilling⟩
    · simp (disch := decide) [frame, isFit_length hallowed]
    · simp (disch := first | decide | exact h.fill | exact h.stroke) [isFit_plain hallowed]
  · unfold filling
    split
    all_goals simp [frame]
  · unfold filling
    split
    all_goals simp [frame]

theorem isSound_groupLabel {family : String} (hfamily : HasOnly allowed family) {palette : Palette}
    (h : palette.IsPlain) (box : Box Float32) {content : String}
    (hcontent : HasOnly allowed content) :
    (look.groupLabel family palette box content).All (IsSound allowed) := by
  refine Markup.all_label (isSound_element (by decide) ?_ ?_ ?_) hcontent
  · simp (disch := first | decide | exact h.stroke | exact hfamily) [fontSize, isFit_word,
      isFit_plain hallowed, isFit_length hallowed, isFit_count hallowed]
  · simp [fontSize]
  · simp [fontSize]

theorem isSound_caption {family : String} (hfamily : HasOnly allowed family) {palette : Palette}
    (h : palette.IsPlain) (center : Point Float32) {icon : String}
    (hicon : HasOnly allowed icon) :
    (look.caption family palette center icon).All (IsSound allowed) := by
  refine Markup.all_label (isSound_element (by decide) ?_ ?_ ?_) hicon
  · simp (disch := first | decide | exact h.text | exact hfamily) [centered, isFit_word,
      isFit_plain hallowed, isFit_length hallowed]
  · simp [centered]
  · simp [centered]

theorem isSound_nodeLabel {family : String} (hfamily : HasOnly allowed family) {palette : Palette}
    (h : palette.IsPlain) (center : Point Float32) {content : String}
    (hcontent : HasOnly allowed content) :
    (look.nodeLabel family palette center content).All (IsSound allowed) := by
  refine Markup.all_label (isSound_element (by decide) ?_ ?_ ?_) hcontent
  · simp (disch := first | decide | exact h.text | exact hfamily) [centered, fontSize, isFit_word,
      isFit_plain hallowed, isFit_length hallowed, isFit_count hallowed]
  · simp [centered, fontSize]
  · simp [centered, fontSize]

theorem isSound_texts (hlook : look.HasChars allowed) {n : Diagram.Node Float32}
    (hn : n.HasChars allowed) (typeface : Typeface) {palette : Palette} (h : palette.IsPlain) :
    ∀ m ∈ look.texts n (look.fontFamily typeface) palette, m.All (IsSound allowed) := by
  have hfamily := hlook.font typeface
  cases hkind : n.kind with
  | group =>
      simp only [texts, hkind, List.forall_mem_singleton]
      exact isSound_groupLabel hallowed hfamily h n.box hn.label
  | default =>
      cases hicon : n.icon with
      | none =>
          simp only [texts, hkind, hicon, List.forall_mem_singleton]
          exact isSound_nodeLabel hallowed hfamily h n.box.center hn.label
      | some icon =>
          simp only [texts, hkind, hicon, List.forall_mem_cons, List.not_mem_nil, false_imp_iff,
            implies_true, and_true]
          exact ⟨isSound_caption hallowed hfamily h _ (hn.icon hkind icon hicon),
            isSound_nodeLabel hallowed hfamily h _ hn.label⟩

/-- The drawing of a node is sound. -/
theorem isSound_node (hlook : look.HasChars allowed) (inherited : Appearance) {id : Id}
    (hid : HasOnly allowed id) {n : Diagram.Node Float32} (hn : n.HasChars allowed) :
    (look.node inherited id n).All (IsSound allowed) := by
  have hkind : IsPlain n.kind.name := by
    cases n.kind with
    | default => exact (by decide : IsPlain "default")
    | group => exact (by decide : IsPlain "group")
  have hpalette := Palette.isPlain_of (Color.hasPlainName_resolve n.kind.hasPlainName_color n.color)
    (n.appearance.getD inherited).colorMode
  have hattributes : ∀ a ∈ [word "class" "node", word "data-node" id,
      word "data-kind" n.kind.name], a.IsFit allowed := by
    simp (disch := first | decide | exact hid | exact hkind) [isFit_word, isFit_plain hallowed]
  refine Markup.all_element.2 ⟨⟨⟨by decide, fun a ha => (hattributes a ha).1, by simp⟩,
    fun a ha => (hattributes a ha).2, ?_, ?_⟩, ?_⟩
  · simp [Markup.isOfClass, Markup.attribute?]
  · simp [Markup.attribute?]
  · simp only [List.forall_mem_append, List.forall_mem_singleton]
    refine ⟨⟨?_, isSound_nodeBox hallowed n.box hpalette n.kind _⟩,
      isSound_texts hallowed hlook hn _ hpalette⟩
    split
    · simpa using isSound_shadow hallowed n.box
    · simp

theorem isSound_marker (head : Head) {color : Color} (h : color.HasPlainName) :
    (head.marker color).All (IsSound allowed) := by
  have hid := Head.isPlain_id head h
  have houtline : IsPlain head.outline := by
    cases head with
    | left => decide
    | right => decide
  have hcss := Color.isPlain_css h
  refine Markup.all_element.2 ⟨isSound_element (by decide) ?_ ?_ ?_, ?_⟩
  · simp (disch := first | decide | exact hid) [isFit_plain hallowed, isFit_count hallowed]
  · simp
  · simp
  · simp only [List.forall_mem_singleton]
    refine Markup.all_leaf (isSound_element (by decide) ?_ ?_ ?_)
    · simp (disch := first | decide | exact houtline | exact hcss) [isFit_plain hallowed,
        isFit_length hallowed]
    · simp
    · simp

omit hallowed in
theorem hasPlainName_colorOf (hlook : look.HasChars allowed) (e : Diagram.Edge) :
    (look.colorOf e).HasPlainName := Color.hasPlainName_resolve hlook.edge _

omit hallowed in
/-- The different colors of a list are in the list. -/
theorem mem_of_mem_distinct {colors : List Color} {color : Color}
    (h : color ∈ Color.distinct colors) : color ∈ colors := by
  refine List.foldlRecOn (motive := fun seen : List Color => ∀ c ∈ seen, c ∈ colors) colors _
    (by simp) ?_ color h
  intro seen hseen c hc
  split
  · exact hseen
  · intro other hother
    rcases List.mem_append.1 hother with hother | hother
    · exact hseen other hother
    · exact List.mem_singleton.1 hother ▸ hc

theorem isSound_definitions (hlook : look.HasChars allowed) (edges : List Diagram.Edge) :
    (look.definitions edges).All (IsSound allowed) := by
  refine Markup.all_element.2 ⟨isSound_element (by decide) (by simp) (by simp) (by simp), ?_⟩
  intro m hm
  obtain ⟨head, -, hm⟩ := List.mem_flatMap.1 hm
  obtain ⟨color, hcolor, rfl⟩ := List.mem_map.1 hm
  obtain ⟨e, -, rfl⟩ := List.mem_map.1 (mem_of_mem_distinct hcolor)
  exact isSound_marker hallowed head (hasPlainName_colorOf hlook e)

/-- The references of an edge to its heads are fit. -/
theorem isFit_of_mem_headReference {color : Color} (h : color.HasPlainName) (kind : EdgeKind)
    (head : Head) : ∀ a ∈ headReference color kind head, a.IsFit allowed := by
  have hurl : IsPlain ("url(#" ++ head.id color ++ ")") := by
    simpa using ⟨⟨by decide, Head.isPlain_id head h⟩, by decide⟩
  have hplace : ∀ place, Xml.isName place.toList = true →
      (word place ("url(#" ++ head.id color ++ ")")).IsFit allowed :=
    fun place hname => isFit_plain hallowed hname hurl
  intro a ha
  cases head with
  | left =>
      obtain ⟨-, ha⟩ := List.mem_ite_nil_right.1 ha
      exact List.mem_singleton.1 ha ▸ hplace "marker-start" (by decide)
  | right =>
      obtain ⟨-, ha⟩ := List.mem_ite_nil_right.1 ha
      exact List.mem_singleton.1 ha ▸ hplace "marker-end" (by decide)

/-- The path of an edge is sound. -/
theorem isSound_edgePath (hlook : look.HasChars allowed) {id : Id} (hid : HasOnly allowed id)
    (e : Diagram.Edge) (route : Route Float32) :
    (look.edgePath id e route).All (IsSound allowed) := by
  have hcolor := hasPlainName_colorOf hlook e
  have hcss := Color.isPlain_css hcolor
  have hdata := route.curve.isPlain_pathData
  have hfit : ∀ a ∈ [word "class" "edge", word "data-edge" id, word "d" route.curve.pathData,
      word "fill" "none", word "stroke" (look.colorOf e).css,
      length "stroke-opacity" (look.colorOf e).alpha, word "stroke-width" "1.5"] ++
      (if e.kind.isDashed then [word "stroke-dasharray" "5,5"] else []) ++
      headReference (look.colorOf e) e.kind .left ++ headReference (look.colorOf e) e.kind .right,
      a.IsFit allowed := by
    simp only [List.forall_mem_append]
    refine ⟨⟨⟨?_, ?_⟩, isFit_of_mem_headReference hallowed hcolor e.kind .left⟩,
      isFit_of_mem_headReference hallowed hcolor e.kind .right⟩
    · simp (disch := first | decide | exact hid | exact hcss | exact hdata) [isFit_word,
        isFit_plain hallowed, isFit_length hallowed]
    · split
      · simp (disch := decide) [isFit_plain hallowed]
      · simp
  refine Markup.all_leaf ⟨⟨by decide, fun a ha => (hfit a ha).1, ?_⟩, fun a ha => (hfit a ha).2,
    ?_, ?_⟩
  · -- each of the three attributes that only some edges have has a name of its own
    cases hdashed : e.kind.isDashed <;> cases hleft : Head.left.isOn e.kind <;>
      cases hright : Head.right.isOn e.kind <;> simp [headReference, hleft, hright]
  · simp [leaf, Markup.attribute?]
  · simp [leaf, Markup.isOfClass, Markup.attribute?]

theorem isSound_plate (center : Point Float32) (size : Size Float32) :
    (plate center size).All (IsSound allowed) := by
  refine Markup.all_leaf (isSound_element (by decide) ?_ ?_ ?_)
  · simp (disch := decide) [frame, isFit_plain hallowed, isFit_length hallowed]
  · simp [frame]
  · simp [frame]

/-- The label of an edge is sound. -/
theorem isSound_edgeLabel (hlook : look.HasChars allowed) (typeface : Typeface) {content : String}
    (h : HasOnly allowed content) (route : Route Float32) :
    (look.edgeLabel typeface content route).All (IsSound allowed) := by
  have hfamily := hlook.font typeface
  refine Markup.all_element.2 ⟨isSound_element (by decide) ?_ (by simp) (by simp), ?_⟩
  · simp (disch := decide) [isFit_plain hallowed]
  · simp only [List.forall_mem_cons, List.not_mem_nil, false_imp_iff, implies_true, and_true]
    refine ⟨isSound_plate hallowed _ _, Markup.all_label (isSound_element (by decide) ?_ ?_ ?_) h⟩
    · simp (disch := first | decide | exact hfamily) [centered, fontSize, isFit_word,
        isFit_plain hallowed, isFit_length hallowed, isFit_count hallowed]
    · simp [centered, fontSize]
    · simp [centered, fontSize]

theorem isSound_ground (hlook : look.HasChars allowed) :
    ∀ m ∈ look.ground, m.All (IsSound allowed) := by
  unfold ground
  split
  · simp
  · next color hcolor =>
      have hcss := Color.isPlain_css (hlook.background color hcolor)
      simp only [List.forall_mem_singleton]
      refine Markup.all_leaf (isSound_element (by decide) ?_ ?_ ?_)
      · simp (disch := first | decide | exact hcss) [isFit_plain hallowed, isFit_length hallowed]
      · simp
      · simp

/-! ### Pictures -/

/-- The drawings of everything in a diagram are sound. -/
theorem isSound_of_mem_layers (hlook : look.HasChars allowed) {d : Diagram Float32}
    (hd : d.HasChars allowed) : ∀ m ∈ look.layers d, m.All (IsSound allowed) := by
  have hnodes : ∀ groups, ∀ m ∈ look.nodes d groups, m.All (IsSound allowed) := by
    intro groups m hm
    obtain ⟨p, hp, rfl⟩ := List.mem_map.1 hm
    obtain ⟨hid, hn⟩ := hd.nodes p (List.mem_filter.1 hp).1
    exact isSound_node hallowed hlook d.appearance hid hn
  simp only [layers, List.forall_mem_append]
  refine ⟨⟨⟨hnodes true, ?_⟩, hnodes false⟩, ?_⟩
  · intro m hm
    obtain ⟨p, hp, hm⟩ := List.mem_filterMap.1 hm
    obtain ⟨route, -, rfl⟩ := Option.map_eq_some_iff.1 hm
    exact isSound_edgePath hallowed hlook (hd.edges p hp).1 p.2 route
  · intro m hm
    obtain ⟨p, hp, hm⟩ := List.mem_filterMap.1 hm
    obtain ⟨content, hcontent, hm⟩ := Option.bind_eq_some_iff.1 hm
    obtain ⟨route, -, hm⟩ := Option.bind_eq_some_iff.1 hm
    obtain rfl := Option.some.inj hm
    exact isSound_edgeLabel hallowed hlook _ ((hd.edges p hp).2 content hcontent) route

/-- **The picture of a diagram is sound.** -/
theorem isSound_picture (hlook : look.HasChars allowed) {d : Diagram Float32}
    (hd : d.HasChars allowed) : (look.picture d).All (IsSound allowed) := by
  have hpair : ∀ separator, IsPlain separator → ∀ x y, IsPlain (pair separator x y) := by
    intro separator h x y
    simp [pair, h]
  have hbox : ∀ x y, IsPlain ("0 0 " ++ pair " " x y) := by
    intro x y
    simpa using ⟨by decide, hpair " " (by decide) x y⟩
  have hshift : ∀ x y, IsPlain ("translate(" ++ pair ", " x y ++ ")") := by
    intro x y
    simpa using ⟨⟨by decide, hpair ", " (by decide) x y⟩, by decide⟩
  refine Markup.all_element.2 ⟨isSound_element (by decide) ?_ (by simp) (by simp), ?_⟩
  · simp (disch := first | decide | exact hbox _ _) [isFit_plain hallowed, isFit_length hallowed]
  · simp only [List.forall_mem_append, List.forall_mem_singleton]
    refine ⟨⟨isSound_ground hallowed hlook, isSound_definitions hallowed hlook _⟩, ?_⟩
    refine Markup.all_element.2 ⟨isSound_element (by decide) ?_ (by simp) (by simp),
      isSound_of_mem_layers hallowed hlook hd⟩
    simp (disch := first | decide | exact hshift _ _) [isFit_plain hallowed]

end Look

end TextDiagram
