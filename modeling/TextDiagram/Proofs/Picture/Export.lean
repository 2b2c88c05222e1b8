/-
**The picture of a text is XML.**

Whatever a text says, its picture follows the rules of XML: every value and every text is escaped
when it is written.  Read again, the elements of the class of nodes tell the ids of the nodes, and
those of the class of edges the ids of the edges.

What is not kept out are single characters.  Ids, labels and icons may have characters that XML does
not know at all, such as most control characters, and these are written as they are.  A text without
such characters has a well-formed picture.

Main definitions:

* `TextDiagram.Markup.mark?` — what an element of a class tells of itself.

Main results:

* `TextDiagram.Markup.marks_node`, `TextDiagram.Markup.marks_edge` — the elements of a class tell
  the ids of the figures;
* `TextDiagram.Diagram.hasChars_ofDocument` — a diagram has the characters of its text;
* `TextDiagram.Configuration.exists_svg_isDocument` — **the picture of a text is a document of
  XML**, and it is well-formed if the text has only characters of XML.
-/

import TextDiagram.Proofs.Picture.Completeness
import TextDiagram.Proofs.Picture.Soundness
import TextDiagram.Proofs.Statement.Characters

set_option relaxedAutoImplicit false
set_option autoImplicit false

namespace TextDiagram

/-! ### What elements tell of themselves -/

namespace Markup

variable {allowed : Char → Prop} {m : Markup} {root : Xml.Item}

/-- What an element of a class tells of itself by an attribute. -/
def mark? (elementClass key : String) (t : Markup) : Option (Option String) :=
  if t.attribute? "class" = some elementClass then some (t.attribute? key) else none

/-- What is read again is told by the elements of a class. -/
theorem marks_eq (h : m.All (IsSound allowed)) (hroot : m.items = [root])
    (elementClass key : String) :
    root.marks elementClass key = m.subtrees.filterMap (mark? elementClass key) := by
  have htags : root.tags = m.subtrees.filterMap tag? := by
    rw [← tags_items, hroot, Xml.tagsIn, Xml.tagsIn, List.append_nil]
  rw [Xml.Item.marks, htags, List.filter_filterMap, List.map_filterMap]
  refine List.filterMap_congr ?_
  intro t ht
  cases t with
  | text content => rfl
  | element name attributes children =>
      have hvalue : ∀ key, (tag name attributes).value? key =
          (element name attributes children).attribute? key := value?_tag (h _ ht).names
      simp only [tag?, mark?, Option.filter_some, hvalue, decide_eq_true_eq]
      split
      · rw [Option.map_some, hvalue]
      · rfl

/-- What elements tell of themselves, if each tells the id of the figure that it is. -/
theorem marks_eq_figures {f : Figure → Option Id} {elementClass key : String}
    (h : m.All (IsSound allowed)) (hroot : m.items = [root])
    (hf : ∀ t : Markup, t.IsSound allowed →
      t.mark? elementClass key = (t.figure?.bind f).map some) :
    root.marks elementClass key = (m.figures.filterMap f).map some := by
  rw [marks_eq h hroot, figures, List.filterMap_filterMap, List.map_filterMap]
  exact List.filterMap_congr fun t ht => hf t (h t ht)

theorem isOfClass_eq_false {t : Markup} {name value : String}
    (h : t.attribute? "class" ≠ some value) : t.isOfClass name value = false := by
  cases t with
  | text content => rfl
  | element own attributes children => simp [isOfClass, h]

/-- The elements of the class of nodes tell the ids of the nodes. -/
theorem marks_node (h : m.All (IsSound allowed)) (hroot : m.items = [root]) :
    root.marks "node" "data-node" = (m.figures.filterMap Figure.node?).map some := by
  refine marks_eq_figures h hroot ?_
  intro t ht
  by_cases hclass : t.attribute? "class" = some "node"
  · obtain ⟨hnode, hid⟩ := ht.node hclass
    obtain ⟨id, hid⟩ := Option.isSome_iff_exists.1 hid
    rw [mark?, if_pos hclass, figure?, if_pos hnode, hid]
    by_cases hkind : t.attribute? "data-kind" = some NodeKind.group.name
    · simp [hkind, Figure.node?]
    · simp [hkind, Figure.node?]
  · rw [mark?, if_neg hclass, figure?, isOfClass_eq_false hclass]
    simp only [Bool.false_eq_true, if_false]
    split
    · rfl
    · split
      · rfl
      · rfl

/-- The elements of the class of edges tell the ids of the edges. -/
theorem marks_edge (h : m.All (IsSound allowed)) (hroot : m.items = [root]) :
    root.marks "edge" "data-edge" = (m.figures.filterMap Figure.path?).map some := by
  refine marks_eq_figures h hroot ?_
  intro t ht
  by_cases hclass : t.attribute? "class" = some "edge"
  · obtain ⟨hedge, hid⟩ := ht.edge hclass
    obtain ⟨id, hid⟩ := Option.isSome_iff_exists.1 hid
    have hnode : t.isOfClass "g" "node" = false := isOfClass_eq_false (by simp [hclass])
    rw [mark?, if_pos hclass, figure?, hnode, hedge, hid]
    rfl
  · rw [mark?, if_neg hclass, figure?, isOfClass_eq_false hclass]
    simp only [Bool.false_eq_true, if_false]
    split
    · split
      · rfl
      · rfl
    · split
      · rfl
      · rfl

end Markup

/-! ### The characters of a diagram -/

/-- XML knows the printable characters of ASCII. -/
theorem Xml.isChar_of_isPlain (c : Char) (h : isPlain c = true) : isChar c = true := by
  simp only [isPlain, isChar, isIn, List.any_cons, List.any_nil, Bool.or_false, Bool.or_eq_true,
    Bool.and_eq_true, decide_eq_true_eq] at h ⊢
  omega

namespace Diagram

variable {allowed : Char → Prop} {names : List Id} {document : Document} {style : Style}

/-- A diagram of a text has the characters of what the text says, and printable ones of ASCII. -/
theorem hasChars_ofDocument (hallowed : ∀ c, isPlain c = true → allowed c) {text : String}
    (htext : ∀ p ∈ statements text, p.2.HasChars allowed) (h : document.IsSound names)
    (hdescribed : document.IsDescribedBy (mentionedNames (statements text)) (statements text))
    (positions : Catalog (Point Float32)) :
    ((ofDocument style document).placed positions).HasChars allowed where
  nodes := by
    intro p hp
    rw [placed, rerouted_nodes] at hp
    obtain ⟨unplaced, hunplaced, rfl⟩ := List.mem_map.1 hp
    rw [entries_nodes_ofDocument style h] at hunplaced
    obtain ⟨n, hn, rfl⟩ := List.mem_map.1 hunplaced
    obtain ⟨position, hposition⟩ :=
      (Node.ofDocument style document.appearance n).exists_placedBy_eq (positions.get? n.id)
    show HasOnly allowed n.id ∧
      ((Node.ofDocument style document.appearance n).placedBy
        (positions.get? n.id)).HasChars allowed
    rw [hposition]
    obtain ⟨before, said, hbefore, hmem, -, heq⟩ := hdescribed.nodes n hn
    have hsaid : said.2.HasChars allowed := htext said (hbefore.subset (by simp))
    have hid : HasOnly allowed n.id := hsaid.hasOnly_of_mem_names hmem
    obtain ⟨line, statement⟩ := said
    rw [heq]
    cases statement with
    | directive x => exact absurd hmem List.not_mem_nil
    | edge e => exact ⟨hid, hid, fun _ icon hicon => by cases hicon⟩
    | node declared => exact ⟨hid, hid, fun _ => hsaid.2⟩
  edges := by
    intro p hp
    rw [placed_edges, entries_edges_ofDocument style h, hdescribed.edges] at hp
    obtain ⟨e, he, rfl⟩ := List.mem_map.1 hp
    obtain ⟨⟨line, statement⟩, hsaid, he⟩ := List.mem_filterMap.1 he
    have hsaid : statement.HasChars allowed := htext _ hsaid
    cases statement with
    | directive x => cases he
    | node declared => cases he
    | edge stated =>
        obtain rfl := Option.some.inj he
        refine ⟨Id.hasOnly_primedUntilFree (hallowed _ (by decide)) ?_, hsaid.2.2⟩
        exact Id.hasOnly_edge hallowed hsaid.1 hsaid.2.1 line

end Diagram

/-! ### The characters of a picture -/

/-- An element that holds a text has the characters of the text. -/
theorem Markup.hasOnly_of_all_label {allowed : Char → Prop} {attributes : List Attribute}
    {content : String} (h : (label attributes content).All (HasChars allowed)) :
    HasOnly allowed content :=
  all_text.1 ((all_element.1 h).2 _ List.mem_cons_self)

namespace Look

variable {allowed : Char → Prop} {look : Look} {d : Diagram Float32} {id : Id}

/-- The drawing of a node has the characters of its id, its label and its icon. -/
theorem hasChars_of_all_node {inherited : Appearance} {n : Diagram.Node Float32}
    (h : (look.node inherited id n).All (Markup.HasChars allowed)) :
    HasOnly allowed id ∧ n.HasChars allowed := by
  obtain ⟨hattributes, hchildren⟩ := Markup.all_element.1 h
  have htexts := fun m hm => hchildren m (List.mem_append_right _ hm)
  refine ⟨hattributes (Attribute.word "data-node" id) (by simp), ?_⟩
  cases hkind : n.kind with
  | group =>
      simp only [texts, hkind, List.forall_mem_singleton] at htexts
      refine ⟨Markup.hasOnly_of_all_label htexts, fun hdefault => ?_⟩
      rw [hkind] at hdefault
      cases hdefault
  | default =>
      cases hicon : n.icon with
      | none =>
          simp only [texts, hkind, hicon, List.forall_mem_singleton] at htexts
          refine ⟨Markup.hasOnly_of_all_label htexts, fun _ icon heq => ?_⟩
          rw [hicon] at heq
          cases heq
      | some icon =>
          simp only [texts, hkind, hicon, List.forall_mem_cons, List.not_mem_nil, false_imp_iff,
            implies_true, and_true] at htexts
          refine ⟨Markup.hasOnly_of_all_label htexts.2, fun _ other heq => ?_⟩
          rw [hicon] at heq
          exact Option.some.inj heq ▸ Markup.hasOnly_of_all_label htexts.1

/-- The path of an edge has the characters of its id. -/
theorem hasOnly_of_all_edgePath {e : Diagram.Edge} {route : Route Float32}
    (h : (look.edgePath id e route).All (Markup.HasChars allowed)) : HasOnly allowed id :=
  (Markup.all_element.1 h).1 (Attribute.word "data-edge" id) (by simp)

/-- The label of an edge has the characters of what it says. -/
theorem hasOnly_of_all_edgeLabel {typeface : Typeface} {content : String} {route : Route Float32}
    (h : (look.edgeLabel typeface content route).All (Markup.HasChars allowed)) :
    HasOnly allowed content :=
  Markup.hasOnly_of_all_label
    ((Markup.all_element.1 h).2 _ (List.mem_cons_of_mem _ List.mem_cons_self))

/-- The picture of a diagram has the characters of its ids, its labels and its icons. -/
theorem hasChars_of_all_picture (hroutes : d.routes.ids = d.edges.ids)
    (h : (look.picture d).All (Markup.HasChars allowed)) : d.HasChars allowed := by
  have hlayers : ∀ m ∈ look.layers d, m.All (Markup.HasChars allowed) :=
    (Markup.all_element.1
      ((Markup.all_element.1 h).2 _ (List.mem_append_right _ List.mem_cons_self))).2
  have hedge : ∀ p ∈ d.edges.entries, ∃ route, d.routes.get? p.1 = some route :=
    fun p hp => exists_route_of_mem hroutes hp
  constructor
  · intro p hp
    refine hasChars_of_all_node (hlayers (look.node d.appearance p.1 p.2) ?_)
    have hmem : look.node d.appearance p.1 p.2 ∈ look.nodes d p.2.isGroup :=
      List.mem_map.2 ⟨p, List.mem_filter.2 ⟨hp, by simp⟩, rfl⟩
    cases hgroup : p.2.isGroup with
    | true => simp [layers, hgroup ▸ hmem]
    | false => simp [layers, hgroup ▸ hmem]
  · intro p hp
    obtain ⟨route, hroute⟩ := hedge p hp
    constructor
    · refine hasOnly_of_all_edgePath (hlayers (look.edgePath p.1 p.2 route) ?_)
      have hmem : look.edgePath p.1 p.2 route ∈ look.edgePaths d :=
        List.mem_filterMap.2 ⟨p, hp, by simp [hroute]⟩
      simp [layers, hmem]
    · intro content hcontent
      refine hasOnly_of_all_edgeLabel
        (hlayers (look.edgeLabel d.appearance.typeface content route) ?_)
      have hmem : look.edgeLabel d.appearance.typeface content route ∈ look.edgeLabels d :=
        List.mem_filterMap.2 ⟨p, hp, by simp [hcontent, hroute]⟩
      simp [layers, hmem]

end Look

/-! ### From a text to its picture -/

namespace Look

variable {allowed : Char → Prop} {style : Style} {look : Look}

/-- The colors of a look have plain names, and its fonts are the ones that are set or plain. -/
theorem hasChars_of_ofStyle (hallowed : ∀ c, isPlain c = true → allowed c)
    (hfont : ∀ family, style.fontFamily = some family → HasOnly allowed family)
    (h : ofStyle style = .ok look) : look.HasChars allowed := by
  obtain ⟨hbackground, hedge, rfl⟩ := ofStyle_eq_ok_iff.1 h
  refine ⟨?_, Color.hasPlainName_of_read (Style.read_of_edge hedge), ?_⟩
  · intro color hcolor
    rw [hcolor] at hbackground
    obtain ⟨given, -, hread⟩ := Style.read_of_background hbackground
    exact Color.hasPlainName_of_read hread
  · intro typeface
    unfold fontFamily
    split
    · next family hfamily => exact hfont family hfamily
    all_goals exact (by decide : IsPlain _).hasOnly hallowed

/-- The picture of a diagram is a document of XML.  Read again, the elements of the class of nodes
tell the ids of the nodes, and those of the class of edges the ids of the edges. -/
theorem isDocument_picture {d : Diagram Float32} (hlook : look.HasChars fun _ => True)
    (hroutes : d.routes.ids = d.edges.ids) :
    ∃ root, Xml.IsDocument (look.picture d).print.toList root ∧
      (root.marks "node" "data-node").Perm (d.nodes.ids.map some) ∧
      root.marks "edge" "data-edge" = d.edges.ids.map some := by
  have hfigures := look.figures_picture d hroutes
  have hsound := isSound_picture (fun _ _ => trivial) hlook d.hasChars_true
  obtain ⟨name, attributes, children, hpicture⟩ : ∃ name attributes children,
      look.picture d = .element name attributes children := ⟨_, _, _, rfl⟩
  rw [hpicture] at hfigures hsound ⊢
  obtain ⟨content, hdocument, hitems⟩ := Markup.isDocument_chars (hsound.mono fun _ h => h.names)
  refine ⟨.element (Markup.tag name attributes) content, ?_, ?_, ?_⟩
  · rw [Markup.print, String.toList_ofList]
    exact hdocument
  · rw [Markup.marks_node hsound hitems, hfigures]
    exact (Diagram.perm_node?_figures d).map some
  · rw [Markup.marks_edge hsound hitems, hfigures, Diagram.path?_figures]

/-- The picture of a diagram is well-formed exactly if the diagram has only characters of XML. -/
theorem isWellFormed_picture_iff {d : Diagram Float32}
    (hlook : ∀ allowed : Char → Prop, (∀ c, isPlain c = true → allowed c) → look.HasChars allowed)
    (hroutes : d.routes.ids = d.edges.ids) :
    Xml.IsWellFormed (look.picture d).print.toList ↔
      d.HasChars fun c => Xml.isChar c = true := by
  have hsound : (look.picture d).All (Markup.IsSound fun _ => True) :=
    isSound_picture (fun _ _ => trivial) (hlook _ fun _ _ => trivial) d.hasChars_true
  have hwell : Xml.IsWellFormed (look.picture d).print.toList ↔
      (look.picture d).All (Markup.HasChars fun c => Xml.isChar c = true) := by
    rw [Markup.print, String.toList_ofList]
    exact Markup.isWellFormed_chars_iff (hsound.mono fun _ h => h.names)
  rw [hwell]
  constructor
  · exact hasChars_of_all_picture hroutes
  · intro hd
    exact (isSound_picture Xml.isChar_of_isPlain (hlook _ Xml.isChar_of_isPlain) hd).mono
      fun _ h => h.chars

end Look

namespace Configuration

/-- By default, every diagram can be drawn, in colors and fonts of plain names. -/
theorem exists_draw_eq (fonts : Fonts) (d : Diagram Float32) : ∃ look : Look,
    (({} : Configuration).withFonts fonts).draw d = .ok (look.picture d).print ∧
    ∀ allowed : Char → Prop, (∀ c, isPlain c = true → allowed c) → look.HasChars allowed := by
  have hlook : Look.ofStyle (({} : Configuration).withFonts fonts).style = .ok (Look.gray fonts) :=
    Look.ofStyle_gray fonts
  refine ⟨Look.gray fonts, by rw [draw, Diagram.svg, hlook], fun allowed hallowed => ?_⟩
  exact Look.hasChars_of_ofStyle hallowed
    (fun family h => absurd h.symm (Option.some_ne_none family)) hlook

/-- Every edge of a diagram that is laid out has a route. -/
theorem routes_ids_of_layOut? {c : Configuration} {service : LayoutService} {text : String}
    {document : Document} {d : Diagram Float32} (hread : Configuration.read text = .ok document)
    (hd : c.layOut? service document = some (.ok d)) :
    d.routes.ids = d.edges.ids := by
  have hsound := Document.isSound_of_ofText (ofText_of_read hread)
  obtain ⟨positions, -, -, rfl⟩ := layOut?_eq_some hd
  exact ((Diagram.isClosed_ofDocument _ hsound).placed positions).1.routes_ids

/-- A diagram that is laid out has the characters of its text, and printable ones of ASCII. -/
theorem hasChars_of_layOut? {c : Configuration} {service : LayoutService} {text : String}
    {document : Document} {d : Diagram Float32} (hread : Configuration.read text = .ok document)
    (hd : c.layOut? service document = some (.ok d)) {allowed : Char → Prop}
    (hallowed : ∀ c, isPlain c = true → allowed c) (htext : HasOnly allowed text) :
    d.HasChars allowed := by
  have hdocument := ofText_of_read hread
  obtain ⟨positions, -, -, rfl⟩ := layOut?_eq_some hd
  exact Diagram.hasChars_ofDocument hallowed (fun p hp => hasChars_of_mem_statements htext hp)
    (Document.isSound_of_ofText hdocument) (Document.isDescribedBy_of_ofText hdocument) positions

/-- **The picture of a text is a document of XML.**  Every text is read.  If it is then laid out, by
default its picture can be drawn, whatever the fonts are, and it follows the rules of XML.  Read again, the elements of the
class of nodes tell the ids of the nodes, each once, and the elements of the class of edges those of
the edges.  The picture is well-formed exactly if the ids, labels and icons that are drawn have only
characters of XML.  If the text has only such characters, they have. -/
theorem exists_svg_isDocument (fonts : Fonts) (service : LayoutService) (text : String) :
    let c := ({} : Configuration).withFonts fonts
    ∃ document, Configuration.read text = .ok document ∧
      ∀ d, c.layOut? service document = some (.ok d) →
        ∃ svg root, c.draw d = .ok svg ∧ Xml.IsDocument svg.toList root ∧
          (root.marks "node" "data-node").Perm (d.nodes.ids.map some) ∧
          root.marks "edge" "data-edge" = d.edges.ids.map some ∧
          (Xml.IsWellFormed svg.toList ↔ d.HasChars fun c => Xml.isChar c = true) ∧
          ((∀ c ∈ text.toList, Xml.isChar c = true) → Xml.IsWellFormed svg.toList) := by
  intro c
  obtain ⟨document, hdocument, -⟩ := Document.exists_isSound text
  have hread : Configuration.read text = .ok document := by rw [Configuration.read, hdocument]
  refine ⟨document, hread, fun d hd => ?_⟩
  obtain ⟨look, hdraw, hlook⟩ := exists_draw_eq fonts d
  have hroutes := routes_ids_of_layOut? hread hd
  obtain ⟨root, hdocument, hnode, hedge⟩ :=
    Look.isDocument_picture (hlook _ fun _ _ => trivial) hroutes
  have hwell := Look.isWellFormed_picture_iff hlook hroutes
  refine ⟨_, root, hdraw, hdocument, hnode, hedge, hwell, fun htext => ?_⟩
  exact hwell.2 (hasChars_of_layOut? hread hd Xml.isChar_of_isPlain htext)

/-- Names with an ampersand and with quotes of both kinds, and a label with a bracket. -/
theorem exists_svg_isDocument_of_quotes :
    let service : LayoutService := fun _ => .error .empty
    let text := "A & B > \"it's\": x < y"
    ∃ document d svg root, Configuration.read text = .ok document ∧
      ({} : Configuration).layOut? service document = some (.ok d) ∧
      ({} : Configuration).draw d = .ok svg ∧ Xml.IsDocument svg.toList root ∧
      (root.marks "node" "data-node").Perm [some "A & B", some "\"it's\""] ∧
      root.marks "edge" "data-edge" = [some "edge_A & B_\"it's\"_0"] ∧
      Xml.IsWellFormed svg.toList := by
  intro service text
  obtain ⟨document, d, hread, hd, hnodes, hedges⟩ := exists_layOut?_of_any {} service text
    (fun _ d => d.nodes.ids = ["A & B", "\"it's\""] ∧ d.edges.ids = ["edge_A & B_\"it's\"_0"])
    (by decide +kernel)
  obtain ⟨_, hsame, hsvg⟩ := exists_svg_isDocument .none service text
  obtain rfl := Except.ok.inj (hread.symm.trans hsame)
  obtain ⟨svg, root, hsvg, hdocument, hnode, hedge, -, hwell⟩ := hsvg d hd
  rw [hnodes] at hnode
  rw [hedges] at hedge
  exact ⟨document, d, svg, root, hread, hd, hsvg, hdocument, hnode, hedge,
    hwell (List.all_eq_true.1 (by decide))⟩

/-- The picture of a text with a control character that XML does not know is not well-formed. -/
theorem not_isWellFormed_of_control_character : ¬ ∀ (service : LayoutService) (text : String)
    (document : Document) (d : Diagram Float32) (svg : String),
    Configuration.read text = .ok document →
    ({} : Configuration).layOut? service document = some (.ok d) →
    ({} : Configuration).draw d = .ok svg → Xml.IsWellFormed svg.toList := by
  intro hall
  let service : LayoutService := fun _ => .error .empty
  obtain ⟨document, d, hread, hd, hids⟩ := exists_layOut?_of_any {} service "\x01"
    (fun _ d => d.nodes.ids = ["\x01"]) (by decide +kernel)
  obtain ⟨look, hdraw, hlook⟩ := exists_draw_eq .none d
  have hchars := (Look.isWellFormed_picture_iff hlook (routes_ids_of_layOut? hread hd)).1
    (hall service "\x01" document d _ hread hd hdraw)
  have hmem : "\x01" ∈ d.nodes.ids := by
    rw [hids]
    exact List.mem_cons_self
  obtain ⟨p, hp, hid⟩ := List.mem_map.1 hmem
  have hcontrol : HasOnly (fun c => Xml.isChar c = true) "\x01" := hid ▸ (hchars.nodes p hp).1
  exact absurd (hcontrol '\x01' (by decide)) (by decide)

end Configuration

end TextDiagram
