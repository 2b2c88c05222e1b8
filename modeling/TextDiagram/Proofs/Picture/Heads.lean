/-
**Heads that edges refer to.**

The path of an edge refers to its heads by ids, and the heads are defined apart from the paths: one
for each of the different colors of the edges that have such a head.  So whether a reference finds
its head rests on two notions of sameness.  The definitions tell colors apart by what they are, the
ids by their text made fit for an id, and colors that are not the same can have one id.

Every reference finds a head, and every head is referred to.  But each reference finds one head
only, filled with the color of its own edge, exactly if no two edges with such a head have colors
that are not the same and share an id.

Main definitions:

* `TextDiagram.Markup.named`, `TextDiagram.Markup.references` — the heads that a reference names,
  and the references of edges;
* `TextDiagram.Markup.Resolves` — a reference names one head, filled with the color of its edge;
* `TextDiagram.Look.TellsHeads` — edges whose colors are not the same refer to different heads.

Main results:

* `TextDiagram.Look.heads_picture`, `TextDiagram.Look.mem_references_picture_iff` — the heads and
  the references in the picture of a diagram;
* `TextDiagram.Look.named_picture` — **which heads a reference names**;
* `TextDiagram.Look.forall_resolves_iff`, `TextDiagram.Diagram.references_svg` — **when all
  references resolve**.
-/

import TextDiagram.Proofs.Color.Sameness
import TextDiagram.Proofs.Diagram.Currency
import TextDiagram.Proofs.Picture.Soundness

set_option relaxedAutoImplicit false
set_option autoImplicit false

namespace TextDiagram

open Markup (leaf label)
open Attribute (word length count)

/-! ### References and heads of a tree -/

namespace Markup

/-- Whether a tree is an element of a name. -/
def isElement (name : String) : Markup → Bool
  | element own _ _ => own = name
  | text _ => false

/-- The children of an element. -/
def children : Markup → List Markup
  | element _ _ children => children
  | text _ => []

/-- The definitions of heads in a tree. -/
def heads (m : Markup) : List Markup := m.subtrees.filter (isElement "marker")

/-- The paths of edges in a tree. -/
def paths (m : Markup) : List Markup := m.subtrees.filter (isOfClass · "path" "edge")

/-- The heads that a reference names. -/
def named (m : Markup) (reference : String) : List Markup :=
  m.heads.filter fun head => (head.attribute? "id").any fun id => reference = "url(#" ++ id ++ ")"

/-- The references of edges to heads, each with the path of the edge. -/
def references (m : Markup) : List (Markup × String) :=
  m.paths.flatMap fun path =>
    (["marker-start", "marker-end"].filterMap path.attribute?).map (path, ·)

/-- The colors and opacities that the outlines in a head are filled with. -/
def fillings (head : Markup) : List (Option String × Option String) :=
  head.children.map fun outline => (outline.attribute? "fill", outline.attribute? "fill-opacity")

/-- A reference of an edge names one head only, and that is filled with the color of the edge. -/
def Resolves (m path : Markup) (reference : String) : Prop :=
  ∃ head, m.named reference = [head] ∧
    head.fillings = [(path.attribute? "stroke", path.attribute? "stroke-opacity")]

variable {p : Markup → Bool}

theorem filter_subtrees_element (name : String) (attributes : List Attribute)
    (children : List Markup) : (element name attributes children).subtrees.filter p =
      (if p (element name attributes children) then [element name attributes children] else []) ++
        children.flatMap fun child => child.subtrees.filter p := by
  rw [subtrees, List.filter_cons, childrenSubtrees_eq_flatMap, List.filter_flatMap]
  split
  · rfl
  · rfl

/-- Neither a head nor the path of an edge. -/
def IsPlainPart (m : Markup) : Prop := m.isElement "marker" = false ∧ m.isElement "path" = false

theorem all_isPlainPart_leaf {name : String} (h : name ≠ "marker") (h' : name ≠ "path")
    (attributes : List Attribute) : (leaf name attributes).All IsPlainPart := by
  refine all_element.2 ⟨⟨?_, ?_⟩, by simp⟩
  · simpa [isElement] using h
  · simpa [isElement] using h'

theorem all_isPlainPart_label (attributes : List Attribute) (content : String) :
    (label attributes content).All IsPlainPart := by
  refine all_element.2 ⟨⟨rfl, rfl⟩, ?_⟩
  intro child hchild
  rw [List.mem_singleton.1 hchild]
  exact all_text.2 ⟨rfl, rfl⟩

theorem isOfClass_eq_false_of_isPlainPart {m : Markup} (h : m.IsPlainPart) :
    m.isOfClass "path" "edge" = false := by
  cases m with
  | text content => rfl
  | element name attributes children =>
      have hname : decide (name = "path") = false := h.2
      rw [isOfClass, hname, Bool.false_and]

theorem filter_subtrees_eq_nil (hp : ∀ m : Markup, m.IsPlainPart → p m = false) {m : Markup}
    (h : m.All IsPlainPart) : m.subtrees.filter p = [] := by
  refine List.filter_eq_nil_iff.2 fun t ht => ?_
  rw [hp t (h t ht)]
  exact Bool.false_ne_true

end Markup

/-! ### Ids -/

namespace Head

/-- The attribute of a path that refers to a head. -/
def place : Head → String
  | left => "marker-start"
  | right => "marker-end"

/-- The reference to a head of a color. -/
def reference (head : Head) (color : Color) : String := "url(#" ++ head.id color ++ ")"

/-- Heads with one id point the same way, and the ids of their colors are the same. -/
theorem id_eq_id_iff {head head' : Head} {c d : Color} :
    head.id c = head'.id d ↔ head = head' ∧ c.idSafe = d.idSafe := by
  have hways : ∀ text text' : String, "arrow-left-" ++ text ≠ "arrow-right-" ++ text' := by
    intro text text' h
    simpa using congrArg String.toList h
  cases head with
  | left => cases head' with
    | left => simp [id, toString]
    | right => simpa [id, toString] using hways c.idSafe d.idSafe
  | right => cases head' with
    | left => simpa [id, toString] using (hways d.idSafe c.idSafe).symm
    | right => simp [id, toString]

theorem reference_eq_reference_iff {head head' : Head} {c d : Color} :
    head.reference c = head'.reference d ↔ head = head' ∧ c.idSafe = d.idSafe := by
  rw [reference, reference, ← id_eq_id_iff, String.append_left_inj, String.append_right_inj]

theorem heads_marker (head : Head) (color : Color) :
    (head.marker color).heads = [head.marker color] := rfl

theorem paths_marker (head : Head) (color : Color) : (head.marker color).paths = [] := by
  rw [Markup.paths, marker, Markup.filter_subtrees_element, List.flatMap_singleton, leaf,
    Markup.filter_subtrees_element]
  simp [Markup.isOfClass, Markup.attribute?, length]

theorem fillings_marker (head : Head) (color : Color) :
    (head.marker color).fillings = [(some color.css, some (Number.text color.alpha))] := rfl

end Head

namespace Look

open Markup (IsPlainPart all_isPlainPart_leaf all_isPlainPart_label)

variable (look : Look)

/-! ### Drawings -/

theorem all_isPlainPart_node (inherited : Appearance) (id : Id) (n : Diagram.Node Float32) :
    (look.node inherited id n).All IsPlainPart := by
  have hbox : ∀ box palette mode, (nodeBox box palette n.kind mode).All IsPlainPart :=
    fun _ _ _ => all_isPlainPart_leaf (by decide) (by decide) _
  have htexts : ∀ family palette, ∀ m ∈ look.texts n family palette, m.All IsPlainPart := by
    intro family palette
    unfold texts
    split
    all_goals simp [groupLabel, caption, nodeLabel, all_isPlainPart_label]
  refine Markup.all_element.2 ⟨⟨rfl, rfl⟩, ?_⟩
  simp only [List.forall_mem_append, List.forall_mem_singleton]
  refine ⟨⟨?_, hbox _ _ _⟩, htexts _ _⟩
  split
  · rw [List.forall_mem_singleton]
    exact all_isPlainPart_leaf (by decide) (by decide) _
  · simp

theorem all_isPlainPart_edgeLabel (typeface : Typeface) (content : String)
    (route : Route Float32) : (look.edgeLabel typeface content route).All IsPlainPart := by
  refine Markup.all_element.2 ⟨⟨rfl, rfl⟩, ?_⟩
  simp only [List.forall_mem_cons, List.not_mem_nil, false_imp_iff, implies_true, and_true]
  exact ⟨all_isPlainPart_leaf (by decide) (by decide) _, all_isPlainPart_label _ _⟩

theorem all_isPlainPart_of_mem_ground : ∀ m ∈ look.ground, m.All IsPlainPart := by
  unfold ground
  split
  · simp
  · rw [List.forall_mem_singleton]
    exact all_isPlainPart_leaf (by decide) (by decide) _

theorem heads_edgePath (id : Id) (e : Diagram.Edge) (route : Route Float32) :
    (look.edgePath id e route).heads = [] := rfl

theorem paths_edgePath (id : Id) (e : Diagram.Edge) (route : Route Float32) :
    (look.edgePath id e route).paths = [look.edgePath id e route] := by
  rw [Markup.paths, edgePath, leaf, Markup.filter_subtrees_element]
  simp [Markup.isOfClass, Markup.attribute?]

/-- The reference of the path of an edge to a head. -/
theorem attribute?_edgePath (id : Id) (e : Diagram.Edge) (route : Route Float32) (head : Head) :
    (look.edgePath id e route).attribute? head.place =
      if head.isOn e.kind then some (head.reference (look.colorOf e)) else none := by
  cases hdashed : e.kind.isDashed <;> cases hleft : Head.left.isOn e.kind <;>
    cases hright : Head.right.isOn e.kind <;> cases head <;>
    simp [edgePath, leaf, Markup.attribute?, headReference, Head.place, Head.reference, length,
      hdashed, hleft, hright, toString]

/-- The color that the path of an edge is drawn in. -/
theorem stroke_edgePath (id : Id) (e : Diagram.Edge) (route : Route Float32) :
    (look.edgePath id e route).attribute? "stroke" = some (look.colorOf e).css := by
  simp [edgePath, leaf, Markup.attribute?]

/-- The opacity that the path of an edge is drawn in. -/
theorem strokeOpacity_edgePath (id : Id) (e : Diagram.Edge) (route : Route Float32) :
    (look.edgePath id e route).attribute? "stroke-opacity" =
      some (Number.text (look.colorOf e).alpha) := by
  simp [edgePath, leaf, Markup.attribute?, length, AttributeValue.toText]

/-- The references of an edge: one for each head that its kind has. -/
theorem mem_references_edgePath_iff {id : Id} {e : Diagram.Edge} {route : Route Float32}
    {path : Markup} {reference : String} :
    (path, reference) ∈ (look.edgePath id e route).references ↔
      path = look.edgePath id e route ∧
        ∃ head : Head, head.isOn e.kind = true ∧ reference = head.reference (look.colorOf e) := by
  have hplaces : ["marker-start", "marker-end"] = [Head.left, Head.right].map Head.place := rfl
  rw [Markup.references, paths_edgePath, List.flatMap_singleton, hplaces, List.filterMap_map]
  constructor
  · intro h
    obtain ⟨own, hown, heq⟩ := List.mem_map.1 h
    obtain ⟨rfl, rfl⟩ := Prod.mk.inj heq
    obtain ⟨head, -, hvalue⟩ := List.mem_filterMap.1 hown
    rw [Function.comp_apply, attribute?_edgePath, Option.ite_none_right_eq_some] at hvalue
    exact ⟨rfl, head, hvalue.1, (Option.some.inj hvalue.2).symm⟩
  · rintro ⟨rfl, head, hon, rfl⟩
    refine List.mem_map.2 ⟨_, List.mem_filterMap.2 ⟨head, ?_, ?_⟩, rfl⟩
    · cases head <;> decide
    · rw [Function.comp_apply, attribute?_edgePath, if_pos hon]

/-! ### Pictures -/

variable (d : Diagram Float32)

theorem mem_edgePaths_iff {m : Markup} : m ∈ look.edgePaths d ↔
    ∃ id e route, (id, e) ∈ d.edges.entries ∧ d.routes.get? id = some route ∧
      look.edgePath id e route = m := by
  rw [edgePaths, List.mem_filterMap, Prod.exists]
  simp only [Option.map_eq_some_iff, exists_and_left]

/-- What is told of every path of an edge is told of the paths in a picture. -/
theorem flatMap_edgePaths_congr {β : Type} {f g : Markup → List β}
    (h : ∀ id e route, f (look.edgePath id e route) = g (look.edgePath id e route)) :
    (look.edgePaths d).flatMap f = (look.edgePaths d).flatMap g := by
  refine List.flatMap_congr fun m hm => ?_
  obtain ⟨id, e, route, -, -, rfl⟩ := (look.mem_edgePaths_iff d).1 hm
  exact h id e route

section

variable {p : Markup → Bool} (hp : ∀ m : Markup, m.IsPlainPart → p m = false)

include hp

theorem filter_subtrees_definitions (edges : List Diagram.Edge) :
    (look.definitions edges).subtrees.filter p =
      [Head.left, Head.right].flatMap fun head =>
        (look.headColors edges head).flatMap fun color =>
          (head.marker color).subtrees.filter p := by
  have hdefs : ∀ children, p (.element "defs" [] children) = false := fun _ => hp _ ⟨rfl, rfl⟩
  rw [definitions, Markup.filter_subtrees_element, hdefs, if_neg Bool.false_ne_true,
    List.nil_append, List.flatMap_assoc]
  simp only [List.flatMap_map]

/-- In a picture, heads and paths of edges are found in the definitions and among the paths. -/
theorem filter_subtrees_picture : (look.picture d).subtrees.filter p =
    (look.definitions d.edges.values).subtrees.filter p ++
      (look.edgePaths d).flatMap fun m => m.subtrees.filter p := by
  have hnone : ∀ {l : List Markup}, (∀ m ∈ l, m.All IsPlainPart) →
      l.flatMap (fun m => m.subtrees.filter p) = [] :=
    fun h => List.flatMap_eq_nil_iff.2 fun m hm => Markup.filter_subtrees_eq_nil hp (h m hm)
  have hnodes : ∀ groups, ∀ m ∈ look.nodes d groups, m.All IsPlainPart := by
    intro groups m hm
    obtain ⟨q, -, rfl⟩ := List.mem_map.1 hm
    exact look.all_isPlainPart_node _ _ _
  have hlabels : ∀ m ∈ look.edgeLabels d, m.All IsPlainPart := by
    intro m hm
    obtain ⟨q, -, hm⟩ := List.mem_filterMap.1 hm
    obtain ⟨content, -, hm⟩ := Option.bind_eq_some_iff.1 hm
    obtain ⟨route, -, hm⟩ := Option.bind_eq_some_iff.1 hm
    obtain rfl := Option.some.inj hm
    exact look.all_isPlainPart_edgeLabel _ _ _
  have hframe : ∀ name, name = "svg" ∨ name = "g" → ∀ attributes children,
      p (.element name attributes children) = false := by
    rintro name (rfl | rfl) attributes children
    · exact hp _ ⟨rfl, rfl⟩
    · exact hp _ ⟨rfl, rfl⟩
  rw [picture, Markup.filter_subtrees_element, hframe _ (.inl rfl)]
  simp only [List.flatMap_append, List.flatMap_singleton, Markup.filter_subtrees_element "g",
    hframe _ (.inr rfl), hnone look.all_isPlainPart_of_mem_ground]
  simp only [layers, List.flatMap_append, hnone (hnodes true), hnone (hnodes false), hnone hlabels,
    Bool.false_eq_true, if_false, List.nil_append, List.append_nil]

end

/-- The heads in a picture are those that are defined for its edges. -/
theorem heads_picture : (look.picture d).heads =
    [Head.left, Head.right].flatMap fun head =>
      (look.headColors d.edges.values head).map head.marker := by
  have hp : ∀ m : Markup, m.IsPlainPart → m.isElement "marker" = false := fun m h => h.1
  have hpaths : (look.edgePaths d).flatMap Markup.heads = [] :=
    (look.flatMap_edgePaths_congr (g := fun _ => []) d look.heads_edgePath).trans
      (List.flatMap_eq_nil_iff.2 fun _ _ => rfl)
  rw [Markup.heads, filter_subtrees_picture look d hp, filter_subtrees_definitions look hp]
  refine (congrArg₂ _ ?_ hpaths).trans (List.append_nil _)
  refine List.flatMap_congr fun head _ => ?_
  rw [List.map_eq_flatMap]
  exact List.flatMap_congr fun color _ => head.heads_marker color

/-- The paths of edges in a picture are those of the edges that have a route. -/
theorem paths_picture : (look.picture d).paths = look.edgePaths d := by
  have hp : ∀ m : Markup, m.IsPlainPart → m.isOfClass "path" "edge" = false :=
    fun m => Markup.isOfClass_eq_false_of_isPlainPart
  have hmarkers : ∀ head ∈ [Head.left, Head.right],
      (look.headColors d.edges.values head).flatMap (fun c => (head.marker c).paths) = [] :=
    fun head _ => List.flatMap_eq_nil_iff.2 fun color _ => head.paths_marker color
  rw [Markup.paths, filter_subtrees_picture look d hp, filter_subtrees_definitions look hp]
  have hpaths : (look.edgePaths d).flatMap Markup.paths = look.edgePaths d :=
    (look.flatMap_edgePaths_congr d look.paths_edgePath).trans (List.flatMap_singleton' _)
  exact (congrArg₂ _ (List.flatMap_eq_nil_iff.2 hmarkers) hpaths).trans (List.nil_append _)

/-- The references in a picture are those of the edges that have a route. -/
theorem mem_references_picture_iff {path : Markup} {reference : String} :
    (path, reference) ∈ (look.picture d).references ↔
      ∃ id e route, (id, e) ∈ d.edges.entries ∧ d.routes.get? id = some route ∧
        path = look.edgePath id e route ∧
        ∃ head : Head, head.isOn e.kind = true ∧ reference = head.reference (look.colorOf e) := by
  have hreferences : (look.picture d).references =
      (look.edgePaths d).flatMap Markup.references := by
    rw [Markup.references, paths_picture]
    refine look.flatMap_edgePaths_congr d fun id e route => ?_
    rw [Markup.references, paths_edgePath, List.flatMap_singleton]
  rw [hreferences, List.mem_flatMap]
  constructor
  · rintro ⟨m, hm, hreference⟩
    obtain ⟨id, e, route, hmem, hroute, rfl⟩ := (look.mem_edgePaths_iff d).1 hm
    exact ⟨id, e, route, hmem, hroute, look.mem_references_edgePath_iff.1 hreference⟩
  · rintro ⟨id, e, route, hmem, hroute, hreference⟩
    exact ⟨_, (look.mem_edgePaths_iff d).2 ⟨id, e, route, hmem, hroute, rfl⟩,
      look.mem_references_edgePath_iff.2 hreference⟩

/-- The colors of the edges with a given head, in order. -/
def headedColors (edges : List Diagram.Edge) (head : Head) : List Color :=
  (edges.filter fun e => head.isOn e.kind).map look.colorOf

/-- **Which heads a reference names**: those of the different colors among the ones with the same
id. -/
theorem named_picture (head : Head) (color : Color) :
    (look.picture d).named (head.reference color) =
      (Color.distinct ((look.headedColors d.edges.values head).filter
        fun c => color.idSafe = c.idSafe)).map head.marker := by
  have hmatches : ∀ (other : Head) (c : Color),
      ((other.marker c).attribute? "id").any
          (fun id => decide (head.reference color = "url(#" ++ id ++ ")")) =
        decide (head = other ∧ color.idSafe = c.idSafe) := by
    intro other c
    change decide (head.reference color = other.reference c) = _
    exact decide_eq_decide.2 Head.reference_eq_reference_iff
  have hsame : ∀ c c' : Color, c.same c' = true →
      decide (color.idSafe = c.idSafe) = decide (color.idSafe = c'.idSafe) :=
    fun c c' h => by rw [Color.idSafe_eq_of_css_eq (Color.css_eq_of_same h)]
  rw [← Color.filter_distinct hsame, Markup.named, heads_picture]
  simp only [List.flatMap_cons, List.flatMap_nil, List.append_nil, List.filter_append,
    List.filter_map, Function.comp_def, hmatches]
  cases head with
  | left => simp [headColors, headedColors]
  | right => simp [headColors, headedColors]

/-! ### References that resolve -/

/-- The color of an edge was given, if that of the look was. -/
theorem isGiven_edge {style : Style} {look : Look} (h : ofStyle style = .ok look) :
    look.edge.IsGiven := by
  obtain ⟨-, hedge, -⟩ := ofStyle_eq_ok_iff.1 h
  exact Color.isGiven_of_read (Style.read_of_edge hedge)

variable {look d}

theorem isGiven_colorOf (h : look.edge.IsGiven) (e : Diagram.Edge) : (look.colorOf e).IsGiven :=
  Color.isGiven_resolve h _

theorem mem_headedColors {e : Diagram.Edge} (he : e ∈ d.edges.values) {head : Head}
    (hon : head.isOn e.kind = true) :
    look.colorOf e ∈ (look.headedColors d.edges.values head).filter
      fun c => (look.colorOf e).idSafe = c.idSafe :=
  List.mem_filter.2
    ⟨List.mem_map_of_mem (List.mem_filter.2 ⟨he, hon⟩), decide_eq_true rfl⟩

/-- A reference resolves if the colors of all edges with such a head that have its id are the
same. -/
theorem resolves_iff (hgiven : look.edge.IsGiven) {id : Id} {e : Diagram.Edge}
    (hmem : e ∈ d.edges.values) (route : Route Float32) {head : Head}
    (hon : head.isOn e.kind = true) :
    (look.picture d).Resolves (look.edgePath id e route) (head.reference (look.colorOf e)) ↔
      ((look.headedColors d.edges.values head).filter
        fun c => (look.colorOf e).idSafe = c.idSafe).Pairwise fun c c' => c.same c' = true := by
  have hcolors : ∀ c ∈ (look.headedColors d.edges.values head).filter
      fun c => (look.colorOf e).idSafe = c.idSafe, c.IsGiven := by
    intro c hc
    obtain ⟨f, -, rfl⟩ := List.mem_map.1 (List.mem_filter.1 hc).1
    exact isGiven_colorOf hgiven f
  rw [← Color.exists_distinct_eq_singleton_iff hcolors (mem_headedColors hmem hon),
    Markup.Resolves, named_picture, stroke_edgePath, strokeOpacity_edgePath]
  simp only [List.map_eq_singleton_iff]
  constructor
  · rintro ⟨m, ⟨c, hc, rfl⟩, hfillings⟩
    rw [Head.fillings_marker] at hfillings
    simp only [List.cons.injEq, Prod.mk.injEq, Option.some_inj, and_true] at hfillings
    exact ⟨c, hc, hfillings⟩
  · rintro ⟨c, hc, hcss, halpha⟩
    refine ⟨head.marker c, ⟨c, hc, rfl⟩, ?_⟩
    rw [Head.fillings_marker, hcss, halpha]

/-- Edges with a head whose colors have one id have the same color. -/
def TellsHeads (look : Look) (edges : List Diagram.Edge) : Prop :=
  ∀ head : Head, (look.headedColors edges head).Pairwise fun c c' =>
    c.idSafe = c'.idSafe → c.same c' = true

instance (look : Look) (edges : List Diagram.Edge) : Decidable (look.TellsHeads edges) :=
  decidable_of_iff (∀ head ∈ [Head.left, Head.right],
    (look.headedColors edges head).Pairwise fun c c' => c.idSafe = c'.idSafe → c.same c' = true)
    ⟨fun h head => h head (by cases head <;> decide), fun h head _ => h head⟩

/-- Every reference finds a head. -/
theorem named_ne_nil {r : Markup × String} (h : r ∈ (look.picture d).references) :
    (look.picture d).named r.2 ≠ [] := by
  obtain ⟨path, reference⟩ := r
  obtain ⟨id, e, route, hmem, -, -, head, hon, rfl⟩ := (look.mem_references_picture_iff d).1 h
  have he : e ∈ d.edges.values := List.mem_map_of_mem (f := Prod.snd) hmem
  rw [named_picture, Ne, List.map_eq_nil_iff]
  exact Color.distinct_ne_nil (mem_headedColors he hon)

theorem exists_route_of_mem_values
    (hroutes : ∀ id ∈ d.edges.ids, ∃ route, d.routes.get? id = some route) {e : Diagram.Edge}
    (he : e ∈ d.edges.values) :
    ∃ id route, (id, e) ∈ d.edges.entries ∧ d.routes.get? id = some route := by
  obtain ⟨⟨id, f⟩, hmem, rfl⟩ := List.mem_map.1 he
  obtain ⟨route, hroute⟩ := hroutes id (List.mem_map_of_mem (f := Prod.fst) hmem)
  exact ⟨id, route, hmem, hroute⟩

/-- Every head is referred to, if every edge has a route. -/
theorem exists_reference_of_mem_heads
    (hroutes : ∀ id ∈ d.edges.ids, ∃ route, d.routes.get? id = some route) {m : Markup}
    (h : m ∈ (look.picture d).heads) :
    ∃ r ∈ (look.picture d).references, m ∈ (look.picture d).named r.2 := by
  have hmem := h
  rw [heads_picture] at hmem
  obtain ⟨head, -, hmem⟩ := List.mem_flatMap.1 hmem
  obtain ⟨color, hcolor, rfl⟩ := List.mem_map.1 hmem
  obtain ⟨e, he, rfl⟩ := List.mem_map.1 (mem_of_mem_distinct hcolor)
  obtain ⟨he, hon⟩ := List.mem_filter.1 he
  obtain ⟨id, route, hentry, hroute⟩ := exists_route_of_mem_values hroutes he
  refine ⟨_, (look.mem_references_picture_iff d).2
    ⟨id, e, route, hentry, hroute, rfl, head, hon, rfl⟩, List.mem_filter.2 ⟨h, ?_⟩⟩
  exact decide_eq_true rfl

/-- **When all references resolve**: if edges whose colors are not the same refer to different
heads. -/
theorem forall_resolves_iff (hgiven : look.edge.IsGiven)
    (hroutes : ∀ id ∈ d.edges.ids, ∃ route, d.routes.get? id = some route) :
    (∀ r ∈ (look.picture d).references, (look.picture d).Resolves r.1 r.2) ↔
      look.TellsHeads d.edges.values := by
  have hheads : look.TellsHeads d.edges.values ↔
      ∀ head : Head, ∀ e ∈ d.edges.values, head.isOn e.kind = true →
        ((look.headedColors d.edges.values head).filter
          fun c => (look.colorOf e).idSafe = c.idSafe).Pairwise fun c c' => c.same c' = true := by
    refine forall_congr' fun head => ?_
    rw [Color.pairwise_same_iff]
    simp only [headedColors, List.forall_mem_map, List.mem_filter, and_imp]
  rw [hheads]
  constructor
  · intro h head e he hon
    obtain ⟨id, route, hmem, hroute⟩ := exists_route_of_mem_values hroutes he
    have hr := (look.mem_references_picture_iff d).2
      ⟨id, e, route, hmem, hroute, rfl, head, hon, rfl⟩
    exact (resolves_iff hgiven he route hon).1 (h _ hr)
  · rintro h ⟨path, reference⟩ hr
    obtain ⟨id, e, route, hmem, -, rfl, head, hon, rfl⟩ :=
      (look.mem_references_picture_iff d).1 hr
    have he : e ∈ d.edges.values := List.mem_map_of_mem (f := Prod.snd) hmem
    exact (resolves_iff hgiven he route hon).2 (h head e he hon)

end Look

/-! ### Drawn diagrams -/

namespace Diagram

/-- **What the references in the picture of a diagram lead to**, if every edge has a route.  Each
leads to a head, and each head is led to.  They resolve if edges whose colors are not the same refer
to different heads, and only then. -/
theorem references_svg {style : Style} {look : Look} (hlook : Look.ofStyle style = .ok look)
    {d : Diagram Float32} (hroutes : ∀ id ∈ d.edges.ids, ∃ route, d.routes.get? id = some route) :
    d.svg style = .ok (look.picture d).print ∧
      (∀ r ∈ (look.picture d).references, (look.picture d).named r.2 ≠ []) ∧
      (∀ m ∈ (look.picture d).heads, ∃ r ∈ (look.picture d).references,
        m ∈ (look.picture d).named r.2) ∧
      ((∀ r ∈ (look.picture d).references, (look.picture d).Resolves r.1 r.2) ↔
        look.TellsHeads d.edges.values) := by
  refine ⟨?_, fun r hr => Look.named_ne_nil hr,
    fun m hm => Look.exists_reference_of_mem_heads hroutes hm,
    Look.forall_resolves_iff (Look.isGiven_edge hlook) hroutes⟩
  rw [svg, hlook]

/-- Two nodes, and edges of two colors from one to the other and back. -/
def exchange (color color' : String) : Diagram Float32 :=
  run [.insertNode "A" (dot "A" ⟨0, 0⟩), .insertNode "B" (dot "B" ⟨300, 0⟩),
    .insertEdge "there"
      { source := "A", target := "B", kind := .arrow, color := some color, origin := .diagram },
    .insertEdge "back"
      { source := "B", target := "A", kind := .arrow, color := some color', origin := .diagram }]

theorem exists_route_exchange (color color' : String) :
    ∀ id ∈ (exchange color color').edges.ids, ∃ route,
      (exchange color color').routes.get? id = some route := by
  intro id hid
  exact Catalog.mem_ids_iff.1 ((IsRouted.run _).routes_ids ▸ hid)

/-- Colors with different ids are told apart. -/
theorem references_svg_of_teal :
    (exchange "teal" "rgb(255, 128, 0)").edges.ids = ["there", "back"] ∧
      ∀ r ∈ ((Look.gray .none).picture (exchange "teal" "rgb(255, 128, 0)")).references,
        ((Look.gray .none).picture (exchange "teal" "rgb(255, 128, 0)")).Resolves r.1 r.2 := by
  obtain ⟨-, -, -, hiff⟩ :=
    references_svg (Look.ofStyle_gray .none) (exists_route_exchange "teal" "rgb(255, 128, 0)")
  exact ⟨by decide +kernel, hiff.2 (by decide +kernel)⟩

/-- Two points of one color space whose texts differ in where the decimal point stands have one id,
so both edges refer to two heads, of which one has another color. -/
theorem not_forall_resolves : ¬ ∀ (style : Style) (look : Look) (d : Diagram Float32),
    Look.ofStyle style = .ok look →
    (∀ id ∈ d.edges.ids, ∃ route, d.routes.get? id = some route) →
    ∀ r ∈ (look.picture d).references, (look.picture d).Resolves r.1 r.2 := by
  intro h
  have hroutes := exists_route_exchange "lab(80.5 61 5)" "lab(80 5.61 5)"
  have hlook := Look.ofStyle_gray .none
  have htells := (Look.forall_resolves_iff (Look.isGiven_edge hlook) hroutes).1
    (h { fonts := .none } (Look.gray .none) _ hlook hroutes)
  exact absurd htells (by decide +kernel)

end Diagram

end TextDiagram
