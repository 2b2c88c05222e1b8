/-
**Drafts never fail.**

A draft takes in the statements of a text line by line, and two things could go wrong: a line or an
entity could be related twice, or an edge could end nowhere.  Neither happens.  Every line makes at
most one entity; the id of what a line generates ends in the number of the line, so no two lines
generate the same id; and a node is related only where it has no line yet.

Main definitions:

* `TextDiagram.Document.IsSound` — the invariant of documents in the making: which entries there
  are, and which ids;
* `TextDiagram.Draft.IsSound` — the invariant of drafts between two lines.

Main results:

* `TextDiagram.Draft.IsSound.exists_apply` — **a statement of a later line can always be applied**,
  and leaves the draft sound;
* `TextDiagram.Draft.IsSound.exists_foldlM` — so can the statements of later and later lines, one
  after the other.
-/

import TextDiagram.Document.Reader
import TextDiagram.Proofs.Identifier
import TextDiagram.Proofs.Document.SourceMap

set_option relaxedAutoImplicit false
set_option autoImplicit false

namespace TextDiagram

/-! ### Sound documents -/

namespace Document

/-- A document over the names that its text mentions: its nodes have such names and its generated
ids do not, its edges join nodes, and its source map relates lines to nodes and edges that are
there.  What a line generates carries the number of the line. -/
structure IsSound (names : List Id) (d : Document) : Prop where
  /-- Lines and entities are related one to one. -/
  bijection : d.sourceMap.IsBijection
  /-- No two nodes have the same id. -/
  nodes_distinct : (d.nodes.map Node.id).Nodup
  /-- No two edges have the same id. -/
  edges_distinct : (d.edges.map Edge.id).Nodup
  /-- Nodes have names of the text. -/
  named : ∀ n ∈ d.nodes, n.id ∈ names
  /-- Nodes come from lines. -/
  nodes_onLine : ∀ n ∈ d.nodes, ∃ line, n.origin = .line line
  /-- Edges join nodes. -/
  joined : ∀ e ∈ d.edges, e.source ∈ d.nodes.map Node.id ∧ e.target ∈ d.nodes.map Node.id
  /-- Edges come from the lines that they are related to. -/
  edges_onLine : ∀ e ∈ d.edges, ∃ line, e.origin = .line line ∧
    (line, ⟨.edge, e.id⟩) ∈ d.sourceMap.entries
  /-- The nodes that have lines are there. -/
  entry_node : ∀ line id, (line, ⟨.node, id⟩) ∈ d.sourceMap.entries → id ∈ d.nodes.map Node.id
  /-- The edges that have lines are there. -/
  entry_edge : ∀ line id, (line, ⟨.edge, id⟩) ∈ d.sourceMap.entries → id ∈ d.edges.map Edge.id
  /-- What is no node has a generated id. -/
  entry_generated : ∀ line e, (line, e) ∈ d.sourceMap.entries → e.kind ≠ .node →
    e.id.endNumber = line ∧ e.id ∉ names

namespace IsSound

variable {names : List Id} {d d' : Document}

theorem empty (names : List Id) : IsSound names {} := by
  constructor
  case bijection => exact SourceMap.isBijection_empty
  all_goals simp

/-- The settings do not matter. -/
theorem of_eq (h : d.IsSound names) (hnodes : d'.nodes = d.nodes) (hedges : d'.edges = d.edges)
    (hmap : d'.sourceMap = d.sourceMap) : d'.IsSound names := by
  obtain ⟨nodes, edges, direction, appearance, map⟩ := d'
  subst hnodes hedges hmap
  exact ⟨h.bijection, h.nodes_distinct, h.edges_distinct, h.named, h.nodes_onLine, h.joined,
    h.edges_onLine, h.entry_node, h.entry_edge, h.entry_generated⟩

/-- A new node of a name of the text keeps a document sound. -/
theorem addNode (h : d.IsSound names) {n : Node} {line : Nat} (hname : n.id ∈ names)
    (hnew : n.id ∉ d.nodes.map Node.id) (horigin : n.origin = .line line) :
    IsSound names { d with nodes := d.nodes ++ [n] } where
  bijection := h.bijection
  nodes_distinct := by
    rw [List.map_append, List.map_singleton, ← List.concat_eq_append]
    exact h.nodes_distinct.concat hnew
  edges_distinct := h.edges_distinct
  named := by
    intro o ho
    rcases List.mem_append.1 ho with ho | ho
    · exact h.named o ho
    · rwa [List.mem_singleton.1 ho]
  nodes_onLine := by
    intro o ho
    rcases List.mem_append.1 ho with ho | ho
    · exact h.nodes_onLine o ho
    · exact ⟨line, by rwa [List.mem_singleton.1 ho]⟩
  joined := by
    intro e he
    obtain ⟨hsource, htarget⟩ := h.joined e he
    rw [List.map_append]
    exact ⟨List.mem_append_left _ hsource, List.mem_append_left _ htarget⟩
  edges_onLine := h.edges_onLine
  entry_node := by
    intro l id hl
    rw [List.map_append]
    exact List.mem_append_left _ (h.entry_node l id hl)
  entry_edge := h.entry_edge
  entry_generated := h.entry_generated

/-- A new relation keeps a document sound, if it is one to a node or an edge that is there, or one
to a directive with a generated id. -/
theorem addEntry (h : d.IsSound names) {line : Nat} {entity : Entity} {map : SourceMap}
    (hmap : d.sourceMap.insert line entity = .ok map)
    (hnode : entity.kind = .node → entity.id ∈ d.nodes.map Node.id)
    (hedge : entity.kind ≠ .edge)
    (hgenerated : entity.kind ≠ .node → entity.id.endNumber = line ∧ entity.id ∉ names) :
    IsSound names { d with sourceMap := map } where
  bijection := SourceMap.isBijection_of_insert h.bijection hmap
  nodes_distinct := h.nodes_distinct
  edges_distinct := h.edges_distinct
  named := h.named
  nodes_onLine := h.nodes_onLine
  joined := h.joined
  edges_onLine := by
    intro e he
    obtain ⟨l, horigin, hentry⟩ := h.edges_onLine e he
    exact ⟨l, horigin, (SourceMap.mem_insert hmap).2 (Or.inr hentry)⟩
  entry_node := by
    intro l id hl
    rcases (SourceMap.mem_insert hmap).1 hl with heq | hl
    · obtain ⟨rfl, rfl⟩ := Prod.mk.inj heq
      exact hnode rfl
    · exact h.entry_node l id hl
  entry_edge := by
    intro l id hl
    rcases (SourceMap.mem_insert hmap).1 hl with heq | hl
    · obtain ⟨rfl, rfl⟩ := Prod.mk.inj heq
      exact absurd rfl hedge
    · exact h.entry_edge l id hl
  entry_generated := by
    intro l e hl hkind
    rcases (SourceMap.mem_insert hmap).1 hl with heq | hl
    · obtain ⟨rfl, rfl⟩ := Prod.mk.inj heq
      exact hgenerated hkind
    · exact h.entry_generated l e hl hkind

/-- A new edge between nodes keeps a document sound, if it is related to its line and has a
generated id. -/
theorem addEdge (h : d.IsSound names) {line : Nat} {e : Edge} {map : SourceMap}
    (hmap : d.sourceMap.insert line ⟨.edge, e.id⟩ = .ok map) (horigin : e.origin = .line line)
    (hsource : e.source ∈ d.nodes.map Node.id) (htarget : e.target ∈ d.nodes.map Node.id)
    (hnumber : e.id.endNumber = line) (hname : e.id ∉ names) :
    IsSound names { d with edges := d.edges ++ [e], sourceMap := map } where
  bijection := SourceMap.isBijection_of_insert h.bijection hmap
  nodes_distinct := h.nodes_distinct
  edges_distinct := by
    rw [List.map_append, List.map_singleton, ← List.concat_eq_append]
    refine h.edges_distinct.concat ?_
    intro hid
    -- an edge of the same id would be related already
    obtain ⟨o, ho, hoid⟩ := List.mem_map.1 hid
    obtain ⟨l, -, hentry⟩ := h.edges_onLine o ho
    obtain ⟨-, hfree⟩ := SourceMap.insert_eq_ok_iff.1 ⟨map, hmap⟩
    rw [hoid] at hentry
    exact SourceMap.lineOf?_eq_none_iff.1 hfree l hentry
  named := h.named
  nodes_onLine := h.nodes_onLine
  joined := by
    intro o ho
    rcases List.mem_append.1 ho with ho | ho
    · exact h.joined o ho
    · rw [List.mem_singleton.1 ho]
      exact ⟨hsource, htarget⟩
  edges_onLine := by
    intro o ho
    rcases List.mem_append.1 ho with ho | ho
    · obtain ⟨l, hl, hentry⟩ := h.edges_onLine o ho
      exact ⟨l, hl, (SourceMap.mem_insert hmap).2 (Or.inr hentry)⟩
    · rw [List.mem_singleton.1 ho]
      exact ⟨line, horigin, (SourceMap.mem_insert hmap).2 (Or.inl rfl)⟩
  entry_node := by
    intro l id hl
    rcases (SourceMap.mem_insert hmap).1 hl with heq | hl
    · simp at heq
    · exact h.entry_node l id hl
  entry_edge := by
    intro l id hl
    rw [List.map_append]
    rcases (SourceMap.mem_insert hmap).1 hl with heq | hl
    · simp only [Prod.mk.injEq, Entity.mk.injEq, true_and] at heq
      exact List.mem_append_right _ (by simp [heq.2])
    · exact List.mem_append_left _ (h.entry_edge l id hl)
  entry_generated := by
    intro l o hl hkind
    rcases (SourceMap.mem_insert hmap).1 hl with heq | hl
    · obtain ⟨rfl, rfl⟩ := Prod.mk.inj heq
      exact ⟨hnumber, hname⟩
    · exact h.entry_generated l o hl hkind

end IsSound

end Document

/-! ### The steps of a draft -/

namespace Draft

variable {names : List Id} {bound line : Nat} {draft : Draft}

theorem hasNode_iff {id : Id} :
    draft.hasNode id = true ↔ id ∈ draft.document.nodes.map Document.Node.id := by
  simp [hasNode]

/-- After a mention there is a node of the name. -/
theorem mem_ensureNode (draft : Draft) (n : Document.Node) :
    n.id ∈ (draft.ensureNode n).document.nodes.map Document.Node.id := by
  rw [ensureNode]
  split
  · rename_i h
    exact hasNode_iff.1 h
  · simp

/-- A mention takes no node away. -/
theorem mem_ensureNode_of_mem {n : Document.Node} {id : Id}
    (h : id ∈ draft.document.nodes.map Document.Node.id) :
    id ∈ (draft.ensureNode n).document.nodes.map Document.Node.id := by
  rw [ensureNode]
  split
  · exact h
  · rw [List.map_append]
    exact List.mem_append_left _ h

@[simp] theorem ensureNode_reserved (draft : Draft) (n : Document.Node) :
    (draft.ensureNode n).reserved = draft.reserved := by
  rw [ensureNode]
  split <;> rfl

@[simp] theorem ensureNode_sourceMap (draft : Draft) (n : Document.Node) :
    (draft.ensureNode n).document.sourceMap = draft.document.sourceMap := by
  rw [ensureNode]
  split <;> rfl

/-- A directive changes only the settings. -/
theorem set_eq (draft : Draft) (directive : Directive) :
    (draft.set directive).reserved = draft.reserved ∧
      (draft.set directive).document.nodes = draft.document.nodes ∧
      (draft.set directive).document.edges = draft.document.edges ∧
      (draft.set directive).document.sourceMap = draft.document.sourceMap := by
  cases directive with
  | direction value => cases value <;> exact ⟨rfl, rfl, rfl, rfl⟩
  | colorMode value => cases value <;> exact ⟨rfl, rfl, rfl, rfl⟩
  | styleMode value => cases value <;> exact ⟨rfl, rfl, rfl, rfl⟩
  | typeface value => cases value <;> exact ⟨rfl, rfl, rfl, rfl⟩

theorem relate_eq_ok {kind : EntityKind} {id : Id} {map : SourceMap}
    (h : draft.document.sourceMap.insert line ⟨kind, id⟩ = .ok map) :
    draft.relate line kind id =
      .ok { draft with document := { draft.document with sourceMap := map } } := by
  rw [relate, h]

/-! ### Sound drafts -/

/-- A draft whose document is sound over the reserved names and only related to lines below a
bound. -/
structure IsSound (names : List Id) (bound : Nat) (draft : Draft) : Prop where
  /-- The names of the text are reserved. -/
  reserved : draft.reserved = names
  /-- The document is sound. -/
  document : draft.document.IsSound names
  /-- No later line is related yet. -/
  below : ∀ line e, (line, e) ∈ draft.document.sourceMap.entries → line < bound

namespace IsSound

theorem ensureNode (h : draft.IsSound names bound) {n : Document.Node} (hname : n.id ∈ names)
    (horigin : n.origin = .line line) : (draft.ensureNode n).IsSound names bound := by
  refine ⟨by rw [ensureNode_reserved, h.reserved], ?_, by simpa using h.below⟩
  rw [Draft.ensureNode]
  split
  · exact h.document
  · rename_i hnew
    exact h.document.addNode hname (fun hmem => hnew (hasNode_iff.2 hmem)) horigin

theorem set (h : draft.IsSound names bound) (directive : Directive) :
    (draft.set directive).IsSound names bound := by
  obtain ⟨hreserved, hnodes, hedges, hmap⟩ := set_eq draft directive
  refine ⟨hreserved.trans h.reserved, h.document.of_eq hnodes hedges hmap, ?_⟩
  rw [hmap]
  exact h.below

/-- Nothing is related to a later line yet. -/
theorem entityAt?_eq_none (h : draft.IsSound names bound) (hline : bound ≤ line) :
    draft.document.sourceMap.entityAt? line = none := by
  rw [SourceMap.entityAt?_eq_none_iff]
  intro e he
  have := h.below line e he
  omega

/-- Nothing has an id yet that a later line generates. -/
theorem lineOf?_eq_none (h : draft.IsSound names bound) {kind : EntityKind} (hkind : kind ≠ .node)
    {id : Id} (hid : bound ≤ id.endNumber) :
    draft.document.sourceMap.lineOf? ⟨kind, id⟩ = none := by
  rw [SourceMap.lineOf?_eq_none_iff]
  intro l hl
  have hbelow := h.below l _ hl
  obtain ⟨hnumber, -⟩ := h.document.entry_generated l _ hl hkind
  simp only at hnumber
  omega

/-- What has no line yet can be related to a later line, and then nothing is related to the lines
after it. -/
theorem exists_insert (h : draft.IsSound names bound) (hline : bound ≤ line) {e : Entity}
    (hfree : draft.document.sourceMap.lineOf? e = none) :
    ∃ map, draft.document.sourceMap.insert line e = .ok map ∧
      ∀ l o, (l, o) ∈ map.entries → l < line + 1 := by
  obtain ⟨map, hmap⟩ := SourceMap.insert_eq_ok_iff.2 ⟨h.entityAt?_eq_none hline, hfree⟩
  refine ⟨map, hmap, ?_⟩
  intro l o hl
  rcases (SourceMap.mem_insert hmap).1 hl with heq | hl
  · obtain ⟨rfl, -⟩ := Prod.mk.inj heq
    exact Nat.lt_succ_self l
  · have := h.below l o hl
    omega

/-- A directive of a later line can be applied. -/
theorem exists_applyDirective (h : draft.IsSound names bound) (hline : bound ≤ line)
    (directive : Directive) :
    ∃ draft', draft.applyDirective line directive = .ok draft' ∧
      draft'.IsSound names (line + 1) := by
  have hset := h.set directive
  have hkind : entityKind directive ≠ .node ∧ entityKind directive ≠ .edge := by
    cases directive <;> simp [entityKind]
  have hnumber : (Id.primedUntilFree names
      (Id.numbered (entityKind directive).name line)).endNumber = line := by simp
  obtain ⟨map, hmap, hbelow⟩ := hset.exists_insert hline
    (hset.lineOf?_eq_none hkind.1 (hnumber.symm ▸ hline))
  rw [applyDirective, h.reserved]
  refine ⟨_, relate_eq_ok hmap, hset.reserved, ?_, hbelow⟩
  exact hset.document.addEntry hmap (fun hnode => absurd hnode hkind.1) hkind.2 fun _ =>
    ⟨hnumber, Id.primedUntilFree_notMem names _⟩

/-- An edge statement of a later line can be applied. -/
theorem exists_applyEdge (h : draft.IsSound names bound) (hline : bound ≤ line) {e : EdgeStatement}
    (hsource : e.source ∈ names) (htarget : e.target ∈ names) :
    ∃ draft', draft.applyEdge line e = .ok draft' ∧ draft'.IsSound names (line + 1) := by
  have hfirst := h.ensureNode (n := .bare e.source (.line line)) hsource rfl
  have hboth := hfirst.ensureNode (n := .bare e.target (.line line)) htarget rfl
  have hkind : EntityKind.edge ≠ .node := by decide
  have hnumber : (Id.primedUntilFree names (Id.edge e.source e.target line)).endNumber = line := by
    simp
  obtain ⟨map, hmap, hbelow⟩ := hboth.exists_insert hline
    (hboth.lineOf?_eq_none hkind (hnumber.symm ▸ hline))
  rw [applyEdge, h.reserved]
  refine ⟨_, relate_eq_ok hmap, hboth.reserved, ?_, hbelow⟩
  exact hboth.document.addEdge hmap rfl (mem_ensureNode_of_mem (mem_ensureNode draft _))
    (mem_ensureNode _ _) hnumber (Id.primedUntilFree_notMem names _)

/-- A node statement of a later line can be applied. -/
theorem exists_applyNode (h : draft.IsSound names bound) (hline : bound ≤ line) {n : NodeStatement}
    (hname : n.name ∈ names) :
    ∃ draft', draft.applyNode line n = .ok draft' ∧ draft'.IsSound names (line + 1) := by
  simp only [applyNode]
  set node : Document.Node :=
    { id := n.name, label := n.name, icon := n.icon, color := n.color, parent := n.parent,
      isGroup := n.isGroup, appearance := some draft.document.appearance, origin := .line line }
  have hnode := h.ensureNode (n := node) hname rfl
  split
  · -- the node has a line already, which it keeps
    refine ⟨_, rfl, hnode.reserved, hnode.document, ?_⟩
    intro l e hl
    have := hnode.below l e hl
    omega
  · rename_i hfree
    obtain ⟨map, hmap, hbelow⟩ := hnode.exists_insert hline
      (by simpa [SourceMap.contains] using hfree)
    refine ⟨_, relate_eq_ok hmap, hnode.reserved, ?_, hbelow⟩
    exact hnode.document.addEntry hmap (fun _ => mem_ensureNode draft node) (by simp) (by simp)

/-- **A statement of a later line can always be applied**, and leaves the draft sound. -/
theorem exists_apply (h : draft.IsSound names bound) (hline : bound ≤ line) {statement : Statement}
    (hnames : ∀ id ∈ statement.names, id ∈ names) :
    ∃ draft', draft.apply (line, statement) = .ok draft' ∧ draft'.IsSound names (line + 1) := by
  cases statement with
  | directive directive => exact h.exists_applyDirective hline directive
  | edge e =>
      have hsource := hnames e.source (by simp [Statement.names])
      have htarget := hnames e.target (by simp [Statement.names])
      exact h.exists_applyEdge hline hsource htarget
  | node n => exact h.exists_applyNode hline (hnames n.name (by simp [Statement.names]))

/-- The statements of later and later lines can be applied one after the other. -/
theorem exists_foldlM {given : List (Nat × Statement)}
    (hlines : given.Pairwise fun a b => a.1 < b.1)
    (hnames : ∀ p ∈ given, ∀ id ∈ p.2.names, id ∈ names) :
    ∀ {bound : Nat} {draft : Draft}, draft.IsSound names bound → (∀ p ∈ given, bound ≤ p.1) →
      ∃ draft', given.foldlM Draft.apply draft = .ok draft' ∧ draft'.document.IsSound names := by
  -- the bound moves with the draft: after a line, it is the line after that
  induction given with
  | nil =>
      intro bound draft h _
      exact ⟨draft, rfl, h.document⟩
  | cons first rest ih =>
      intro bound draft h hbound
      obtain ⟨line, statement⟩ := first
      have hrest := List.pairwise_cons.1 hlines
      obtain ⟨draft', happly, h'⟩ := h.exists_apply (hbound _ (List.mem_cons_self ..))
        (hnames _ (List.mem_cons_self ..))
      obtain ⟨draft'', hfold, h''⟩ := ih hrest.2 (fun p hp => hnames p (List.mem_cons_of_mem _ hp))
        h' fun p hp => hrest.1 p hp
      exact ⟨draft'', by rw [List.foldlM_cons, happly]; exact hfold, h''⟩

end IsSound

end Draft

end TextDiagram
