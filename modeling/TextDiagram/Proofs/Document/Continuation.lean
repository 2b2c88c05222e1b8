/-
**Texts that go on.**

What comes after a text does not disturb what is made of it.  Its nodes stay the first ones, as they
are, and so do its edges; its lines are related to what they were related to, and no others of them
are.  Only generated ids give way: all names of the whole text are reserved before the first line is
applied, so an id is primed anew when a later line mentions a node that is called the same.  That is
the only thing that changes an id, as every id has the least number of primes that makes it free.

Main definitions:

* `TextDiagram.Document.Edge.GivesWay`, `TextDiagram.Entity.GivesWay` — what becomes of an edge and
  of an entity when further names are mentioned;
* `TextDiagram.Document.Continues` — a document goes on from another one.

Main results:

* `TextDiagram.Roster.nodes_prefix_foldl_apply` — statements keep the nodes that are there;
* `TextDiagram.concat_prefix_append_iff` — which statements come first in a text that goes on;
* `TextDiagram.Document.ofText_append` — **the document of a text that goes on** goes on from the
  document of the text.
-/

import TextDiagram.Proofs.Document.Description

set_option relaxedAutoImplicit false
set_option autoImplicit false

namespace TextDiagram

/-! ### Nodes -/

namespace Roster

theorem nodes_prefix_withNode (r : Roster) (n : Document.Node) :
    r.nodes <+: (r.withNode n).nodes := by
  rw [withNode]
  split
  · exact List.prefix_rfl
  · exact List.prefix_append r.nodes [n]

theorem nodes_prefix_apply (r : Roster) (p : Nat × Statement) : r.nodes <+: (r.apply p).nodes := by
  obtain ⟨line, statement⟩ := p
  cases statement with
  | directive x => rw [apply, nodes_styled]
  | edge e => exact (nodes_prefix_withNode r _).trans (nodes_prefix_withNode _ _)
  | node n => exact nodes_prefix_withNode r _

/-- Statements keep the nodes that are there, and add others after them. -/
theorem nodes_prefix_foldl_apply (given : List (Nat × Statement)) (r : Roster) :
    r.nodes <+: (given.foldl apply r).nodes := by
  induction given generalizing r with
  | nil => exact List.prefix_rfl
  | cons p rest ih => exact (nodes_prefix_apply r p).trans (ih (r.apply p))

end Roster

/-! ### Ids that give way -/

/-- What becomes of an edge when further names are mentioned: its id changes exactly if it is one of
them, and nothing else of it changes. -/
structure Document.Edge.GivesWay (names : List Id) (e e' : Document.Edge) : Prop where
  /-- Nothing but the id changes. -/
  same : e' = { e with id := e'.id }
  /-- The id changes if it is mentioned, and not otherwise. -/
  id : e'.id ≠ e.id ↔ e.id ∈ names

/-- What becomes of an entity when further names are mentioned: the id of an edge or a directive
changes exactly if it is one of them, and a node keeps its name. -/
structure Entity.GivesWay (names : List Id) (e e' : Entity) : Prop where
  /-- The kind stays. -/
  kind : e'.kind = e.kind
  /-- The id changes if it is generated and mentioned, and not otherwise. -/
  id : e'.id ≠ e.id ↔ e.kind ≠ .node ∧ e.id ∈ names

/-- The edges that are stated give way to further names. -/
theorem forall₂_givesWay_statedEdges (names more : List Id) (given : List (Nat × Statement)) :
    List.Forall₂ (Document.Edge.GivesWay more) (given.filterMap (statedEdge? names))
      (given.filterMap (statedEdge? (names ++ more))) := by
  induction given with
  | nil => exact .nil
  | cons p rest ih =>
      obtain ⟨line, statement⟩ := p
      cases statement with
      | directive x => exact ih
      | edge e => exact .cons ⟨rfl, Id.primedUntilFree_append_ne_iff⟩ ih
      | node n => exact ih

/-- The entity of a line gives way to further names. -/
theorem Statement.givesWay_entity (names more : List Id) (line : Nat) (s : Statement) :
    (s.entity names line).GivesWay more (s.entity (names ++ more) line) := by
  cases s with
  | directive x =>
      have hkind : Draft.entityKind x ≠ .node := by cases x <;> simp [Draft.entityKind]
      exact ⟨rfl, by simpa [entity, hkind] using Id.primedUntilFree_append_ne_iff⟩
  | edge e => exact ⟨rfl, by simpa [entity] using Id.primedUntilFree_append_ne_iff⟩
  | node n => exact ⟨rfl, by simp [entity]⟩

/-! ### Statements that come first -/

/-- Members before one that does not come later are the same when the list goes on. -/
theorem concat_prefix_append_iff {α : Type} {before given rest : List α} {p : α} (hp : p ∉ rest) :
    before ++ [p] <+: given ++ rest ↔ before ++ [p] <+: given := by
  refine ⟨fun h => ?_, fun h => h.trans (List.prefix_append given rest)⟩
  rcases List.prefix_or_prefix_of_prefix h (List.prefix_append given rest) with hgiven | hgiven
  · exact hgiven
  · rcases List.prefix_concat_iff.1 hgiven with rfl | ⟨between, rfl⟩
    · exact List.prefix_rfl
    · rw [List.append_assoc, List.prefix_append_right_inj] at h
      exact absurd (h.subset (by simp)) hp

/-! ### Documents that go on -/

namespace Document

/-- A document goes on from another one, whose text has a number of lines: what the other one has is
there, and only the ids that are among further names give way. -/
structure Continues (d' : Document) (lines : Nat) (names : List Id) (d : Document) : Prop where
  /-- The nodes are the first ones, as they are. -/
  nodes : d.nodes <+: d'.nodes
  /-- The edges are the first ones, apart from ids that give way. -/
  edges : ∃ edges, edges <+: d'.edges ∧ List.Forall₂ (Edge.GivesWay names) d.edges edges
  /-- The lines are related to the same things, apart from ids that give way. -/
  entities : ∀ line < lines,
    Option.Rel (Entity.GivesWay names) (d.sourceMap.entityAt? line) (d'.sourceMap.entityAt? line)

/-- A line that no further statement is on is related to what it was related to. -/
theorem IsDescribedBy.givesWay_entityAt? {names more : List Id}
    {given rest : List (Nat × Statement)} {d d' : Document} (h : d.IsDescribedBy names given)
    (h' : d'.IsDescribedBy (names ++ more) (given ++ rest)) (hmap : d.sourceMap.IsBijection)
    (hmap' : d'.sourceMap.IsBijection) {line : Nat} (hline : ∀ p ∈ rest, p.1 ≠ line) :
    Option.Rel (Entity.GivesWay more) (d.sourceMap.entityAt? line)
      (d'.sourceMap.entityAt? line) := by
  have hbefore : ∀ before s, before ++ [(line, s)] <+: given ++ rest ↔
      before ++ [(line, s)] <+: given := fun before s =>
    concat_prefix_append_iff fun hmem => hline _ hmem rfl
  cases hentity : d.sourceMap.entityAt? line with
  | some e =>
      obtain ⟨before, s, hs, hmakes, rfl⟩ :=
        (h.entries line e).1 (hmap.entityAt?_eq_some_iff.1 hentity)
      have hentry := (h'.entries line _).2 ⟨before, s, (hbefore before s).2 hs, hmakes, rfl⟩
      rw [hmap'.entityAt?_eq_some_iff.2 hentry]
      exact .some (s.givesWay_entity names more line)
  | none =>
      cases hentity' : d'.sourceMap.entityAt? line with
      | none => exact .none
      | some e' =>
          obtain ⟨before, s, hs, hmakes, -⟩ :=
            (h'.entries line e').1 (hmap'.entityAt?_eq_some_iff.1 hentity')
          have hentry := (h.entries line _).2 ⟨before, s, (hbefore before s).1 hs, hmakes, rfl⟩
          exact absurd hentry (SourceMap.entityAt?_eq_none_iff.1 hentity _)

/-- **The document of a text that goes on** goes on from the document of the text: only the ids that
the further lines mention give way. -/
theorem ofText_append (above below : String) :
    ∃ d d', ofText above = .ok d ∧ ofText (above ++ "\n" ++ below) = .ok d' ∧
      d'.Continues (Text.lines above).length (mentionedNames (statements below)) d := by
  obtain ⟨d, hd, hsound⟩ := exists_isSound above
  obtain ⟨d', hd', hsound'⟩ := exists_isSound (above ++ "\n" ++ below)
  let rest := (statements below).map fun p => ((Text.lines above).length + p.1, p.2)
  have hnames : mentionedNames (statements above ++ rest) =
      mentionedNames (statements above) ++ mentionedNames (statements below) := by
    rw [mentionedNames_append, mentionedNames_eq rest, mentionedNames_eq (statements below),
      List.map_map]
    rfl
  have hdescribed := isDescribedBy_of_ofText hd
  have hdescribed' := isDescribedBy_of_ofText hd'
  rw [statements_append, hnames] at hdescribed'
  refine ⟨d, d', hd, hd', ?_⟩
  constructor
  case nodes =>
    rw [nodes_ofText hd, nodes_ofText hd', statements_append, List.foldl_append]
    exact Roster.nodes_prefix_foldl_apply _ _
  case edges =>
    rw [hdescribed.edges, hdescribed'.edges, List.filterMap_append]
    exact ⟨_, List.prefix_append _ _, forall₂_givesWay_statedEdges _ _ _⟩
  case entities =>
    intro line hline
    refine hdescribed.givesWay_entityAt? hdescribed' hsound.bijection hsound'.bijection ?_
    intro p hp
    obtain ⟨q, -, rfl⟩ := List.mem_map.1 hp
    show (Text.lines above).length + q.1 ≠ line
    omega

/-- A later line mentions the id of an edge, which gets a prime, and so does that of a directive. -/
example :
    ((ofText "A > B\ndirection down\nedge_A_B_0 > direction_1").toOption.map fun d =>
      (d.edges.map Edge.id, d.sourceMap.entityAt? 1)) =
    some (["edge_A_B_0'", "edge_edge_A_B_0_direction_1_2"], some ⟨.direction, "direction_1'"⟩) := by
  decide +kernel

end Document

end TextDiagram
