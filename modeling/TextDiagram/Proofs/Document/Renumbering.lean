/-
**Lines that say nothing.**

Blank lines, comments and lines that cannot be read only count: they move the statements after them
further down.  Two texts that say the same on different lines make the same document, apart from the
lines that everything is on and from the ids that are made of lines, which need not even be primed
alike.  What comes of the one text follows what comes of the other one statement by statement.

Main definitions:

* `TextDiagram.counterpart?` — the line on which another text says the same;
* `TextDiagram.Restates` — statements are the same on other lines;
* `TextDiagram.Document.MovesTo` — a document is the same on other lines;
* `TextDiagram.entriesAfter` — the entries that statements make, in order.

Main results:

* `TextDiagram.restates_statements` — texts that say the same restate each other;
* `TextDiagram.Roster.MovesTo.apply`, `TextDiagram.Roster.MovesTo.foldl_apply` — one statement, and
  statements one after the other, make the same nodes on other lines;
* `TextDiagram.Document.IsDescribedBy.entries_eq` — which entries a source map has, in order;
* `TextDiagram.Document.ofText_movesTo` — **texts that say the same** make the same document on
  other lines.
-/

import Mathlib.Data.List.Forall2
import TextDiagram.Proofs.Document.Description

set_option relaxedAutoImplicit false
set_option autoImplicit false

namespace TextDiagram

variable {moves : Nat → Option Nat} {given given' : List (Nat × Statement)}

/-! ### The same statements on other lines -/

/-- The line of another text that holds the statement with the place of that of a line. -/
def counterpart? (text text' : String) (line : Nat) : Option Nat :=
  ((statements text).findIdx? fun p => p.1 = line).bind fun place =>
    (statements text')[place]?.map Prod.fst

/-- Statements are the same, one after the other, on the lines that theirs move to. -/
inductive Restates (moves : Nat → Option Nat) :
    List (Nat × Statement) → List (Nat × Statement) → Prop
  | nil : Restates moves [] []
  | cons {line line' : Nat} {given given' : List (Nat × Statement)} (s : Statement) :
      moves line = some line' → Restates moves given given' →
      Restates moves ((line, s) :: given) ((line', s) :: given')

namespace Restates

theorem of_forall₂
    (h : List.Forall₂ (fun p p' => moves p.1 = some p'.1 ∧ p.2 = p'.2) given given') :
    Restates moves given given' := by
  induction h with
  | nil => exact .nil
  | @cons p p' _ _ hp _ ih =>
      obtain ⟨line, s⟩ := p
      obtain ⟨line', s'⟩ := p'
      obtain ⟨hline, rfl⟩ := hp
      exact .cons s hline ih

theorem map_snd_eq (h : Restates moves given given') :
    given.map Prod.snd = given'.map Prod.snd := by
  induction h with
  | nil => rfl
  | cons s _ _ ih => rw [List.map_cons, List.map_cons, ih]

theorem concat (h : Restates moves given given') {line line' : Nat}
    (hline : moves line = some line') (s : Statement) :
    Restates moves (given ++ [(line, s)]) (given' ++ [(line', s)]) := by
  induction h with
  | nil => exact .cons s hline .nil
  | cons first hfirst _ ih => exact .cons first hfirst ih

/-- The same value is set last. -/
theorem lastSet_eq {β : Type} (h : Restates moves given given') (setting : Directive → Option β)
    (default : β) : lastSet setting default given = lastSet setting default given' := by
  have hset : ∀ given : List (Nat × Statement), lastSet setting default given =
      ((given.map Prod.snd).filterMap fun s => s.directive?.bind setting).getLastD default := by
    intro given
    rw [lastSet, List.filterMap_map]
    rfl
  rw [hset, h.map_snd_eq, ← hset]

theorem appearanceOf_eq (h : Restates moves given given') :
    appearanceOf given = appearanceOf given' := by
  simp only [appearanceOf, h.lastSet_eq]

/-- The same names are declared. -/
theorem makes_iff (h : Restates moves given given') (s : Statement) :
    s.Makes given ↔ s.Makes given' := by
  cases s with
  | directive x => exact Iff.rfl
  | edge e => exact Iff.rfl
  | node n =>
      have hmakes : ∀ given : List (Nat × Statement), (Statement.node n).Makes given ↔
          ∀ s ∈ given.map Prod.snd, s.declares n.name = false := by
        intro given
        rw [List.forall_mem_map]
        rfl
      rw [hmakes, h.map_snd_eq, ← hmakes]

end Restates

/-- Texts that say the same restate each other, each statement on its counterpart. -/
theorem restates_statements {text text' : String}
    (h : (statements text).map Prod.snd = (statements text').map Prod.snd) :
    Restates (counterpart? text text') (statements text) (statements text') := by
  have hlength : (statements text).length = (statements text').length := by
    simpa using congrArg List.length h
  refine .of_forall₂ (List.forall₂_iff_get.2 ⟨hlength, ?_⟩)
  intro place hplace hplace'
  rw [List.get_eq_getElem, List.get_eq_getElem]
  constructor
  · have hfirst : ((statements text).findIdx? fun p => p.1 = (statements text)[place].1) =
        some place := by
      refine List.findIdx?_eq_some_iff_getElem.2 ⟨hplace, by simp, ?_⟩
      intro earlier hearlier
      have hlt := List.pairwise_iff_getElem.1 (pairwise_statements text) earlier place
        (hearlier.trans hplace) hplace hearlier
      simpa using Nat.ne_of_lt hlt
    rw [counterpart?, hfirst, Option.bind_some, List.getElem?_eq_getElem hplace', Option.map_some]
  · have hsame := List.getElem_of_eq h (by simpa using hplace)
    rwa [List.getElem_map, List.getElem_map] at hsame

/-! ### The same document on other lines -/

/-- A line moves to another one. -/
inductive Origin.MovesTo (moves : Nat → Option Nat) : Origin → Origin → Prop
  | line {number number' : Nat} (h : moves number = some number') :
      MovesTo moves (.line number) (.line number')

namespace Document

/-- A node is the same on the line that its own moves to. -/
structure Node.MovesTo (moves : Nat → Option Nat) (n n' : Node) : Prop where
  /-- Nothing but the line changes. -/
  same : n' = { n with origin := n'.origin }
  /-- The line moves. -/
  origin : n.origin.MovesTo moves n'.origin

theorem Node.MovesTo.id_eq {n n' : Node} (h : n.MovesTo moves n') : n'.id = n.id := by
  rw [h.same]

/-- An edge is the same on the line that its own moves to, except that its id is made of the
line. -/
structure Edge.MovesTo (moves : Nat → Option Nat) (e e' : Edge) : Prop where
  /-- Nothing but the line and the id changes. -/
  same : e' = { e with id := e'.id, origin := e'.origin }
  /-- The line moves. -/
  origin : e.origin.MovesTo moves e'.origin

end Document

/-- What a line is related to is the same on the line that it moves to, except that an id that is
not the name of a node is made of the line. -/
structure EntryMovesTo (moves : Nat → Option Nat) (entry entry' : Nat × Entity) : Prop where
  /-- The line moves. -/
  line : moves entry.1 = some entry'.1
  /-- The kind stays. -/
  kind : entry'.2.kind = entry.2.kind
  /-- The name of a node stays. -/
  name : entry.2.kind = .node → entry'.2.id = entry.2.id

/-- A document is the same on other lines. -/
structure Document.MovesTo (moves : Nat → Option Nat) (d d' : Document) : Prop where
  /-- The nodes are the same, in the same order. -/
  nodes : List.Forall₂ (Node.MovesTo moves) d.nodes d'.nodes
  /-- The edges are the same, in the same order. -/
  edges : List.Forall₂ (Edge.MovesTo moves) d.edges d'.edges
  /-- The direction is the same. -/
  direction : d'.direction = d.direction
  /-- The appearance is the same. -/
  appearance : d'.appearance = d.appearance
  /-- The entries of the source map are the same, in the same order. -/
  entries : List.Forall₂ (EntryMovesTo moves) d.sourceMap.entries d'.sourceMap.entries

/-! ### Nodes -/

namespace Roster

/-- A roster is the same on other lines. -/
structure MovesTo (moves : Nat → Option Nat) (r r' : Roster) : Prop where
  /-- The nodes are the same. -/
  nodes : List.Forall₂ (Document.Node.MovesTo moves) r.nodes r'.nodes
  /-- The appearance is the same. -/
  appearance : r'.appearance = r.appearance

namespace MovesTo

variable {r r' : Roster}

theorem ids_eq (h : r.MovesTo moves r') :
    r'.nodes.map Document.Node.id = r.nodes.map Document.Node.id := by
  have hids : ∀ {nodes nodes' : List Document.Node},
      List.Forall₂ (Document.Node.MovesTo moves) nodes nodes' →
      nodes'.map Document.Node.id = nodes.map Document.Node.id := by
    intro nodes nodes' hnodes
    induction hnodes with
    | nil => rfl
    | cons hn _ ih => rw [List.map_cons, List.map_cons, ih, hn.id_eq]
  exact hids h.nodes

theorem withNode (h : r.MovesTo moves r') {n n' : Document.Node} (hn : n.MovesTo moves n') :
    (r.withNode n).MovesTo moves (r'.withNode n') := by
  rw [Roster.withNode, Roster.withNode, h.ids_eq, hn.id_eq]
  split
  · exact h
  · exact ⟨List.rel_append h.nodes (.cons hn .nil), h.appearance⟩

theorem styled (h : r.MovesTo moves r') (x : Directive) :
    (r.styled x).MovesTo moves (r'.styled x) := by
  refine ⟨?_, ?_⟩
  · rw [nodes_styled, nodes_styled]
    exact h.nodes
  · cases x with
    | direction value => exact h.appearance
    | colorMode value => cases value <;> simp [Roster.styled, h.appearance]
    | styleMode value => cases value <;> simp [Roster.styled, h.appearance]
    | typeface value => cases value <;> simp [Roster.styled, h.appearance]

/-- **One statement** makes the same nodes on another line. -/
theorem apply (h : r.MovesTo moves r') {line line' : Nat} (hline : moves line = some line')
    (s : Statement) : (r.apply (line, s)).MovesTo moves (r'.apply (line', s)) := by
  have hbare : ∀ id, (Document.Node.bare id (.line line)).MovesTo moves (.bare id (.line line')) :=
    fun id => ⟨rfl, .line hline⟩
  cases s with
  | directive x => exact h.styled x
  | edge e => exact (h.withNode (hbare e.source)).withNode (hbare e.target)
  | node n =>
      refine h.withNode ⟨?_, .line hline⟩
      rw [declared, declared, h.appearance]

/-- **Statements one after the other** make the same nodes on other lines. -/
theorem foldl_apply (hgiven : Restates moves given given') (h : r.MovesTo moves r') :
    (given.foldl Roster.apply r).MovesTo moves (given'.foldl Roster.apply r') := by
  induction hgiven generalizing r r' with
  | nil => exact h
  | cons s hline _ ih => exact ih (h.apply hline s)

end MovesTo

end Roster

/-! ### Edges -/

/-- The same edges are stated, whatever names their ids give way to. -/
theorem Restates.forall₂_statedEdges (h : Restates moves given given') (names names' : List Id) :
    List.Forall₂ (Document.Edge.MovesTo moves) (given.filterMap (statedEdge? names))
      (given'.filterMap (statedEdge? names')) := by
  induction h with
  | nil => exact .nil
  | cons s hline _ ih =>
      cases s with
      | directive x => exact ih
      | edge e => exact .cons ⟨rfl, .line hline⟩ ih
      | node n => exact ih

/-! ### Entries -/

instance (before : List (Nat × Statement)) : (s : Statement) → Decidable (s.Makes before)
  | .directive _ => .isTrue trivial
  | .edge _ => .isTrue trivial
  | .node n => inferInstanceAs (Decidable (∀ p ∈ before, p.2.declares n.name = false))

/-- The entries that statements make after those before them, in order. -/
def entriesAfter (names : List Id) :
    List (Nat × Statement) → List (Nat × Statement) → List (Nat × Entity)
  | _, [] => []
  | before, (line, s) :: rest =>
      (if s.Makes before then [(line, s.entity names line)] else []) ++
        entriesAfter names (before ++ [(line, s)]) rest

section entriesAfter

variable {names : List Id} {before : List (Nat × Statement)}

theorem mem_entriesAfter_iff {line : Nat} {e : Entity} :
    (line, e) ∈ entriesAfter names before given ↔
      ∃ between s, between ++ [(line, s)] <+: given ∧ s.Makes (before ++ between) ∧
        e = s.entity names line := by
  induction given generalizing before with
  | nil => simp [entriesAfter]
  | cons p rest ih =>
      obtain ⟨number, statement⟩ := p
      rw [entriesAfter, List.mem_append, ih]
      constructor
      · rintro (hmem | ⟨between, s, hs, hmakes, rfl⟩)
        · split at hmem
          · next hmakes =>
              obtain ⟨rfl, rfl⟩ := Prod.mk.inj (List.mem_singleton.1 hmem)
              exact ⟨[], statement, by simp, by rwa [List.append_nil], rfl⟩
          · exact absurd hmem List.not_mem_nil
        · refine ⟨(number, statement) :: between, s, List.cons_prefix_cons.2 ⟨rfl, hs⟩, ?_, rfl⟩
          rwa [List.append_assoc] at hmakes
      · rintro ⟨between, s, hs, hmakes, rfl⟩
        cases between with
        | nil =>
            obtain ⟨rfl, rfl⟩ := Prod.mk.inj (List.cons_prefix_cons.1 hs).1
            rw [List.append_nil] at hmakes
            exact Or.inl (by simp [hmakes])
        | cons q between =>
            obtain ⟨rfl, hrest⟩ := List.cons_prefix_cons.1 hs
            refine Or.inr ⟨between, s, hrest, ?_, rfl⟩
            rwa [List.append_assoc]

/-- The entries are on some of the lines, in their order. -/
theorem map_fst_entriesAfter_sublist (names : List Id) (before given : List (Nat × Statement)) :
    ((entriesAfter names before given).map Prod.fst).Sublist (given.map Prod.fst) := by
  induction given generalizing before with
  | nil => exact List.Sublist.refl []
  | cons p rest ih =>
      obtain ⟨line, s⟩ := p
      rw [entriesAfter, List.map_append]
      split
      · exact (ih _).cons_cons line
      · exact (ih _).cons line

/-- The same entries are made, whatever names their ids give way to. -/
theorem Restates.forall₂_entriesAfter {before' : List (Nat × Statement)} (names names' : List Id)
    (h : Restates moves given given') (hbefore : Restates moves before before') :
    List.Forall₂ (EntryMovesTo moves) (entriesAfter names before given)
      (entriesAfter names' before' given') := by
  induction h generalizing before before' with
  | nil => exact .nil
  | @cons line line' _ _ s hline _ ih =>
      have hrest := ih (hbefore.concat hline s)
      have hentity : EntryMovesTo moves (line, s.entity names line)
          (line', s.entity names' line') := by
        cases s with
        | directive x => cases x <;> exact ⟨hline, rfl, fun h => nomatch h⟩
        | edge e => exact ⟨hline, rfl, fun h => nomatch h⟩
        | node n => exact ⟨hline, rfl, fun _ => rfl⟩
      rw [entriesAfter, entriesAfter]
      by_cases hmakes : s.Makes before
      · rw [if_pos hmakes, if_pos ((hbefore.makes_iff s).1 hmakes)]
        exact .cons hentity hrest
      · rw [if_neg hmakes, if_neg (mt (hbefore.makes_iff s).2 hmakes)]
        exact hrest

end entriesAfter

namespace Document

/-- The entries of a source map are what the statements make, in order. -/
theorem IsDescribedBy.entries_eq {d : Document} {names : List Id}
    (h : d.IsDescribedBy names given) (hgiven : given.Pairwise fun a b => a.1 < b.1) :
    d.sourceMap.entries = entriesAfter names [] given := by
  have hlines : (entriesAfter names [] given).Pairwise fun a b => a.1 < b.1 :=
    List.pairwise_map.1
      ((List.pairwise_map.2 hgiven).sublist (map_fst_entriesAfter_sublist names [] given))
  let made : SourceMap := ⟨entriesAfter names [] given⟩
  have hmap : d.sourceMap = made := by
    refine SourceMap.eq_of_mem_iff h.lines hlines ?_
    rintro ⟨line, e⟩
    rw [h.entries, mem_entriesAfter_iff]
    rfl
  rw [hmap]

/-! ### Texts that say the same -/

/-- **Texts that say the same make the same document on other lines.**  Lines that say nothing only
count: without them, the statements of both texts are the same, and then so are the nodes, the
edges, the direction and the appearance, and what is related to the lines of the statements. -/
theorem ofText_movesTo {text text' : String}
    (h : (statements text).map Prod.snd = (statements text').map Prod.snd) :
    ∃ d d', ofText text = .ok d ∧ ofText text' = .ok d' ∧
      d.MovesTo (counterpart? text text') d' := by
  obtain ⟨d, hd, -⟩ := exists_isSound text
  obtain ⟨d', hd', -⟩ := exists_isSound text'
  have hdescribed := isDescribedBy_of_ofText hd
  have hdescribed' := isDescribedBy_of_ofText hd'
  have hrestates := restates_statements h
  refine ⟨d, d', hd, hd', ?_⟩
  constructor
  case nodes =>
    rw [nodes_ofText hd, nodes_ofText hd']
    exact (Roster.MovesTo.foldl_apply hrestates ⟨.nil, rfl⟩).nodes
  case edges =>
    rw [hdescribed.edges, hdescribed'.edges]
    exact hrestates.forall₂_statedEdges _ _
  case direction => rw [hdescribed.direction, hdescribed'.direction, hrestates.lastSet_eq]
  case appearance => rw [hdescribed.appearance, hdescribed'.appearance, hrestates.appearanceOf_eq]
  case entries =>
    rw [hdescribed.entries_eq (pairwise_statements text),
      hdescribed'.entries_eq (pairwise_statements text')]
    exact hrestates.forall₂_entriesAfter _ _ .nil

/-- A comment and a blank line move an edge, whose id was mentioned and is not mentioned on its new
line. -/
theorem ofText_movesTo_of_blank_lines :
    let text := "edge_A_B_1\nA > B"
    let text' := "// names\nedge_A_B_1\n\nA > B"
    (statements text).map Prod.snd = (statements text').map Prod.snd ∧
      counterpart? text text' 1 = some 3 ∧
      ∃ d d', ofText text = .ok d ∧ ofText text' = .ok d' ∧
        d.MovesTo (counterpart? text text') d' ∧
        d.edges.map Edge.id = ["edge_A_B_1'"] ∧ d'.edges.map Edge.id = ["edge_A_B_3"] := by
  intro text text'
  have hsame : (statements text).map Prod.snd = (statements text').map Prod.snd := by
    decide +kernel
  have hedges : (ofText text).toOption.map (·.edges.map Edge.id) = some ["edge_A_B_1'"] := by
    decide +kernel
  have hedges' : (ofText text').toOption.map (·.edges.map Edge.id) = some ["edge_A_B_3"] := by
    decide +kernel
  obtain ⟨d, d', hd, hd', hmoves⟩ := ofText_movesTo hsame
  rw [hd] at hedges
  rw [hd'] at hedges'
  exact ⟨hsame, by decide +kernel, d, d', hd, hd', hmoves, Option.some.inj hedges,
    Option.some.inj hedges'⟩

end Document

end TextDiagram
