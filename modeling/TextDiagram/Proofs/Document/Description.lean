/-
**What a text says as a whole.**

A document is made statement by statement.  What comes of it can be said without following that:
every name has the node that its first mention makes of it, the edge statements are the edges, the
settings are those of the last directives, and a line is related to what it makes.  A mention that
is not the first one of its name makes nothing, except that the first declaration of a name is the
line of its node.

Main definitions:

* `TextDiagram.lastSet`, `TextDiagram.appearanceOf` — the settings that statements lead to;
* `TextDiagram.IsFirstMentioned` — a node is what the first mention of its name makes of it;
* `TextDiagram.Statement.Makes` — what a line is related to;
* `TextDiagram.Document.IsDescribedBy` — the description of a document.

Main results:

* `TextDiagram.Draft.exists_eq_of_apply` — all that a statement does to a draft;
* `TextDiagram.Document.IsDescribedBy.apply`, `TextDiagram.Document.IsDescribedBy.foldlM` — one
  statement, and statements one after the other, keep to the description;
* `TextDiagram.Document.IsDescribedBy.eq` — the description leaves nothing open;
* `TextDiagram.Document.exists_ofText_isDescribedBy` — **a document is what its text says as a
  whole**.
-/

import TextDiagram.Proofs.Document.Nodes
import TextDiagram.Proofs.Document.Statements

set_option relaxedAutoImplicit false
set_option autoImplicit false

namespace TextDiagram

/-! ### Settings -/

namespace Directive

/-- The direction that a directive sets. -/
def direction? : Directive → Option Direction
  | direction value => value
  | _ => none

/-- The color mode that a directive sets. -/
def colorMode? : Directive → Option ColorMode
  | colorMode value => value
  | _ => none

/-- The style mode that a directive sets. -/
def styleMode? : Directive → Option StyleMode
  | styleMode value => value
  | _ => none

/-- The typeface that a directive sets. -/
def typeface? : Directive → Option Typeface
  | typeface value => value
  | _ => none

end Directive

/-- The directive of a statement. -/
def Statement.directive? : Statement → Option Directive
  | directive x => some x
  | _ => none

/-- What the last directive that sets a value sets, or the default. -/
def lastSet {β : Type} (setting : Directive → Option β) (default : β)
    (given : List (Nat × Statement)) : β :=
  (given.filterMap fun p => p.2.directive?.bind setting).getLastD default

/-- The appearance that statements lead to. -/
def appearanceOf (given : List (Nat × Statement)) : Appearance where
  colorMode := lastSet Directive.colorMode? ({} : Appearance).colorMode given
  styleMode := lastSet Directive.styleMode? ({} : Appearance).styleMode given
  typeface := lastSet Directive.typeface? ({} : Appearance).typeface given

/-- A further statement sets the value anew or leaves it. -/
theorem lastSet_concat {β : Type} (setting : Directive → Option β) (default : β)
    (given : List (Nat × Statement)) (p : Nat × Statement) :
    lastSet setting default (given ++ [p]) =
      (p.2.directive?.bind setting).getD (lastSet setting default given) := by
  rw [lastSet, List.filterMap_append, List.filterMap_cons, List.filterMap_nil]
  cases p.2.directive?.bind setting with
  | none => rw [List.append_nil, Option.getD_none, lastSet]
  | some value => rw [List.getLastD_concat, Option.getD_some]

/-- A further directive sets what it can set of the appearance. -/
theorem appearanceOf_concat_directive (given : List (Nat × Statement)) (line : Nat)
    (x : Directive) (nodes : List Document.Node) :
    ((⟨nodes, appearanceOf given⟩ : Roster).styled x).appearance =
      appearanceOf (given ++ [(line, .directive x)]) := by
  simp only [appearanceOf, lastSet_concat, Statement.directive?, Option.bind_some]
  cases x with
  | direction value => rfl
  | colorMode value => cases value <;> rfl
  | styleMode value => cases value <;> rfl
  | typeface value => cases value <;> rfl

/-- Other statements set nothing. -/
theorem appearanceOf_concat (given : List (Nat × Statement)) {p : Nat × Statement}
    (hp : p.2.directive? = none) : appearanceOf (given ++ [p]) = appearanceOf given := by
  simp only [appearanceOf, lastSet_concat, hp, Option.bind_none, Option.getD_none]

/-! ### First mentions -/

/-- The node that the first mention of a name makes, given the statements before it: a declaration
makes the node that it declares, in the appearance that those statements lead to, and an edge makes
a bare node. -/
def nodeOfMention (before : List (Nat × Statement)) (p : Nat × Statement) (id : Id) :
    Document.Node :=
  match p.2 with
  | .node n =>
      { id, label := id, icon := n.icon, color := n.color, parent := n.parent
        isGroup := n.isGroup, appearance := some (appearanceOf before), origin := .line p.1 }
  | _ => .bare id (.line p.1)

/-- A node is what the first mention of its name makes of it. -/
def IsFirstMentioned (given : List (Nat × Statement)) (n : Document.Node) : Prop :=
  ∃ before p, before ++ [p] <+: given ∧ n.id ∈ p.2.names ∧ n.id ∉ mentionedNames before ∧
    n = nodeOfMention before p n.id

/-- Further statements do not change what was mentioned first. -/
theorem IsFirstMentioned.mono {given given' : List (Nat × Statement)} {n : Document.Node}
    (h : IsFirstMentioned given n) (hstarts : given <+: given') : IsFirstMentioned given' n := by
  obtain ⟨before, p, hbefore, hid, hnew, heq⟩ := h
  exact ⟨before, p, hbefore.trans hstarts, hid, hnew, heq⟩

/-- A name has one first mention. -/
theorem eq_of_first_mention {given before before' : List (Nat × Statement)}
    {p p' : Nat × Statement} {id : Id} (hbefore : before ++ [p] <+: given)
    (hbefore' : before' ++ [p'] <+: given) (hid : id ∈ p.2.names) (hid' : id ∈ p'.2.names)
    (hnew : id ∉ mentionedNames before) (hnew' : id ∉ mentionedNames before') :
    before = before' ∧ p = p' := by
  have hmem : ∀ {before before' : List (Nat × Statement)} {p : Nat × Statement},
      before ++ [p] <+: before' → id ∈ p.2.names → id ∈ mentionedNames before' :=
    fun hstarts hid => mem_mentionedNames (hstarts.subset (by simp)) hid
  rcases List.prefix_or_prefix_of_prefix hbefore hbefore' with hstarts | hstarts
  · rcases List.prefix_concat_iff.1 hstarts with heq | hstarts
    · exact List.append_singleton_inj.1 heq
    · exact absurd (hmem hstarts hid) hnew'
  · rcases List.prefix_concat_iff.1 hstarts with heq | hstarts
    · exact List.append_singleton_inj.1 heq.symm
    · exact absurd (hmem hstarts hid') hnew

/-- The first mention of a name tells what becomes of it. -/
theorem IsFirstMentioned.eq_of_id_eq {given : List (Nat × Statement)} {n n' : Document.Node}
    (h : IsFirstMentioned given n) (h' : IsFirstMentioned given n') (hid : n.id = n'.id) :
    n = n' := by
  obtain ⟨before, p, hbefore, hmem, hnew, heq⟩ := h
  obtain ⟨before', p', hbefore', hmem', hnew', heq'⟩ := h'
  rw [← hid] at hmem' hnew' heq'
  obtain ⟨rfl, rfl⟩ := eq_of_first_mention hbefore hbefore' hmem hmem' hnew hnew'
  exact heq.trans heq'.symm

/-! ### Edges and entities -/

/-- The edge that a statement of a line states, over the names of the text. -/
def statedEdge? (names : List Id) (p : Nat × Statement) : Option Document.Edge :=
  match p.2 with
  | .edge e => some
      { id := Id.primedUntilFree names (Id.edge e.source e.target p.1)
        source := e.source, target := e.target, kind := e.kind, label := e.label, color := e.color
        origin := .line p.1 }
  | _ => none

namespace Statement

/-- Whether a statement declares a node of a name. -/
def declares (id : Id) : Statement → Bool
  | node n => n.name = id
  | _ => false

/-- The entity of a statement of a line, over the names of the text. -/
def entity (names : List Id) (line : Nat) : Statement → Entity
  | directive x =>
      ⟨Draft.entityKind x,
        Id.primedUntilFree names (Id.numbered (Draft.entityKind x).name line)⟩
  | edge e => ⟨.edge, Id.primedUntilFree names (Id.edge e.source e.target line)⟩
  | node n => ⟨.node, n.name⟩

/-- Whether the line of a statement is related to something, after the statements before it:
directives and edges are, and of the declarations of a name the first one is. -/
def Makes (before : List (Nat × Statement)) : Statement → Prop
  | directive _ => True
  | edge _ => True
  | node n => ∀ p ∈ before, p.2.declares n.name = false

theorem declares_iff {id : Id} {s : Statement} :
    s.declares id = true ↔ ∃ n, s = node n ∧ n.name = id := by
  cases s <;> simp [declares]

/-- Only a declaration is related to a node, and to the one that it declares. -/
theorem declares_of_entity_eq {names : List Id} {line : Nat} {s : Statement} {id : Id}
    (h : s.entity names line = ⟨.node, id⟩) : s.declares id = true := by
  cases s with
  | directive x => cases x <;> simp [entity, Draft.entityKind] at h
  | edge e => simp [entity] at h
  | node n => simpa [entity, declares] using h

/-- A declaration is related to the node that it declares. -/
theorem entity_of_declares {s : Statement} {id : Id} (h : s.declares id = true) (names : List Id)
    (line : Nat) : s.entity names line = ⟨.node, id⟩ := by
  obtain ⟨n, rfl, rfl⟩ := declares_iff.1 h
  rfl

end Statement

/-! ### Descriptions -/

/-- The description of a document by statements, over the names of the whole text. -/
structure Document.IsDescribedBy (names : List Id) (given : List (Nat × Statement))
    (d : Document) : Prop where
  /-- The nodes are the names in the order of their first mentions. -/
  ids : d.nodes.map Node.id = (mentionedNames given).eraseDups
  /-- Every node is what the first mention of its name makes of it. -/
  nodes : ∀ n ∈ d.nodes, IsFirstMentioned given n
  /-- The edges are those that are stated, in order. -/
  edges : d.edges = given.filterMap (statedEdge? names)
  /-- The direction is the last one that is set. -/
  direction : d.direction = lastSet Directive.direction? ({} : Document).direction given
  /-- The appearance is that of the last settings. -/
  appearance : d.appearance = appearanceOf given
  /-- The lines of the source map increase. -/
  lines : d.sourceMap.entries.Pairwise fun a b => a.1 < b.1
  /-- A line is related to what it makes: a directive, an edge, or a node that no line before it
  declares. -/
  entries : ∀ line e, (line, e) ∈ d.sourceMap.entries ↔
    ∃ before s, before ++ [(line, s)] <+: given ∧ s.Makes before ∧ e = s.entity names line

/-! ### What a statement does to a draft -/

namespace Draft

variable {draft draft' : Draft} {p : Nat × Statement}

/-- Whether a statement is related to its line: a declaration is not if its node has a line. -/
def relates (draft : Draft) : Statement → Bool
  | .node n => !draft.document.sourceMap.contains ⟨.node, n.name⟩
  | _ => true

/-- A draft with what a statement makes, which is not related to its line yet. -/
def taking (draft : Draft) : Nat × Statement → Draft
  | (_, .directive x) => draft.set x
  | (line, .edge e) =>
      let joined := (draft.ensureNode (.bare e.source (.line line))).ensureNode
        (.bare e.target (.line line))
      joined.addEdge { Document.Edge.onLine e.source e.target e.kind line e.label e.color with
        id := Id.primedUntilFree draft.reserved (Id.edge e.source e.target line) }
  | (line, .node n) => draft.ensureNode (draft.roster.declared line n)

@[simp] theorem taking_reserved (draft : Draft) (p : Nat × Statement) :
    (draft.taking p).reserved = draft.reserved := by
  obtain ⟨line, statement⟩ := p
  cases statement with
  | directive x => exact (set_eq draft x).1
  | edge e => simp [taking, addEdge]
  | node n => exact ensureNode_reserved draft _

@[simp] theorem taking_sourceMap (draft : Draft) (p : Nat × Statement) :
    (draft.taking p).document.sourceMap = draft.document.sourceMap := by
  obtain ⟨line, statement⟩ := p
  cases statement with
  | directive x => exact (set_eq draft x).2.2.2
  | edge e => simp [taking, addEdge]
  | node n => exact ensureNode_sourceMap draft _

@[simp] theorem ensureNode_edges (draft : Draft) (n : Document.Node) :
    (draft.ensureNode n).document.edges = draft.document.edges := by
  rw [ensureNode]
  split <;> rfl

@[simp] theorem ensureNode_direction (draft : Draft) (n : Document.Node) :
    (draft.ensureNode n).document.direction = draft.document.direction := by
  rw [ensureNode]
  split <;> rfl

/-- The edge that is stated comes in at the end. -/
theorem taking_edges (draft : Draft) (hlabel : ∀ e, p.2 = .edge e → e.label ≠ some "") :
    (draft.taking p).document.edges =
      draft.document.edges ++ (statedEdge? draft.reserved p).toList := by
  obtain ⟨line, statement⟩ := p
  cases statement with
  | directive x => rw [taking, (set_eq draft x).2.2.1]; exact (List.append_nil _).symm
  | edge e =>
      have hkept : e.label.filter (· ≠ "") = e.label := by
        cases hsome : e.label with
        | none => rfl
        | some label =>
            have hne : label ≠ "" := fun heq => hlabel e rfl (by rw [hsome, heq])
            simp [hne]
      simp only [taking, addEdge, ensureNode_edges, statedEdge?, Document.Edge.onLine, hkept,
        Option.toList_some]
  | node n => simp [taking, statedEdge?]

/-- The direction is the one that is set. -/
theorem taking_direction (draft : Draft) (p : Nat × Statement) :
    (draft.taking p).document.direction =
      (p.2.directive?.bind Directive.direction?).getD draft.document.direction := by
  obtain ⟨line, statement⟩ := p
  cases statement with
  | directive x =>
      cases x with
      | direction value => cases value <;> rfl
      | colorMode value => cases value <;> rfl
      | styleMode value => cases value <;> rfl
      | typeface value => cases value <;> rfl
  | edge e => simp [taking, addEdge, Statement.directive?]
  | node n => simp [taking, Statement.directive?]

/-- A statement is taken in first, and then related to its line or not. -/
theorem apply_eq (draft : Draft) (p : Nat × Statement) :
    draft.apply p =
      if draft.relates p.2 = true then
        (draft.taking p).relate p.1 (p.2.entity draft.reserved p.1).kind
          (p.2.entity draft.reserved p.1).id
      else .ok (draft.taking p) := by
  obtain ⟨line, statement⟩ := p
  cases statement with
  | directive x => rfl
  | edge e => rfl
  | node n =>
      -- whether the node has a line is asked after it was taken in, which makes no difference
      let taken := draft.taking (line, .node n)
      have happly : draft.apply (line, .node n) =
          if taken.document.sourceMap.contains ⟨.node, n.name⟩ then .ok taken
          else taken.relate line .node n.name := rfl
      have hmap : taken.document.sourceMap = draft.document.sourceMap := taking_sourceMap draft _
      rw [happly, hmap]
      cases hline : draft.document.sourceMap.contains ⟨.node, n.name⟩ with
      | true => rw [if_pos rfl, if_neg (by simp [relates, hline])]
      | false => rw [if_neg Bool.false_ne_true, if_pos (by simp [relates, hline])]; rfl

theorem exists_insert_of_relate {line : Nat} {kind : EntityKind} {id : Id}
    (h : draft.relate line kind id = .ok draft') :
    ∃ map, draft.document.sourceMap.insert line ⟨kind, id⟩ = .ok map ∧
      draft' = { draft with document := { draft.document with sourceMap := map } } := by
  rw [relate] at h
  split at h
  · next map hmap => exact ⟨map, hmap, (Except.ok.inj h).symm⟩
  · cases h

/-- **All that a statement does to a draft.**  It is taken in, and perhaps related to its line. -/
theorem exists_eq_of_apply (h : draft.apply p = .ok draft') :
    ∃ map : SourceMap,
      draft' = { draft.taking p with
        document := { (draft.taking p).document with sourceMap := map } } ∧
      ((draft.document.sourceMap.entries.Pairwise fun a b => a.1 < b.1) →
        map.entries.Pairwise fun a b => a.1 < b.1) ∧
      ∀ entry, entry ∈ map.entries ↔ entry ∈ draft.document.sourceMap.entries ∨
        draft.relates p.2 = true ∧ entry = (p.1, p.2.entity draft.reserved p.1) := by
  rw [apply_eq] at h
  split at h
  · next hrelates =>
      obtain ⟨map, hmap, rfl⟩ := exists_insert_of_relate h
      rw [taking_sourceMap] at hmap
      refine ⟨map, rfl, fun hlines => SourceMap.pairwise_lt_of_insert hlines hmap, ?_⟩
      intro entry
      rw [SourceMap.mem_insert hmap, or_comm, and_iff_right hrelates]
  · next hrelates =>
      refine ⟨draft.document.sourceMap, ?_, id, ?_⟩
      · rw [← taking_sourceMap draft p, ← Except.ok.inj h]
      · intro entry
        rw [or_iff_left fun hentry => hrelates hentry.1]

end Draft

/-! ### What a statement does to the nodes -/

/-- A further name is one more distinct name, unless it is there already. -/
theorem eraseDups_concat (names : List Id) (id : Id) :
    (names ++ [id]).eraseDups =
      if id ∈ names then names.eraseDups else names.eraseDups ++ [id] := by
  rw [List.eraseDups_append]
  split
  · next h => simp [List.removeAll, h]
  · next h => simp [List.removeAll, h, List.eraseDups_cons]

namespace Roster

variable {r : Roster} {given : List (Nat × Statement)}

/-- A node comes in at the end, if there is none of its name. -/
theorem mem_withNode {n m : Document.Node} (h : m ∈ (r.withNode n).nodes) :
    m ∈ r.nodes ∨ m = n ∧ n.id ∉ r.nodes.map Document.Node.id := by
  rw [withNode] at h
  split at h
  · exact Or.inl h
  · next hnew =>
      rcases List.mem_append.1 h with h | h
      · exact Or.inl h
      · exact Or.inr ⟨List.mem_singleton.1 h, hnew⟩

theorem ids_withNode {names : List Id} (h : r.nodes.map Document.Node.id = names.eraseDups)
    (n : Document.Node) :
    (r.withNode n).nodes.map Document.Node.id = (names ++ [n.id]).eraseDups := by
  have hmem : n.id ∈ r.nodes.map Document.Node.id ↔ n.id ∈ names := by
    rw [h, List.mem_eraseDups]
  rw [withNode, eraseDups_concat]
  by_cases hname : n.id ∈ names
  · rw [if_pos (hmem.2 hname), if_pos hname, h]
  · rw [if_neg (mt hmem.1 hname), if_neg hname, List.map_append, h, List.map_singleton]

/-- The names stay in the order of their first mentions. -/
theorem ids_apply (h : r.nodes.map Document.Node.id = (mentionedNames given).eraseDups)
    (p : Nat × Statement) :
    (r.apply p).nodes.map Document.Node.id = (mentionedNames (given ++ [p])).eraseDups := by
  obtain ⟨line, statement⟩ := p
  rw [mentionedNames_concat]
  cases statement with
  | directive x => rw [apply, nodes_styled, Statement.names, List.append_nil, h]
  | edge e =>
      have hboth := ids_withNode (ids_withNode h (.bare e.source (.line line)))
        (.bare e.target (.line line))
      rw [List.append_assoc] at hboth
      exact hboth
  | node n => exact ids_withNode h (r.declared line n)

/-- The appearance stays that of the last settings. -/
theorem appearance_apply (h : r.appearance = appearanceOf given) (p : Nat × Statement) :
    (r.apply p).appearance = appearanceOf (given ++ [p]) := by
  have hkept : ∀ (r : Roster) (n : Document.Node), (r.withNode n).appearance = r.appearance := by
    intro r n
    rw [withNode]
    split <;> rfl
  obtain ⟨line, statement⟩ := p
  cases statement with
  | directive x =>
      rw [← appearanceOf_concat_directive given line x r.nodes, ← h]
      rfl
  | edge e => rw [apply, hkept, hkept, h, appearanceOf_concat given rfl]
  | node n => rw [apply, hkept, h, appearanceOf_concat given rfl]

/-- The nodes stay what their first mentions make of them. -/
theorem isFirstMentioned_apply
    (hids : r.nodes.map Document.Node.id = (mentionedNames given).eraseDups)
    (happearance : r.appearance = appearanceOf given) (h : ∀ n ∈ r.nodes, IsFirstMentioned given n)
    (p : Nat × Statement) : ∀ n ∈ (r.apply p).nodes, IsFirstMentioned (given ++ [p]) n := by
  have hold : ∀ n ∈ r.nodes, IsFirstMentioned (given ++ [p]) n := fun n hn =>
    (h n hn).mono (List.prefix_append given [p])
  have hnew : ∀ id, id ∉ r.nodes.map Document.Node.id → id ∉ mentionedNames given := by
    intro id hid
    rwa [hids, List.mem_eraseDups] at hid
  obtain ⟨line, statement⟩ := p
  intro m hm
  cases statement with
  | directive x =>
      rw [apply, nodes_styled] at hm
      exact hold m hm
  | edge e =>
      -- the target is new to the names with the source, so it is new to those before
      rcases mem_withNode hm with hm | ⟨rfl, htarget⟩
      · rcases mem_withNode hm with hm | ⟨rfl, hsource⟩
        · exact hold m hm
        · exact ⟨given, _, List.prefix_rfl, List.mem_cons_self, hnew _ hsource, rfl⟩
      · rw [ids_withNode hids, List.mem_eraseDups, List.mem_append, not_or] at htarget
        exact ⟨given, _, List.prefix_rfl, .tail _ List.mem_cons_self, htarget.1, rfl⟩
  | node n =>
      rcases mem_withNode hm with hm | ⟨rfl, hname⟩
      · exact hold m hm
      · rw [declared, happearance]
        exact ⟨given, _, List.prefix_rfl, List.mem_cons_self, hnew _ hname, rfl⟩

end Roster

/-! ### Documents keep to their description -/

namespace Document.IsDescribedBy

variable {names : List Id} {given : List (Nat × Statement)}

theorem nothing (names : List Id) : IsDescribedBy names [] {} where
  ids := rfl
  nodes := fun _ h => absurd h List.not_mem_nil
  edges := rfl
  direction := rfl
  appearance := rfl
  lines := List.Pairwise.nil
  entries := by
    intro line e
    simp

/-- The description leaves nothing open. -/
theorem eq {d d' : Document} (h : d.IsDescribedBy names given)
    (h' : d'.IsDescribedBy names given) : d = d' := by
  have hnodes : d.nodes = d'.nodes := by
    have hids := h.ids.trans h'.ids.symm
    have hlength := congrArg List.length hids
    rw [List.length_map, List.length_map] at hlength
    refine List.ext_getElem hlength ?_
    intro i hi hi'
    have hid := List.getElem_of_eq hids (by rwa [List.length_map])
    rw [List.getElem_map, List.getElem_map] at hid
    exact (h.nodes _ (List.getElem_mem hi)).eq_of_id_eq (h'.nodes _ (List.getElem_mem hi')) hid
  have hmap : d.sourceMap = d'.sourceMap := by
    refine SourceMap.eq_of_mem_iff h.lines h'.lines ?_
    rintro ⟨line, e⟩
    rw [h.entries, h'.entries]
  have hedges := h.edges.trans h'.edges.symm
  have hdirection := h.direction.trans h'.direction.symm
  have happearance := h.appearance.trans h'.appearance.symm
  obtain ⟨⟩ := d
  obtain ⟨⟩ := d'
  rw [Document.mk.injEq]
  exact ⟨hnodes, hedges, hdirection, happearance, hmap⟩

/-- A node has a line exactly if it was declared. -/
theorem exists_entry_iff {d : Document} (h : d.IsDescribedBy names given) {id : Id} :
    (∃ line, (line, ⟨.node, id⟩) ∈ d.sourceMap.entries) ↔
      ∃ p ∈ given, p.2.declares id = true := by
  constructor
  · rintro ⟨line, hentry⟩
    obtain ⟨before, s, hbefore, -, hentity⟩ := (h.entries line _).1 hentry
    exact ⟨(line, s), hbefore.subset (by simp), Statement.declares_of_entity_eq hentity.symm⟩
  · rintro ⟨p, hp, hdeclares⟩
    -- the first declaration of the name is the one that has the line
    have hsome : (given.find? fun p => p.2.declares id).isSome = true :=
      List.find?_isSome.2 ⟨p, hp, hdeclares⟩
    obtain ⟨⟨line, s⟩, hfirst⟩ := Option.isSome_iff_exists.1 hsome
    obtain ⟨hs, before, after, rfl, hbefore⟩ := List.find?_eq_some_iff_append.1 hfirst
    have hentity := Statement.entity_of_declares hs names line
    refine ⟨line, (h.entries line _).2 ⟨before, s, ⟨after, by simp⟩, ?_, hentity.symm⟩⟩
    obtain ⟨n, rfl, rfl⟩ := Statement.declares_iff.1 hs
    intro q hq
    simpa using hbefore q hq

/-- A statement is related to its line exactly if it makes something. -/
theorem relates_iff {draft : Draft} (h : draft.document.IsDescribedBy names given)
    (s : Statement) : draft.relates s = true ↔ s.Makes given := by
  cases s with
  | directive x => exact ⟨fun _ => trivial, fun _ => rfl⟩
  | edge e => exact ⟨fun _ => trivial, fun _ => rfl⟩
  | node n =>
      rw [Draft.relates, Bool.not_eq_true', SourceMap.contains, Option.isSome_eq_false_iff,
        Option.isNone_iff_eq_none, SourceMap.lineOf?_eq_none_iff, ← not_exists,
        h.exists_entry_iff]
      simp [Statement.Makes]

/-- **One statement** keeps a document to its description. -/
theorem apply {draft draft' : Draft} (h : draft.document.IsDescribedBy names given)
    (hreserved : draft.reserved = names) {p : Nat × Statement}
    (hlabel : ∀ e, p.2 = .edge e → e.label ≠ some "") (happly : draft.apply p = .ok draft') :
    draft'.document.IsDescribedBy names (given ++ [p]) ∧ draft'.reserved = names := by
  have hroster := Draft.roster_apply happly
  obtain ⟨map, rfl, hlines, hentries⟩ := Draft.exists_eq_of_apply happly
  subst hreserved
  refine ⟨?_, Draft.taking_reserved draft p⟩
  have hnodes : (draft.taking p).document.nodes = (draft.roster.apply p).nodes :=
    congrArg Roster.nodes hroster
  have happearance : (draft.taking p).document.appearance = (draft.roster.apply p).appearance :=
    congrArg Roster.appearance hroster
  constructor
  case ids => exact hnodes ▸ Roster.ids_apply h.ids p
  case nodes => exact hnodes ▸ Roster.isFirstMentioned_apply h.ids h.appearance h.nodes p
  case edges =>
    rw [List.filterMap_append, ← h.edges]
    exact Draft.taking_edges draft hlabel
  case direction =>
    rw [lastSet_concat, ← h.direction]
    exact Draft.taking_direction draft p
  case appearance => exact happearance ▸ Roster.appearance_apply h.appearance p
  case lines => exact hlines h.lines
  case entries =>
    intro line e
    rw [hentries, h.entries, h.relates_iff]
    constructor
    · rintro (⟨before, s, hbefore, hmakes, rfl⟩ | ⟨hmakes, heq⟩)
      · exact ⟨before, s, hbefore.trans (List.prefix_append given [p]), hmakes, rfl⟩
      · obtain ⟨rfl, rfl⟩ := Prod.mk.inj heq
        exact ⟨given, p.2, List.prefix_rfl, hmakes, rfl⟩
    · rintro ⟨before, s, hbefore, hmakes, rfl⟩
      rcases List.prefix_concat_iff.1 hbefore with heq | hbefore
      · obtain ⟨rfl, rfl⟩ := List.append_singleton_inj.1 heq
        exact Or.inr ⟨hmakes, rfl⟩
      · exact Or.inl ⟨before, s, hbefore, hmakes, rfl⟩

/-- **Statements one after the other** keep a document to its description. -/
theorem foldlM {rest : List (Nat × Statement)} {draft draft' : Draft}
    (h : draft.document.IsDescribedBy names given) (hreserved : draft.reserved = names)
    (hlabel : ∀ p ∈ rest, ∀ e, p.2 = .edge e → e.label ≠ some "")
    (hfold : rest.foldlM Draft.apply draft = .ok draft') :
    draft'.document.IsDescribedBy names (given ++ rest) := by
  -- what was given grows by the statements that the draft takes in
  induction rest generalizing draft given with
  | nil =>
      obtain rfl := Except.ok.inj hfold
      rwa [List.append_nil]
  | cons p rest ih =>
      rw [List.foldlM_cons] at hfold
      cases happly : draft.apply p with
      | error error => rw [happly] at hfold; cases hfold
      | ok next =>
          rw [happly] at hfold
          obtain ⟨hnext, hreserved'⟩ :=
            h.apply hreserved (hlabel p List.mem_cons_self) happly
          have hrest := ih hnext hreserved' (fun q hq => hlabel q (List.mem_cons_of_mem _ hq)) hfold
          rwa [List.append_assoc, List.singleton_append] at hrest

end Document.IsDescribedBy

/-! ### The document of a text -/

theorem nonEmpty?_ne (text : List Char) : nonEmpty? text ≠ some "" := by
  intro h
  obtain ⟨hempty, hne⟩ := nonEmpty?_eq_some_iff.1 h
  exact hne hempty.symm

theorem label_edgeDetails_ne (text : List Char) : (edgeDetails text).1 ≠ some "" := by
  simp only [edgeDetails]
  split
  · exact nonEmpty?_ne _
  · exact nonEmpty?_ne _

/-- The label of an edge is not empty, if it is there. -/
theorem Statement.label_ne_of_ofLine? {line : String} {e : EdgeStatement}
    (h : ofLine? line = some (.edge e)) : e.label ≠ some "" := by
  obtain ⟨-, hedge⟩ := ofLine?_eq_edge_iff.1 h
  obtain ⟨before, after, -, -, -, -, hdetails⟩ := EdgeStatement.ofLine?_eq_some_iff.1 hedge
  have hlabel : e.label = _ := congrArg Prod.fst hdetails
  rw [hlabel]
  cases Text.cutAround [':'] after with
  | none => exact fun hnone => nomatch hnone
  | some cut => exact label_edgeDetails_ne cut.2

namespace Document

variable {text : String} {d : Document}

/-- The document of a text is described by the statements of the text. -/
theorem isDescribedBy_of_ofText (h : ofText text = .ok d) :
    d.IsDescribedBy (mentionedNames (statements text)) (statements text) := by
  obtain ⟨draft, hfold, rfl⟩ := exists_foldlM_of_ofText h
  refine (IsDescribedBy.nothing (mentionedNames (statements text))).foldlM rfl ?_ hfold
  intro p hp e he
  obtain ⟨⟨number, line⟩, -, hread⟩ := List.mem_filterMap.1 hp
  obtain ⟨statement, hline, rfl⟩ := Option.map_eq_some_iff.1 hread
  exact Statement.label_ne_of_ofLine? (hline.trans (congrArg some he))

/-- **A document is what its text says as a whole.**  Every text makes a document.  Its nodes are
the names of the text in the order of their first mentions, and each is what its first mention makes
of it; its edges are the edge statements in order; its direction and its appearance are the last
ones that are set; and a line is related to what it makes exactly if it holds a directive, an edge,
or the first declaration of a name.  No other document is described like that. -/
theorem exists_ofText_isDescribedBy (text : String) :
    ∃ d, ofText text = .ok d ∧
      (∀ d', d'.IsDescribedBy (mentionedNames (statements text)) (statements text) ↔ d' = d) ∧
      ∀ line, (∃ e, d.sourceMap.entityAt? line = some e) ↔
        ∃ before s, before ++ [(line, s)] <+: statements text ∧ s.Makes before := by
  obtain ⟨d, hd, hsound⟩ := exists_isSound text
  have hdescribed := isDescribedBy_of_ofText hd
  refine ⟨d, hd, ?_, ?_⟩
  · intro d'
    constructor
    · intro hdescribed'
      exact hdescribed'.eq hdescribed
    · rintro rfl
      exact hdescribed
  · intro line
    constructor
    · rintro ⟨e, he⟩
      obtain ⟨before, s, hbefore, hmakes, -⟩ :=
        (hdescribed.entries line e).1 (hsound.bijection.entityAt?_eq_some_iff.1 he)
      exact ⟨before, s, hbefore, hmakes⟩
    · rintro ⟨before, s, hbefore, hmakes⟩
      have hentry := (hdescribed.entries line _).2 ⟨before, s, hbefore, hmakes, rfl⟩
      exact ⟨_, hsound.bijection.entityAt?_eq_some_iff.2 hentry⟩

/-- A node that an edge mentions first comes from the line of the edge, and is yet related to the
line that declares it. -/
example :
    ((ofText "A > B\nA").toOption.map fun d =>
      (d.nodes.map Node.origin, d.sourceMap.lineOf? ⟨.node, "A"⟩)) =
    some ([.line 0, .line 0], some 1) := by
  decide +kernel

end Document

end TextDiagram
