/-
**The names that lines mention.**

A line mentions nodes by the parts of it between its separators, without the blanks around them.  So
a name is not empty, has no blanks at its ends, and does not leave its line.  It need not be a name
that could stand anywhere else: what follows an arrow can look like a comment, a directive or a
label when it stands somewhere else.

Main definitions:

* `TextDiagram.IsName` — the texts that nodes can be known by;
* `TextDiagram.OpensName` — the texts at the start of a line that open a name, and not a comment or
  a directive.

Main results:

* `TextDiagram.LineClass.of_eq_edge_iff`, `TextDiagram.LineClass.of_eq_node_iff` — the lines of
  edges and nodes;
* `TextDiagram.EdgeStatement.ofLine?_eq_some_iff` — the parts of the line of an edge;
* `TextDiagram.Statement.isName_of_mem_names` — **a line mentions names**.
-/

import TextDiagram.Proofs.Text.Blank
import TextDiagram.Proofs.Text.Cut
import TextDiagram.Statement.Reader

set_option relaxedAutoImplicit false
set_option autoImplicit false

namespace TextDiagram

open Text

variable {text line : List Char}

/-! ### Names -/

/-- A text that a node can be known by. -/
structure IsName (name : String) : Prop where
  /-- There is something to read. -/
  nonempty : name.toList ≠ []
  /-- There are no blanks at the ends. -/
  trimmed : IsTrimmed name.toList
  /-- It stays on its line. -/
  oneLine : '\n' ∉ name.toList

theorem isName_iff {name : String} :
    IsName name ↔ name.toList ≠ [] ∧ IsTrimmed name.toList ∧ '\n' ∉ name.toList :=
  ⟨fun h => ⟨h.nonempty, h.trimmed, h.oneLine⟩, fun h => ⟨h.1, h.2.1, h.2.2⟩⟩

instance (name : String) : Decidable (IsName name) := decidable_of_iff _ isName_iff.symm

theorem nonEmpty?_eq_some_iff {name : String} :
    nonEmpty? text = some name ↔ name.toList = text ∧ text ≠ [] := by
  rw [nonEmpty?]
  split
  · next hempty => simp [List.isEmpty_iff.1 hempty]
  · next hne =>
      rw [List.isEmpty_iff] at hne
      constructor
      · intro h
        obtain rfl := Option.some.inj h
        exact ⟨String.toList_ofList, hne⟩
      · rintro ⟨rfl, -⟩
        rw [String.ofList_toList]

/-- What is left of a part of a line is a name, if anything is left. -/
theorem isName_of_nonEmpty? {name : String} (h : nonEmpty? (trim text) = some name)
    (hline : '\n' ∉ text) : IsName name := by
  obtain ⟨hname, hne⟩ := nonEmpty?_eq_some_iff.1 h
  refine ⟨?_, ?_, ?_⟩
  · rwa [hname]
  · rw [hname]
    exact isTrimmed_trim text
  · rw [hname]
    exact fun hmem => hline (mem_of_mem_trim hmem)

/-- A name is what is left of it. -/
theorem IsName.nonEmpty?_trim {name : String} (h : IsName name) :
    nonEmpty? (trim name.toList) = some name := by
  rw [h.trimmed.trim_eq]
  exact nonEmpty?_eq_some_iff.2 ⟨rfl, h.nonempty⟩

/-! ### What opens a line -/

/-- A text at the start of a line opens a name if it opens neither a comment nor a directive. -/
structure OpensName (text : List Char) : Prop where
  /-- There is something to read. -/
  nonempty : text ≠ []
  /-- It opens no comment. -/
  noComment : ¬ "//".toList <+: text
  /-- It opens no directive. -/
  noKeyword : ∀ k : Keyword, firstWord text ≠ k.word.toList

theorem Keyword.ofWord?_eq_none_iff :
    Keyword.ofWord? text = none ↔ ∀ k : Keyword, text ≠ k.word.toList := by
  simp only [Keyword.ofWord?, List.find?_eq_none, decide_eq_true_eq]
  constructor
  · intro h k heq
    exact h k (by cases k <;> decide) heq.symm
  · intro h k _ heq
    exact h k heq.symm

/-- A trimmed text opens what it opens alone, if a blank follows. -/
theorem opensName_append_iff (htrimmed : IsTrimmed text) (hne : text ≠ []) (rest : List Char) :
    OpensName (text ++ ' ' :: rest) ↔ OpensName text := by
  have hcomment : "//".toList <+: text ++ ' ' :: rest ↔ "//".toList <+: text :=
    prefix_append_cons_iff (by decide)
  have hword : firstWord (text ++ ' ' :: rest) = firstWord text :=
    htrimmed.firstWord_append hne (by decide) rest
  constructor
  · intro h
    exact ⟨hne, hcomment.not.1 h.noComment, hword ▸ h.noKeyword⟩
  · intro h
    exact ⟨List.append_ne_nil_of_left_ne_nil hne _, hcomment.not.2 h.noComment,
      hword.symm ▸ h.noKeyword⟩

namespace LineClass

theorem of_opensName (h : OpensName line) :
    of line = (connectorIn? line).elim node edge := by
  have hcomment : ['/', '/'].isPrefixOf line = false := by
    rw [Bool.eq_false_iff]
    exact fun hprefix => h.noComment (List.isPrefixOf_iff_prefix.1 hprefix)
  rw [of, if_neg (by simpa using h.nonempty), if_neg (by simp [hcomment]),
    Keyword.ofWord?_eq_none_iff.2 h.noKeyword]
  cases connectorIn? line <;> rfl

/-- A line that opens no name is blank, a comment or a directive. -/
theorem opensName_of (h : (∃ kind, of line = edge kind) ∨ of line = node) : OpensName line := by
  rw [of] at h
  split at h
  · simp at h
  · next hne =>
      split at h
      · simp at h
      · next hcomment =>
          refine ⟨by simpa using hne, ?_, ?_⟩
          · exact fun hprefix => hcomment (List.isPrefixOf_iff_prefix.2 hprefix)
          · rw [← Keyword.ofWord?_eq_none_iff]
            cases hword : Keyword.ofWord? (firstWord line) with
            | none => rfl
            | some keyword => simp [hword] at h

/-- The line of an edge opens a name, and a connector occurs in it. -/
theorem of_eq_edge_iff {kind : EdgeKind} :
    of line = edge kind ↔ OpensName line ∧ connectorIn? line = some kind := by
  constructor
  · intro h
    have hopens := opensName_of (Or.inl ⟨kind, h⟩)
    rw [of_opensName hopens] at h
    refine ⟨hopens, ?_⟩
    cases hconnector : connectorIn? line with
    | none => rw [hconnector] at h; exact nomatch h
    | some kind' => rw [hconnector] at h; rw [edge.inj h]
  · rintro ⟨hopens, hconnector⟩
    rw [of_opensName hopens, hconnector]
    rfl

/-- The line of a node opens a name, and no connector occurs in it. -/
theorem of_eq_node_iff : of line = node ↔ OpensName line ∧ connectorIn? line = none := by
  constructor
  · intro h
    have hopens := opensName_of (Or.inr h)
    rw [of_opensName hopens] at h
    refine ⟨hopens, ?_⟩
    cases hconnector : connectorIn? line with
    | none => rfl
    | some kind => rw [hconnector] at h; exact nomatch h
  · rintro ⟨hopens, hconnector⟩
    rw [of_opensName hopens, hconnector]
    rfl

end LineClass

/-! ### Edges -/

/-- What comes after the connector of an edge is the target up to the first colon, and the details
after that, if there is one. -/
theorem cutTarget_eq (after : List Char) :
    (match cutAround [':'] after with
      | some (target, details) => (target, edgeDetails details)
      | none => (after, (none, none))) =
    (after.takeWhile (· ≠ ':'),
      ((cutAround [':'] after).map fun cut => edgeDetails cut.2).getD (none, none)) := by
  cases hcolon : cutAround [':'] after with
  | none =>
      rw [takeWhile_of_notMem (cutAround_eq_none_iff.1 hcolon)]
      rfl
  | some cut =>
      rw [takeWhile_of_cutAround hcolon]
      rfl

/-- The line of an edge has the source before its connector, and the target between its connector
and the first colon after that. -/
theorem EdgeStatement.ofLine?_eq_some_iff {kind : EdgeKind} {e : EdgeStatement} :
    EdgeStatement.ofLine? kind line = some e ↔
      ∃ before after, cutAround kind.connector.toList line = some (before, after) ∧
        e.kind = kind ∧ nonEmpty? (trim before) = some e.source ∧
        nonEmpty? (trim (after.takeWhile (· ≠ ':'))) = some e.target ∧
        (e.label, e.color) =
          ((cutAround [':'] after).map fun cut => edgeDetails cut.2).getD (none, none) := by
  simp only [EdgeStatement.ofLine?, Option.bind_eq_bind, Option.bind_eq_some_iff, Option.pure_def,
    Option.some.injEq, Prod.exists]
  constructor
  · rintro ⟨before, after, hcut, source, hsource, target, htarget, rfl⟩
    have hafter := cutTarget_eq after
    refine ⟨before, after, hcut, rfl, hsource, ?_, congrArg Prod.snd hafter⟩
    exact (congrArg (fun parts => nonEmpty? (trim parts.1)) hafter).symm.trans htarget
  · rintro ⟨before, after, hcut, rfl, hsource, htarget, hdetails⟩
    have hafter := cutTarget_eq after
    refine ⟨before, after, hcut, e.source, hsource, e.target, ?_, ?_⟩
    · exact (congrArg (fun parts => nonEmpty? (trim parts.1)) hafter).trans htarget
    · obtain ⟨kind, source, target, label, color⟩ := e
      obtain ⟨rfl, rfl⟩ := Prod.mk.inj (hdetails.trans (congrArg Prod.snd hafter).symm)
      rfl

/-! ### Nodes -/

@[simp] theorem NodeStatement.name_withProperty (n : NodeStatement) (key value : List Char) :
    (n.withProperty key value).name = n.name := by
  simp only [withProperty]
  repeat' split
  all_goals rfl

/-- A property changes the icon to its value, or leaves it. -/
theorem NodeStatement.icon_withProperty (n : NodeStatement) (key value : List Char) :
    (n.withProperty key value).icon = n.icon ∨
      (n.withProperty key value).icon = nonEmpty? value := by
  simp only [withProperty]
  split
  · exact .inr rfl
  · refine .inl ?_
    repeat' split
    all_goals rfl

/-- A declaration with further properties, one after the other. -/
def NodeStatement.withProperties (n : NodeStatement) (given : List (List Char × List Char)) :
    NodeStatement :=
  given.foldl (fun n property => n.withProperty property.1 property.2) n

@[simp] theorem NodeStatement.name_withProperties (n : NodeStatement)
    (given : List (List Char × List Char)) : (n.withProperties given).name = n.name := by
  refine List.foldlRecOn (motive := fun n' : NodeStatement => n'.name = n.name) _ _ rfl ?_
  intro n' hn' property _
  exact (name_withProperty n' property.1 property.2).trans hn'

/-- The icon of a declaration is the value of a property, if the properties change it. -/
theorem NodeStatement.icon_withProperties (n : NodeStatement)
    (given : List (List Char × List Char)) :
    (n.withProperties given).icon = n.icon ∨
      ∃ property ∈ given, (n.withProperties given).icon = nonEmpty? property.2 := by
  refine List.foldlRecOn (motive := fun n' : NodeStatement =>
    n'.icon = n.icon ∨ ∃ property ∈ given, n'.icon = nonEmpty? property.2) _ _ (.inl rfl) ?_
  intro n' hn' property hproperty
  rcases n'.icon_withProperty property.1 property.2 with heq | heq
  · rwa [heq]
  · exact .inr ⟨property, hproperty, heq⟩

/-- The text between the brackets of a line, from the first one that opens to the last one that
closes. -/
def blockOf (line : List Char) : List Char :=
  (beforeLast ']' ((line.dropWhile (· ≠ '[')).drop 1)).getD []

/-- The line of a node has the name before its first bracket, and the properties between its
brackets. -/
theorem NodeStatement.ofLine?_eq_some_iff {n : NodeStatement} :
    NodeStatement.ofLine? line = some n ↔
      ∃ name, nonEmpty? (trim (line.takeWhile (· ≠ '['))) = some name ∧
        n = NodeStatement.withProperties { name } (properties (blockOf line)) := by
  simp only [NodeStatement.ofLine?, Option.bind_eq_bind, Option.bind_eq_some_iff, Option.pure_def,
    Option.some.injEq]
  exact exists_congr fun name => and_congr_right fun _ => eq_comm

theorem NodeStatement.name_of_ofLine? {n : NodeStatement}
    (h : NodeStatement.ofLine? line = some n) :
    nonEmpty? (trim (line.takeWhile (· ≠ '['))) = some n.name := by
  obtain ⟨name, hname, rfl⟩ := ofLine?_eq_some_iff.1 h
  rw [name_withProperties, hname]

/-! ### Statements -/

namespace Statement

/-- A line says an edge if it is the line of an edge of that kind. -/
theorem ofLine?_eq_edge_iff {text : String} {e : EdgeStatement} :
    Statement.ofLine? text = some (.edge e) ↔
      LineClass.of (trim text.toList) = .edge e.kind ∧
        EdgeStatement.ofLine? e.kind (trim text.toList) = some e := by
  simp only [Statement.ofLine?]
  cases LineClass.of (trim text.toList) with
  | blank => simp [ofClass?]
  | comment => simp [ofClass?]
  | directive keyword => simp [ofClass?]
  | node => simp [ofClass?]
  | edge kind =>
      simp only [ofClass?, Option.map_eq_some_iff, edge.injEq, exists_eq_right,
        LineClass.edge.injEq]
      constructor
      · intro h
        obtain ⟨_, _, -, rfl, -⟩ := EdgeStatement.ofLine?_eq_some_iff.1 h
        exact ⟨rfl, h⟩
      · rintro ⟨rfl, h⟩
        exact h

/-- A line says a node if it is the line of a node. -/
theorem ofLine?_eq_node_iff {text : String} {n : NodeStatement} :
    Statement.ofLine? text = some (.node n) ↔
      LineClass.of (trim text.toList) = .node ∧
        NodeStatement.ofLine? (trim text.toList) = some n := by
  simp only [Statement.ofLine?]
  cases LineClass.of (trim text.toList) with
  | node => simp [ofClass?]
  | _ => simp [ofClass?]

/-- **A line mentions names.** -/
theorem isName_of_mem_names {text : String} {statement : Statement}
    (h : Statement.ofLine? text = some statement) (hline : '\n' ∉ text.toList) {name : String}
    (hname : name ∈ statement.names) : IsName name := by
  have htrim : '\n' ∉ trim text.toList := fun hmem => hline (mem_of_mem_trim hmem)
  cases statement with
  | directive directive => exact absurd hname List.not_mem_nil
  | edge e =>
      obtain ⟨-, h⟩ := ofLine?_eq_edge_iff.1 h
      obtain ⟨before, after, hcut, -, hsource, htarget, -⟩ :=
        EdgeStatement.ofLine?_eq_some_iff.1 h
      have happend := append_of_cutAround hcut
      rw [← happend, List.mem_append, List.mem_append, not_or, not_or] at htrim
      obtain ⟨⟨hbefore, -⟩, hafter⟩ := htrim
      rcases List.mem_cons.1 hname with rfl | hname
      · exact isName_of_nonEmpty? hsource hbefore
      · obtain rfl := List.mem_singleton.1 hname
        exact isName_of_nonEmpty? htarget fun hmem =>
          hafter ((List.takeWhile_sublist _).subset hmem)
  | node n =>
      obtain ⟨-, h⟩ := ofLine?_eq_node_iff.1 h
      obtain rfl := List.mem_singleton.1 hname
      exact isName_of_nonEmpty? (NodeStatement.name_of_ofLine? h) fun hmem =>
        htrim ((List.takeWhile_sublist _).subset hmem)

end Statement

end TextDiagram
