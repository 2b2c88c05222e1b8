/-
**When an edge is read back.**

An edge is written as its source, its connector and its target.  A colon opens what else there is to
say of it, the label and after that the color in brackets.  Nothing is quoted or escaped, but the
marks that end a part may stand in the parts after it: a label may hold colons and a color opening
brackets.  An edge whose parts hold none of the marks that end them is read back as it is written,
whatever its kind, and with or without a label and a color.

Main definitions:

* `TextDiagram.EdgeStatement.IsWritable` — the edges whose parts hold none of the marks that end
  them;
* `TextDiagram.EdgeStatement.detailText?` — what is written of an edge after its colon;
* `TextDiagram.IsDetail` — the texts after a colon that say a label and a color.

Main results:

* `TextDiagram.edgeDetails_of_notMem`, `TextDiagram.edgeDetails_append_color` — the details of an
  edge without and with a color;
* `TextDiagram.EdgeStatement.isDetail_of_detailText?` — the label and the color are read back;
* `TextDiagram.Statement.ofLine?_edgeLine` — **an edge is read back as it is written**.
-/

import TextDiagram.Proofs.Statement.Property

set_option relaxedAutoImplicit false
set_option autoImplicit false

namespace TextDiagram

open Text

/-! ### Edges as they are written -/

/-- The texts that can stand after the colon of an edge, as its label. -/
structure IsLabel (label : String) : Prop where
  /-- There is something to read. -/
  nonempty : label.toList ≠ []
  /-- There are no blanks at the ends. -/
  trimmed : IsTrimmed label.toList
  /-- It holds no bracket, which would open the color. -/
  noBracket : '[' ∉ label.toList
  /-- It holds no connector. -/
  unconnected : IsUnconnected label.toList

/-- The texts that can stand in the brackets of an edge, as its color. -/
structure IsColorText (color : String) : Prop where
  /-- There are no blanks at the ends. -/
  trimmed : IsTrimmed color.toList
  /-- It holds no comma, which would end the property. -/
  noComma : ',' ∉ color.toList
  /-- It holds no bracket, which would close the brackets. -/
  noBracket : ']' ∉ color.toList
  /-- It holds no connector. -/
  unconnected : IsUnconnected color.toList

namespace EdgeStatement

/-- The edges whose parts hold none of the marks that end them. -/
structure IsWritable (e : EdgeStatement) : Prop where
  /-- The source is a name. -/
  source : IsName e.source
  /-- It opens neither a comment nor a directive. -/
  opens : OpensName e.source.toList
  /-- It holds no connector. -/
  sourceUnconnected : IsUnconnected e.source.toList
  /-- The target is a name. -/
  target : IsName e.target
  /-- It holds no colon, which would open the label. -/
  noColon : ':' ∉ e.target.toList
  /-- It holds no connector. -/
  targetUnconnected : IsUnconnected e.target.toList
  /-- The label can stand after the colon, if there is one. -/
  label : ∀ label, e.label = some label → IsLabel label
  /-- The color can stand in brackets, if there is one. -/
  color : ∀ color, e.color = some color → IsColorText color

/-- What is written of an edge after its colon, if it has a label or a color. -/
def detailText? (e : EdgeStatement) : Option String :=
  match e.label, e.color with
  | none, none => none
  | some label, none => some label
  | none, some color => some (propertyBlock [("color", color)])
  | some label, some color => some (label ++ " " ++ propertyBlock [("color", color)])

/-- The colon and what is written after it. -/
def tail (e : EdgeStatement) : List Char :=
  match e.detailText? with
  | none => []
  | some text => ':' :: ' ' :: text.toList

variable {e : EdgeStatement}

/-- The line of an edge has its connector between its source and its target. -/
theorem toList_line (e : EdgeStatement) :
    e.line.toList =
      e.source.toList ++ ' ' :: (e.kind.connector.toList ++ ' ' :: (e.target.toList ++ e.tail)) := by
  obtain ⟨kind, source, target, label, color⟩ := e
  cases label with
  | none => cases color <;> simp [line, tail, detailText?, toString]
  | some label => cases color <;> simp [line, tail, detailText?, toString]

end EdgeStatement

/-! ### The details of an edge -/

variable {e : EdgeStatement} {label color : String} {before : List Char}

theorem toList_propertyBlock_color (color : String) :
    (propertyBlock [("color", color)]).toList =
      '[' :: ((propertyText "color" color).toList ++ [']']) := by
  simp [propertyBlock]

/-- Details without a bracket are a label. -/
theorem edgeDetails_of_notMem (h : '[' ∉ before) :
    edgeDetails before = (nonEmpty? (trim before), none) := by
  simp only [edgeDetails, cutAround_eq_none_iff.2 h, Option.bind_none]

theorem IsColorText.isProperty (h : IsColorText color) : IsProperty "color" color where
  keyTrimmed := by decide
  valueTrimmed := h.trimmed
  noColon := by decide
  keyNoComma := by decide
  valueNoComma := h.noComma

/-- The color in brackets after a label is taken off it. -/
theorem edgeDetails_append_color (hbefore : '[' ∉ before) (hcolor : IsColorText color) :
    edgeDetails (before ++ (propertyBlock [("color", color)]).toList) =
      (nonEmpty? (trim before), some color) := by
  have hinside : ']' ∉ (propertyText "color" color).toList := by
    simp [toList_propertyText, hcolor.noBracket]
  simp [edgeDetails, toList_propertyBlock_color, cutAround_append_cons hbefore,
    cutAround_append_cons hinside, properties_propertyText hcolor.isProperty]

/-- A text after the colon of an edge that says a label and a color, if there are any. -/
structure IsDetail (text : List Char) (label color : Option String) : Prop where
  /-- There is something to read. -/
  nonempty : text ≠ []
  /-- There are no blanks at the ends. -/
  trimmed : IsTrimmed text
  /-- It holds no connector. -/
  unconnected : IsUnconnected text
  /-- It says the label and the color. -/
  read : edgeDetails (' ' :: text) = (label, color)

theorem IsLabel.nonEmpty?_trim (h : IsLabel label) :
    nonEmpty? (trim (' ' :: label.toList)) = some label := by
  rw [trim_cons (by decide), h.trimmed.trim_eq]
  exact nonEmpty?_eq_some_iff.2 ⟨rfl, h.nonempty⟩

theorem IsLabel.isDetail (h : IsLabel label) : IsDetail label.toList (some label) none where
  nonempty := h.nonempty
  trimmed := h.trimmed
  unconnected := h.unconnected
  read := by
    have hbracket : '[' ∉ ' ' :: label.toList := by simpa using h.noBracket
    rw [edgeDetails_of_notMem hbracket, h.nonEmpty?_trim]

theorem IsColorText.isUnconnected_block (h : IsColorText color) :
    IsUnconnected (propertyBlock [("color", color)]).toList := by
  have hcolor : IsUnconnected (propertyText "color" color).toList :=
    isUnconnected_propertyText (by decide) h.unconnected
  rw [toList_propertyBlock_color, isUnconnected_cons, isUnconnected_append]
  exact ⟨by decide, hcolor, by decide⟩

theorem IsColorText.isDetail (h : IsColorText color) :
    IsDetail (propertyBlock [("color", color)]).toList none (some color) where
  nonempty := by simp [toList_propertyBlock_color]
  trimmed := by
    have hopen : IsTrimmed ['['] := by decide
    have hclose : IsTrimmed [']'] := by decide
    rw [toList_propertyBlock_color]
    exact hopen.append hclose (by decide) (by decide) _
  unconnected := h.isUnconnected_block
  read := by
    have hbracket : '[' ∉ [' '] := by decide
    exact edgeDetails_append_color hbracket h

theorem IsLabel.isDetail_color (hlabel : IsLabel label) (hcolor : IsColorText color) :
    IsDetail (label ++ " " ++ propertyBlock [("color", color)]).toList (some label)
      (some color) where
  nonempty := by simp
  trimmed := by
    have hblock := hcolor.isDetail
    rw [String.toList_append, String.toList_append, List.append_assoc]
    exact hlabel.trimmed.append hblock.trimmed hlabel.nonempty hblock.nonempty _
  unconnected := by
    rw [String.toList_append, String.toList_append, isUnconnected_append, isUnconnected_append]
    exact ⟨⟨hlabel.unconnected, by decide⟩, hcolor.isUnconnected_block⟩
  read := by
    have hbracket : '[' ∉ ' ' :: label.toList ++ [' '] := by simpa using hlabel.noBracket
    have hread := edgeDetails_append_color hbracket hcolor
    rw [trim_concat (by decide), hlabel.nonEmpty?_trim] at hread
    simpa using hread

namespace EdgeStatement

/-- **The label and the color are read back** from what is written after the colon. -/
theorem isDetail_of_detailText? (h : e.IsWritable) {text : String}
    (htext : e.detailText? = some text) : IsDetail text.toList e.label e.color := by
  obtain ⟨kind, source, target, label, color⟩ := e
  cases label with
  | none =>
      cases color with
      | none => exact nomatch htext
      | some color =>
          obtain rfl := Option.some.inj htext
          exact (h.color color rfl).isDetail
  | some label =>
      cases color with
      | none =>
          obtain rfl := Option.some.inj htext
          exact (h.label label rfl).isDetail
      | some color =>
          obtain rfl := Option.some.inj htext
          exact (h.label label rfl).isDetail_color (h.color color rfl)

theorem detailText?_eq_none_iff : e.detailText? = none ↔ e.label = none ∧ e.color = none := by
  obtain ⟨kind, source, target, label, color⟩ := e
  cases label <;> cases color <;> simp [detailText?]

/-! ### The line of an edge -/

/-- The target and what follows it are the end of the line, and hold no connector. -/
theorem target_tail (h : e.IsWritable) : e.target.toList ++ e.tail ≠ [] ∧
    IsTrimmed (e.target.toList ++ e.tail) ∧ IsUnconnected (e.target.toList ++ e.tail) := by
  refine ⟨List.append_ne_nil_of_left_ne_nil h.target.nonempty _, ?_⟩
  rw [tail, isUnconnected_append]
  cases htext : e.detailText? with
  | none =>
      rw [List.append_nil]
      exact ⟨h.target.trimmed, h.targetUnconnected, by decide⟩
  | some text =>
      have hdetail := isDetail_of_detailText? h htext
      refine ⟨h.target.trimmed.append hdetail.trimmed h.target.nonempty hdetail.nonempty
        [':', ' '], h.targetUnconnected, ?_⟩
      rw [isUnconnected_cons, isUnconnected_cons]
      exact ⟨by decide, by decide, hdetail.unconnected⟩

/-- The line of an edge has no blanks at its ends. -/
theorem trim_line (h : e.IsWritable) : trim e.line.toList = e.line.toList := by
  obtain ⟨hne, htrimmed, -⟩ := target_tail h
  have hline : e.line.toList = e.source.toList ++
      ((' ' :: (e.kind.connector.toList ++ [' '])) ++ (e.target.toList ++ e.tail)) := by
    rw [toList_line, List.cons_append, ← List.append_cons]
  rw [hline]
  exact (h.source.trimmed.append htrimmed h.source.nonempty hne _).trim_eq

/-- The line of an edge is classified by the connector of the edge. -/
theorem lineClass_line (h : e.IsWritable) : LineClass.of e.line.toList = .edge e.kind := by
  obtain ⟨-, -, hunconnected⟩ := target_tail h
  rw [LineClass.of_eq_edge_iff, toList_line,
    opensName_append_iff h.source.trimmed h.source.nonempty]
  exact ⟨h.opens, connectorIn?_between h.sourceUnconnected hunconnected e.kind⟩

/-- What follows the connector is the target, and after a colon the label and the color. -/
theorem cutTarget_tail (h : e.IsWritable) :
    (' ' :: (e.target.toList ++ e.tail)).takeWhile (· ≠ ':') = ' ' :: e.target.toList ∧
      (e.label, e.color) = ((cutAround [':'] (' ' :: (e.target.toList ++ e.tail))).map
        fun cut => edgeDetails cut.2).getD (none, none) := by
  have hcolon : ':' ∉ ' ' :: e.target.toList := by simpa using h.noColon
  rw [tail]
  cases htext : e.detailText? with
  | none =>
      obtain ⟨hlabel, hcolor⟩ := detailText?_eq_none_iff.1 htext
      rw [List.append_nil, takeWhile_of_notMem hcolon, cutAround_eq_none_iff.2 hcolon, hlabel,
        hcolor]
      exact ⟨rfl, rfl⟩
  | some text =>
      have hcut := cutAround_append_cons hcolon (' ' :: text.toList)
      rw [List.cons_append] at hcut
      rw [takeWhile_of_cutAround hcut, hcut, Option.map_some, Option.getD_some,
        (isDetail_of_detailText? h htext).read]
      exact ⟨rfl, rfl⟩

/-- The parts of the edge are read from its line. -/
theorem ofLine?_line (h : e.IsWritable) :
    EdgeStatement.ofLine? e.kind e.line.toList = some e := by
  have hcut := cutAround_between h.sourceUnconnected e.kind (' ' :: (e.target.toList ++ e.tail))
  obtain ⟨htarget, hdetails⟩ := cutTarget_tail h
  rw [EdgeStatement.ofLine?_eq_some_iff, toList_line]
  refine ⟨_, _, hcut, rfl, ?_, ?_, hdetails⟩
  · rw [trim_concat (by decide)]
    exact h.source.nonEmpty?_trim
  · rw [htarget, trim_cons (by decide)]
    exact h.target.nonEmpty?_trim

end EdgeStatement

/-- **An edge is read back as it is written**, with its kind, its ends, its label and its color. -/
theorem Statement.ofLine?_edgeLine (h : e.IsWritable) :
    Statement.ofLine? e.line = some (.edge e) := by
  rw [Statement.ofLine?_eq_edge_iff, EdgeStatement.trim_line h]
  exact ⟨EdgeStatement.lineClass_line h, EdgeStatement.ofLine?_line h⟩

/-- An edge with brackets and colons in all of its parts. -/
theorem Statement.ofLine?_edgeLine_of_marks :
    let e : EdgeStatement :=
      { kind := .dashedArrow, source := "Api: v1 [x]", target := "Queue [y]"
        label := some "a: b]", color := some "rgb(0 0 [0)" }
    e.IsWritable ∧
      Statement.ofLine? "Api: v1 [x] --> Queue [y]: a: b] [color: rgb(0 0 [0)]" =
        some (.edge e) := by
  intro e
  have hopens : OpensName e.source.toList :=
    ⟨by decide, by decide, by intro k; cases k <;> decide⟩
  have hwritable : e.IsWritable :=
    { source := by decide, opens := hopens, sourceUnconnected := by decide
      target := by decide, noColon := by decide, targetUnconnected := by decide
      label := by
        intro label hlabel
        obtain rfl := Option.some.inj hlabel
        exact ⟨by decide, by decide, by decide, by decide⟩
      color := by
        intro color hcolor
        obtain rfl := Option.some.inj hcolor
        exact ⟨by decide, by decide, by decide, by decide⟩ }
  have hline : e.line = "Api: v1 [x] --> Queue [y]: a: b] [color: rgb(0 0 [0)]" := by decide
  rw [← hline]
  exact ⟨hwritable, Statement.ofLine?_edgeLine hwritable⟩

end TextDiagram
