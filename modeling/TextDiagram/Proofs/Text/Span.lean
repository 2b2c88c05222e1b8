/-
**Where lines stand.**

The lines of a text are counted in two ways.  A text is read line by line with the line feeds taken
out; to point at a line, its line feeds are left in, so that the bytes before the line can be
counted.  The second way has no line after a line feed that ends the text.  That is all in which the
two differ: every other line has a span, and the bytes of the span are those of the line.

Main definitions:

* `TextDiagram.Text.above` — what stands above a line;
* `TextDiagram.Text.withoutReturns` — a line without the carriage returns at its end;
* `TextDiagram.Text.Span.IsOf` — a span has the bytes of a line.

Main results:

* `TextDiagram.Text.spanFrom_endedPieces` — the span of a line that is counted with the line feeds
  taken out;
* `TextDiagram.Text.exists_append_of_getElem?_pieces` — a line stands behind those above it;
* `TextDiagram.Text.lineSpan_pointsAtLine` — **spans are those of the lines that are read**.
-/

import TextDiagram.Proofs.Text.Blank
import TextDiagram.Proofs.Text.Cut

set_option relaxedAutoImplicit false
set_option autoImplicit false

namespace TextDiagram.Text

variable {c : Char} {text line : List Char} {number : Nat}

/-! ### Bytes -/

theorem byteLength_eq (text : List Char) : byteLength text = (String.ofList text).utf8ByteSize := by
  induction text with
  | nil => rfl
  | cons c rest ih =>
      rw [byteLength, ih, String.ofList_cons, String.utf8ByteSize_append,
        String.utf8ByteSize_singleton]

theorem byteLength_append (text rest : List Char) :
    byteLength (text ++ rest) = byteLength text + byteLength rest := by
  rw [byteLength_eq, byteLength_eq, byteLength_eq, String.ofList_append, String.utf8ByteSize_append]

/-! ### Pieces with their separators -/

/-- A text without the separator is one piece, if it is not empty. -/
theorem endedPieces_of_notMem (h : c ∉ text) :
    endedPieces c text = if text = [] then [] else [text] := by
  induction text with
  | nil => rfl
  | cons d rest ih =>
      rw [List.mem_cons, not_or] at h
      rw [endedPieces, if_neg (Ne.symm h.1), ih h.2]
      by_cases hrest : rest = []
      · simp [hrest]
      · simp [hrest]

/-- The first separator ends the first piece. -/
theorem endedPieces_append_separator {before : List Char} (h : c ∉ before) (after : List Char) :
    endedPieces c (before ++ c :: after) = (before ++ [c]) :: endedPieces c after := by
  induction before with
  | nil => simp [endedPieces]
  | cons d before ih =>
      rw [List.mem_cons, not_or] at h
      rw [List.cons_append, endedPieces, if_neg (Ne.symm h.1), ih h.2]
      rfl

/-! ### Ends of lines -/

/-- A line without the carriage returns at its end. -/
def withoutReturns (line : String) : String :=
  String.ofList (line.toList.reverse.dropWhile (· = '\r')).reverse

/-- The end of a line has no line feed but the one that is taken out. -/
theorem withoutEnd_of_notMem (h : '\n' ∉ line) :
    withoutEnd line = (line.reverse.dropWhile (· = '\r')).reverse := by
  have hend : ∀ d ∈ line.reverse, (decide (d = '\n') || decide (d = '\r')) = decide (d = '\r') := by
    intro d hd
    have hne : d ≠ '\n' := fun heq => h (heq ▸ List.mem_reverse.1 hd)
    rw [decide_eq_false hne, Bool.false_or]
  have hdrop : ∀ {l : List Char},
      (∀ d ∈ l, (decide (d = '\n') || decide (d = '\r')) = decide (d = '\r')) →
      l.dropWhile (fun d => d = '\n' || d = '\r') = l.dropWhile (· = '\r') := by
    intro l hl
    induction l with
    | nil => rfl
    | cons d l ih =>
        rw [List.dropWhile_cons, List.dropWhile_cons, hl d List.mem_cons_self,
          ih fun e he => hl e (List.mem_cons_of_mem d he)]
  rw [withoutEnd, hdrop hend]

theorem withoutEnd_concat (line : List Char) : withoutEnd (line ++ ['\n']) = withoutEnd line := by
  simp [withoutEnd]

/-- The carriage returns at the end of a line are blanks. -/
theorem trimmed_withoutReturns (line : String) : trimmed (withoutReturns line) = trimmed line := by
  have htrim : ∀ line : List Char,
      trim (line.reverse.dropWhile (· = '\r')).reverse = trim line := by
    intro line
    induction line using List.reverseRecOn with
    | nil => rfl
    | append_singleton line c ih =>
        by_cases hc : c = '\r'
        · subst hc
          rw [trim_concat (by decide), ← ih]
          simp
        · simp [hc]
  rw [trimmed, withoutReturns, String.toList_ofList, htrim, trimmed]

/-! ### Lines one after the other -/

/-- A piece stands behind those before it, with a separator behind each of them. -/
theorem exists_append_of_getElem?_pieces (h : (pieces c text)[number]? = some line) :
    ∃ below, text = ((pieces c text).take number).flatMap (· ++ [c]) ++ line ++ below := by
  induction number generalizing text with
  | zero =>
      by_cases hc : c ∈ text
      · obtain ⟨before, after, rfl, hbefore⟩ := List.eq_append_cons_of_mem hc
        rw [pieces_append_separator, pieces_eq_singleton hbefore] at h
        obtain rfl : before = line := by simpa using h
        exact ⟨c :: after, by simp⟩
      · rw [pieces_eq_singleton hc] at h
        obtain rfl : text = line := by simpa using h
        exact ⟨[], by simp⟩
  | succ number ih =>
      by_cases hc : c ∈ text
      · obtain ⟨before, after, rfl, hbefore⟩ := List.eq_append_cons_of_mem hc
        rw [pieces_append_separator, pieces_eq_singleton hbefore] at h ⊢
        obtain ⟨below, hafter⟩ := ih h
        refine ⟨below, ?_⟩
        rw [List.singleton_append, List.take_succ_cons, List.flatMap_cons]
        simpa using hafter
      · rw [pieces_eq_singleton hc] at h
        exact nomatch h

/-- **The span of a line** that is counted with the line feeds taken out: it starts behind the lines
above, each with its line feed.  An empty last line has none. -/
theorem spanFrom_endedPieces (offset : Nat) (text : List Char) (number : Nat) :
    spanFrom offset (endedPieces '\n' text) number =
      ((pieces '\n' text)[number]?).bind fun line =>
        if number + 1 = (pieces '\n' text).length ∧ line = [] then none
        else some ⟨offset + byteLength (((pieces '\n' text).take number).flatMap (· ++ ['\n'])),
          byteLength (line.reverse.dropWhile (· = '\r')).reverse⟩ := by
  induction number generalizing offset text with
  | zero =>
      by_cases hc : '\n' ∈ text
      · obtain ⟨before, after, rfl, hbefore⟩ := List.eq_append_cons_of_mem hc
        rw [endedPieces_append_separator hbefore, pieces_append_separator,
          pieces_eq_singleton hbefore, List.singleton_append, spanFrom, withoutEnd_concat,
          withoutEnd_of_notMem hbefore]
        simp [pieces_ne_nil, byteLength]
      · rw [endedPieces_of_notMem hc, pieces_eq_singleton hc]
        by_cases htext : text = []
        · simp [htext, spanFrom]
        · rw [if_neg htext, spanFrom, withoutEnd_of_notMem hc]
          simp [htext, byteLength]
  | succ number ih =>
      by_cases hc : '\n' ∈ text
      · obtain ⟨before, after, rfl, hbefore⟩ := List.eq_append_cons_of_mem hc
        rw [endedPieces_append_separator hbefore, pieces_append_separator,
          pieces_eq_singleton hbefore, List.singleton_append, spanFrom, ih (offset + _) after,
          List.getElem?_cons_succ, List.take_succ_cons, List.flatMap_cons,
          byteLength_append (before ++ ['\n']), List.length_cons]
        simp only [Nat.add_right_cancel_iff]
        simp only [Nat.add_assoc]
      · have hnone : ∀ pieces : List (List Char), pieces.length ≤ 1 →
            spanFrom offset pieces (number + 1) = none := by
          intro pieces hlength
          match pieces, hlength with
          | [], _ => rfl
          | [piece], _ => rw [spanFrom, spanFrom]
        rw [endedPieces_of_notMem hc, pieces_eq_singleton hc, hnone]
        · rfl
        · split
          · exact Nat.zero_le 1
          · exact Nat.le_refl 1

/-! ### Spans of lines -/

/-- What stands above a line: the lines before it, each with its line feed. -/
def above (text : String) (number : Nat) : String :=
  String.join (((lines text).take number).map (· ++ "\n"))

theorem toList_above (text : String) (number : Nat) : (above text number).toList =
    ((pieces '\n' text.toList).take number).flatMap (· ++ ['\n']) := by
  rw [above, lines, ← List.map_take, List.map_map, String.toList_join, List.flatMap_map]
  simp only [Function.comp_apply, String.toList_append, String.toList_ofList]
  rfl

/-- A span has the bytes of a line: it starts where the line does, it lies inside the text, and its
bytes are those of the line without the carriage returns at its end, which read the same. -/
structure Span.IsOf (span : Span) (text : String) (number : Nat) (line : String) : Prop where
  start : ∃ below, text = above text number ++ line ++ below ∧
    span.offset = (above text number).utf8ByteSize
  inside : span.offset + span.length ≤ text.utf8ByteSize
  bytes : text.toByteArray.extract span.offset (span.offset + span.length) =
    (withoutReturns line).toByteArray
  trimmed_eq : trimmed (withoutReturns line) = trimmed line

/-- A line stands behind what stands above it. -/
theorem exists_eq_above_append {text line : String} (h : (lines text)[number]? = some line) :
    ∃ below, text = above text number ++ line ++ below := by
  rw [lines, List.getElem?_map] at h
  obtain ⟨piece, hpiece, rfl⟩ := Option.map_eq_some_iff.1 h
  obtain ⟨below, htext⟩ := exists_append_of_getElem?_pieces hpiece
  refine ⟨String.ofList below, String.toList_inj.1 ?_⟩
  rw [String.toList_append, String.toList_append, toList_above, String.toList_ofList,
    String.toList_ofList]
  exact htext

/-- What a line has at its end are carriage returns. -/
theorem exists_eq_withoutReturns_append (line : String) :
    ∃ returns, line = withoutReturns line ++ returns := by
  obtain ⟨returns, hreturns⟩ := List.dropWhile_suffix (l := line.toList.reverse) (· = '\r')
  refine ⟨String.ofList returns.reverse, String.toList_inj.1 ?_⟩
  rw [String.toList_append, withoutReturns, String.toList_ofList, String.toList_ofList,
    ← List.reverse_append, hreturns, List.reverse_reverse]

/-- The span of a line: where it starts and how long it is. -/
theorem lineSpan_eq (text : String) (number : Nat) :
    lineSpan text number = ((lines text)[number]?).bind fun line =>
      if number + 1 = (lines text).length ∧ line = "" then none
      else some ⟨(above text number).utf8ByteSize, (withoutReturns line).utf8ByteSize⟩ := by
  have hempty : ∀ piece : List Char, String.ofList piece = "" ↔ piece = [] := by
    intro piece
    rw [← String.toList_inj, String.toList_ofList]
    rfl
  have habove : (above text number).utf8ByteSize =
      byteLength (((pieces '\n' text.toList).take number).flatMap (· ++ ['\n'])) := by
    rw [byteLength_eq, ← toList_above, String.ofList_toList]
  rw [lineSpan, spanFrom_endedPieces, Nat.zero_add, ← habove, lines, List.getElem?_map,
    List.length_map]
  cases (pieces '\n' text.toList)[number]? with
  | none => rfl
  | some line =>
      simp only [Option.map_some, Option.bind_some, hempty, byteLength_eq, withoutReturns,
        String.toList_ofList]

/-- Exactly one span has the bytes of a line. -/
theorem Span.isOf_iff {text line : String} {span : Span} (h : (lines text)[number]? = some line) :
    span.IsOf text number line ↔
      span = ⟨(above text number).utf8ByteSize, (withoutReturns line).utf8ByteSize⟩ := by
  constructor
  · intro hspan
    obtain ⟨-, -, hoffset⟩ := hspan.start
    have hsize := congrArg ByteArray.size hspan.bytes
    have hinside := hspan.inside
    rw [ByteArray.size_extract, String.size_toByteArray, String.size_toByteArray] at hsize
    obtain ⟨offset, length⟩ := span
    simp only at hoffset hsize hinside
    rw [hoffset]
    congr 1
    omega
  · rintro rfl
    obtain ⟨below, htext⟩ := exists_eq_above_append h
    obtain ⟨returns, hline⟩ := exists_eq_withoutReturns_append line
    have hparts : text = above text number ++ (withoutReturns line ++ (returns ++ below)) := by
      rw [← @String.append_assoc (withoutReturns line), ← hline, ← String.append_assoc]
      exact htext
    refine ⟨⟨below, htext, rfl⟩, ?_, ?_, trimmed_withoutReturns line⟩
    · have hsize := congrArg String.utf8ByteSize hparts
      simp only [String.utf8ByteSize_append] at hsize
      simp only
      omega
    · have hbehind := ByteArray.extract_append_size_add (i := 0)
        (j := (withoutReturns line).toByteArray.size) (a := (above text number).toByteArray)
        (b := (withoutReturns line).toByteArray ++ (returns ++ below).toByteArray)
      rw [Nat.add_zero, ByteArray.extract_append_eq_left rfl] at hbehind
      rw [congrArg String.toByteArray hparts, String.toByteArray_append, String.toByteArray_append]
      exact hbehind

/-- **Spans are those of the lines that are read.**  A line has none exactly if the text has no such
line, or the line is the last one and empty; otherwise its span is the one that has its bytes. -/
theorem lineSpan_pointsAtLine (text : String) (number : Nat) :
    (lineSpan text number = none ↔ (lines text)[number]? = none ∨
        number + 1 = (lines text).length ∧ (lines text)[number]? = some "") ∧
      ∀ span, lineSpan text number = some span ↔ ∃ line, (lines text)[number]? = some line ∧
        ¬ (number + 1 = (lines text).length ∧ line = "") ∧ span.IsOf text number line := by
  rw [lineSpan_eq]
  cases hline : (lines text)[number]? with
  | none => simp
  | some line =>
      constructor
      · simp
      · intro span
        rw [Option.bind_some]
        constructor
        · intro h
          split at h
          · exact nomatch h
          · next hpointable =>
              exact ⟨line, rfl, hpointable, (Span.isOf_iff hline).2 (Option.some.inj h).symm⟩
        · rintro ⟨line', hsame, hpointable, hspan⟩
          obtain rfl := Option.some.inj hsame
          rw [if_neg hpointable, (Span.isOf_iff hline).1 hspan]

/-- A character outside of ASCII counts with all its bytes, and so do the carriage returns, although
they are left out of the span. -/
example : lineSpan "é\r\r\nA > Z\r\n\n" 1 = some ⟨5, 5⟩ := by decide

end TextDiagram.Text
