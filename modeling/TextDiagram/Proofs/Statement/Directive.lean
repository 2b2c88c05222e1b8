/-
**The word of a directive.**

A line is a directive by its first word, and a word ends at the first blank, of whatever kind.  The
word that gives the value is looked for behind spaces and tabs only.  So a keyword and a word with
some other blank between them are still a directive, but one without a value, as if its word were
not in the vocabulary.

Main definitions:

* `TextDiagram.Directive.unset` — the directive of a keyword without a value.

Main results:

* `TextDiagram.LineClass.of_keyword` — a keyword and a blank open a directive;
* `TextDiagram.directiveWord_of_separators`, `TextDiagram.directiveWord_of_other_blank` — the word
  behind a keyword;
* `TextDiagram.Statement.ofLine?_directive_iff` — **when the word of a directive gives its value**.
-/

import TextDiagram.Proofs.Statement.Name

set_option relaxedAutoImplicit false
set_option autoImplicit false

namespace TextDiagram

open Text

/-- The directive of a keyword without a value. -/
def Directive.unset : Keyword → Directive
  | .direction => .direction none
  | .colorMode => .colorMode none
  | .styleMode => .styleMode none
  | .typeface => .typeface none

variable {k : Keyword} {blanks word rest : List Char} {c : Char}

/-! ### Keywords -/

/-- Without a word there is no value. -/
theorem Directive.ofWord_empty (k : Keyword) : Directive.ofWord k "" = Directive.unset k := by
  cases k <;> decide

theorem Keyword.toList_word_ne_nil (k : Keyword) : k.word.toList ≠ [] := by
  cases k <;> decide

theorem Keyword.isTrimmed_word (k : Keyword) : IsTrimmed k.word.toList := by
  cases k <;> decide

/-- A keyword is the first word of its line, if a blank follows. -/
theorem Keyword.firstWord_word_append (k : Keyword) (hc : isBlank c = true) (after : List Char) :
    firstWord (k.word.toList ++ c :: after) = k.word.toList := by
  rw [k.isTrimmed_word.firstWord_append k.toList_word_ne_nil hc]
  cases k <;> decide

/-- **A keyword and a blank open a directive.** -/
theorem LineClass.of_keyword (k : Keyword) (hc : isBlank c = true) (after : List Char) :
    LineClass.of (k.word.toList ++ c :: after) = .directive k := by
  have hcomment : ['/', '/'].isPrefixOf (k.word.toList ++ c :: after) = false := by
    cases k <;> rfl
  have hword : Keyword.ofWord? k.word.toList = some k := by cases k <;> decide
  rw [LineClass.of, if_neg (by simp), if_neg (by simp [hcomment]), k.firstWord_word_append hc,
    hword]

/-! ### The word behind a keyword -/

/-- Spaces and tabs are blanks. -/
theorem isBlank_of_isSeparator (h : c = ' ' ∨ c = '\t') : isBlank c = true := by
  rcases h with rfl | rfl <;> decide

/-- Behind spaces and tabs the word is read up to the next blank. -/
theorem directiveWord_of_separators (hblanks : ∀ c ∈ blanks, c = ' ' ∨ c = '\t')
    (hword : ∀ c ∈ word, isBlank c = false) (hne : word ≠ [])
    (hrest : ∀ c, rest.head? = some c → isBlank c = true) :
    directiveWord (blanks ++ (word ++ rest)) = word := by
  have hskip : (blanks ++ (word ++ rest)).dropWhile (fun c => c = ' ' || c = '\t') =
      word ++ rest := by
    refine dropWhile_append_of_head (by simpa using hblanks) ?_
    intro c hc
    rw [List.head?_append_of_ne_nil _ hne] at hc
    have hc' : isBlank c = false := hword c (List.mem_of_mem_head? hc)
    simpa using fun hseparator => (isBlank_of_isSeparator hseparator).symm.trans hc'
  rw [directiveWord, hskip]
  exact takeWhile_append_of_head (by simpa using hword) (by simpa using hrest)

/-- Behind another blank there is no word. -/
theorem directiveWord_of_other_blank (hblanks : ∀ c ∈ blanks, isBlank c = true)
    (hother : ¬ ∀ c ∈ blanks, c = ' ' ∨ c = '\t') (after : List Char) :
    directiveWord (blanks ++ after) = [] := by
  induction blanks with
  | nil => exact absurd (List.forall_mem_nil _) hother
  | cons c blanks ih =>
      rw [List.forall_mem_cons] at hblanks hother
      rw [directiveWord, List.cons_append, List.dropWhile_cons]
      split
      · next hc =>
          -- a space or a tab is skipped, so that the other blank is still to come
          have hother' : ¬ ∀ c ∈ blanks, c = ' ' ∨ c = '\t' := fun hall =>
            hother ⟨by simpa using hc, hall⟩
          exact ih hblanks.2 hother'
      · rw [List.takeWhile_cons_of_neg (by simp [hblanks.1])]

/-! ### The line of a directive -/

namespace Statement

variable {blanks word rest : String}

/-- A keyword, blanks and a word are the line of a directive, whatever the blanks are and whatever
follows behind a further blank. -/
theorem ofLine?_keyword (k : Keyword) (hblanks : ∀ c ∈ blanks.toList, isBlank c = true)
    (hblanks_ne : blanks.toList ≠ []) (hword : ∀ c ∈ word.toList, isBlank c = false)
    (hword_ne : word.toList ≠ []) :
    Statement.ofLine? (k.word ++ blanks ++ word ++ rest) =
      some (.directive (Directive.ofWord k (String.ofList
        (directiveWord (blanks.toList ++ (word.toList ++ trimEnd rest.toList)))))) := by
  have hstart : IsTrimmed (k.word.toList ++ (blanks.toList ++ word.toList)) :=
    k.isTrimmed_word.append (isTrimmed_of_forall hword) k.toList_word_ne_nil hword_ne _
  have htrim : trim (k.word ++ blanks ++ word ++ rest).toList =
      k.word.toList ++ (blanks.toList ++ (word.toList ++ trimEnd rest.toList)) := by
    have hline := hstart.trim_append (by simp [k.toList_word_ne_nil]) rest.toList
    simpa using hline
  obtain ⟨c, others, hothers⟩ := List.exists_cons_of_ne_nil hblanks_ne
  have hc : isBlank c = true := hblanks c (hothers ▸ List.mem_cons_self)
  have hclass : LineClass.of
      (k.word.toList ++ (blanks.toList ++ (word.toList ++ trimEnd rest.toList))) =
        .directive k := by
    rw [hothers, List.cons_append]
    exact LineClass.of_keyword k hc _
  simp only [Statement.ofLine?, htrim, hclass, Statement.ofClass?, List.drop_left]

/-- **The word of a directive gives its value if and only if only spaces and tabs stand before
it**, or it is no word of the vocabulary.  Behind other blanks the directive has no value. -/
theorem ofLine?_directive_iff (k : Keyword)
    (hblanks : ∀ c ∈ blanks.toList, isBlank c = true) (hblanks_ne : blanks.toList ≠ [])
    (hword : ∀ c ∈ word.toList, isBlank c = false) (hword_ne : word.toList ≠ [])
    (hrest : ∀ c, rest.toList.head? = some c → isBlank c = true) :
    (Statement.ofLine? (k.word ++ blanks ++ word ++ rest) =
        some (.directive (Directive.ofWord k word)) ↔
      (∀ c ∈ blanks.toList, c = ' ' ∨ c = '\t') ∨ Directive.ofWord k word = Directive.unset k) ∧
    ((¬ ∀ c ∈ blanks.toList, c = ' ' ∨ c = '\t') →
      Statement.ofLine? (k.word ++ blanks ++ word ++ rest) =
        some (.directive (Directive.unset k))) := by
  have hrest' : ∀ c, (trimEnd rest.toList).head? = some c → isBlank c = true := by
    intro c hc
    obtain ⟨ending, hending⟩ := trimEnd_prefix_self rest.toList
    refine hrest c ?_
    rw [← hending, List.head?_append, hc, Option.some_or]
  rw [ofLine?_keyword k hblanks hblanks_ne hword hword_ne]
  by_cases hseparators : ∀ c ∈ blanks.toList, c = ' ' ∨ c = '\t'
  · have hread := directiveWord_of_separators hseparators hword hword_ne hrest'
    rw [hread, String.ofList_toList]
    exact ⟨iff_of_true rfl (.inl hseparators), fun hother => absurd hseparators hother⟩
  · have hread := directiveWord_of_other_blank hblanks hseparators
      (word.toList ++ trimEnd rest.toList)
    have hempty : String.ofList [] = "" := rfl
    rw [hread, hempty, Directive.ofWord_empty]
    refine ⟨?_, fun _ => rfl⟩
    rw [or_iff_right hseparators, Option.some_inj, directive.injEq]
    exact eq_comm

/-- A tab and a space before a direction, and a comment after it. -/
theorem ofLine?_directive_of_tab :
    (∀ c ∈ "\t ".toList, isBlank c = true) ∧ (∀ c ∈ "down".toList, isBlank c = false) ∧
      (∀ c, " // flow".toList.head? = some c → isBlank c = true) ∧
      Statement.ofLine? "direction\t down // flow" =
        some (.directive (.direction (some .down))) := by
  have hblanks : ∀ c ∈ "\t ".toList, isBlank c = true := List.all_eq_true.1 (by decide)
  have hseparators : ∀ c ∈ "\t ".toList, c = ' ' ∨ c = '\t' := by simp
  have hword : ∀ c ∈ "down".toList, isBlank c = false := isBlank_of_any_eq_false (by decide)
  have hrest : ∀ c, " // flow".toList.head? = some c → isBlank c = true := by
    intro c hc
    obtain rfl : ' ' = c := Option.some.inj hc
    decide
  have hread := (ofLine?_directive_iff .direction hblanks (by decide) hword (by decide) hrest).1.2
    (.inl hseparators)
  exact ⟨hblanks, hword, hrest, hread⟩

/-- A no-break space ends the keyword, but the word behind it is not read. -/
theorem ofLine?_directive_of_no_break_space :
    isBlank '\u00a0' = true ∧ '\u00a0' ≠ '\n' ∧ (∀ c ∈ "down".toList, isBlank c = false) ∧
      Directive.ofWord .direction "down" = .direction (some .down) ∧
      Statement.ofLine? "direction\u00a0down" = some (.directive (.direction none)) := by
  refine ⟨by decide, by decide, isBlank_of_any_eq_false (by decide), by decide, ?_⟩
  decide

end Statement

end TextDiagram
