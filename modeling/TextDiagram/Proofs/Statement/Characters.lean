/-
**Statements have the characters of their text.**

A name, a label or an icon is a part of the line that it stands on, without the blanks around it, or
two such parts put together.  So it has no characters that the text does not have.  What is generated
from names has their characters, too, besides plain ones.

Main definitions:

* `TextDiagram.Statement.HasChars` — the names, the label and the icon of a statement have only
  characters that are allowed.

Main results:

* `TextDiagram.Statement.hasChars_of_ofLine?` — a statement has the characters of its line;
* `TextDiagram.hasChars_of_mem_statements` — **and with it those of the text**;
* `TextDiagram.Id.hasOnly_edge`, `TextDiagram.Id.hasOnly_primedUntilFree` — generated ids have the
  characters of the names that they are made from.
-/

import TextDiagram.Document.Reader
import TextDiagram.Proofs.Identifier
import TextDiagram.Proofs.Statement.Name
import TextDiagram.Proofs.Text.Characters

set_option relaxedAutoImplicit false
set_option autoImplicit false

namespace TextDiagram

open Text

variable {allowed : Char → Prop} {text : List Char}

/-! ### Parts of statements -/

theorem forall_mem_trim (h : ∀ c ∈ text, allowed c) : ∀ c ∈ trim text, allowed c :=
  fun c hc => h c (mem_of_mem_trim hc)

/-- A part of a statement has the characters of its text. -/
theorem hasOnly_of_nonEmpty? (h : ∀ c ∈ text, allowed c) {part : String}
    (hpart : nonEmpty? text = some part) : HasOnly allowed part := by
  rw [nonEmpty?] at hpart
  split at hpart
  · cases hpart
  · obtain rfl := Option.some.inj hpart
    rwa [hasOnly_ofList]

/-- Properties have the characters of their block. -/
theorem forall_mem_of_mem_properties (h : ∀ c ∈ text, allowed c) {p : List Char × List Char}
    (hp : p ∈ properties text) : ∀ c ∈ p.2, allowed c := by
  obtain ⟨entry, hentry, hpair⟩ := List.mem_filterMap.1 hp
  obtain ⟨⟨key, value⟩, hcut, rfl⟩ := Option.map_eq_some_iff.1 hpair
  have hvalue : ∀ c ∈ value, allowed c := by
    intro c hc
    exact h c (mem_of_mem_pieces hentry (mem_of_mem_cutAround hcut (.inr hc)))
  exact forall_mem_trim hvalue

/-! ### Statements -/

/-- The names, the label and the icon of a statement have only characters that are allowed. -/
def Statement.HasChars (allowed : Char → Prop) : Statement → Prop
  | directive _ => True
  | edge e => HasOnly allowed e.source ∧ HasOnly allowed e.target ∧
      ∀ label, e.label = some label → HasOnly allowed label
  | node n => HasOnly allowed n.name ∧ ∀ icon, n.icon = some icon → HasOnly allowed icon

theorem Statement.HasChars.hasOnly_of_mem_names {statement : Statement}
    (h : statement.HasChars allowed) {name : Id} (hname : name ∈ statement.names) :
    HasOnly allowed name := by
  cases statement with
  | directive x => exact absurd hname List.not_mem_nil
  | edge e =>
      rcases List.mem_cons.1 hname with rfl | hname
      · exact h.1
      · rw [List.mem_singleton.1 hname]
        exact h.2.1
  | node n =>
      rw [List.mem_singleton.1 hname]
      exact h.1

/-- The label of an edge has the characters of the text after its colon. -/
theorem hasOnly_edgeDetails (h : ∀ c ∈ text, allowed c) {label : String}
    (hlabel : (edgeDetails text).1 = some label) : HasOnly allowed label := by
  simp only [edgeDetails] at hlabel
  split at hlabel
  · exact hasOnly_of_nonEmpty? (forall_mem_trim h) hlabel
  · next before inside after hblock =>
      obtain ⟨⟨start, rest⟩, hopen, hblock⟩ := Option.bind_eq_some_iff.1 hblock
      obtain ⟨⟨block, finish⟩, hclose, heq⟩ := Option.map_eq_some_iff.1 hblock
      obtain ⟨rfl, rfl, rfl⟩ : start = before ∧ block = inside ∧ finish = after := by
        simpa using heq
      refine hasOnly_of_nonEmpty? (forall_mem_trim fun c hc => h c ?_) hlabel
      rcases List.mem_append.1 hc with hc | hc
      · exact mem_of_mem_cutAround hopen (.inl hc)
      · exact mem_of_mem_cutAround hopen (.inr (mem_of_mem_cutAround hclose (.inr hc)))

theorem EdgeStatement.hasChars_of_ofLine? (h : ∀ c ∈ text, allowed c) {kind : EdgeKind}
    {e : EdgeStatement} (he : EdgeStatement.ofLine? kind text = some e) :
    (Statement.edge e).HasChars allowed := by
  obtain ⟨before, after, hcut, -, hsource, htarget, hdetails⟩ :=
    EdgeStatement.ofLine?_eq_some_iff.1 he
  have hafter : ∀ c ∈ after, allowed c := fun c hc => h c (mem_of_mem_cutAround hcut (.inr hc))
  refine ⟨?_, ?_, ?_⟩
  · refine hasOnly_of_nonEmpty? (forall_mem_trim fun c hc => h c ?_) hsource
    exact mem_of_mem_cutAround hcut (.inl hc)
  · refine hasOnly_of_nonEmpty? (forall_mem_trim fun c hc => hafter c ?_) htarget
    exact (List.takeWhile_prefix _).subset hc
  · intro label hlabel
    have hlabel := (congrArg Prod.fst hdetails).symm.trans hlabel
    cases hcolon : cutAround [':'] after with
    | none =>
        rw [hcolon] at hlabel
        exact nomatch hlabel
    | some cut =>
        rw [hcolon] at hlabel
        refine hasOnly_edgeDetails (fun c hc => hafter c ?_) hlabel
        exact mem_of_mem_cutAround hcolon (.inr hc)

theorem NodeStatement.hasChars_of_ofLine? (h : ∀ c ∈ text, allowed c) {n : NodeStatement}
    (hn : NodeStatement.ofLine? text = some n) : (Statement.node n).HasChars allowed := by
  refine ⟨?_, ?_⟩
  · refine hasOnly_of_nonEmpty? (forall_mem_trim fun c hc => h c ?_) (name_of_ofLine? hn)
    exact (List.takeWhile_prefix _).subset hc
  · obtain ⟨name, -, rfl⟩ := ofLine?_eq_some_iff.1 hn
    have hblock : ∀ c ∈ blockOf text, allowed c := by
      intro c hc
      rw [blockOf] at hc
      cases hlast : beforeLast ']' ((text.dropWhile (· ≠ '[')).drop 1) with
      | none =>
          rw [hlast] at hc
          exact absurd hc List.not_mem_nil
      | some block =>
          rw [hlast] at hc
          have hmem := List.mem_of_mem_drop (mem_of_mem_beforeLast hlast hc)
          exact h c ((List.dropWhile_suffix _).subset hmem)
    intro icon hicon
    rcases icon_withProperties { name } (properties (blockOf text)) with heq | ⟨p, hp, heq⟩
    · exact nomatch heq.symm.trans hicon
    · exact hasOnly_of_nonEmpty? (forall_mem_of_mem_properties hblock hp) (heq.symm.trans hicon)

/-- A statement has the characters of its line. -/
theorem Statement.hasChars_of_ofLine? {line : String} (h : HasOnly allowed line)
    {statement : Statement} (hstatement : Statement.ofLine? line = some statement) :
    statement.HasChars allowed := by
  have htrim := forall_mem_trim h
  cases statement with
  | directive x => trivial
  | edge e => exact EdgeStatement.hasChars_of_ofLine? htrim (ofLine?_eq_edge_iff.1 hstatement).2
  | node n => exact NodeStatement.hasChars_of_ofLine? htrim (ofLine?_eq_node_iff.1 hstatement).2

/-- **The statements of a text have the characters of the text.** -/
theorem hasChars_of_mem_statements {source : String} (h : HasOnly allowed source)
    {p : Nat × Statement} (hp : p ∈ statements source) : p.2.HasChars allowed := by
  obtain ⟨line, hline, hsaid⟩ := List.mem_filterMap.1 hp
  obtain ⟨statement, hstatement, rfl⟩ := Option.map_eq_some_iff.1 hsaid
  exact Statement.hasChars_of_ofLine? (hasOnly_of_mem_numberedLines h hline) hstatement

/-! ### Generated ids -/

namespace Id

/-- The id of an edge has the characters of the names that it is made from. -/
theorem hasOnly_edge (hallowed : ∀ c, isPlain c = true → allowed c) {source target : Id}
    (hsource : HasOnly allowed source) (htarget : HasOnly allowed target) (line : Nat) :
    HasOnly allowed (edge source target line) := by
  have hplain : ∀ text, IsPlain text → HasOnly allowed text := fun _ h => h.hasOnly hallowed
  simpa [edge] using ⟨⟨⟨⟨⟨hplain "edge_" (by decide), hsource⟩, hplain "_" (by decide)⟩, htarget⟩,
    hplain "_" (by decide)⟩, hplain (toString line) (isPlain_toString line)⟩

/-- Priming adds nothing but primes. -/
theorem hasOnly_primedUntilFree (hprime : allowed '\'') {candidate : Id}
    (h : HasOnly allowed candidate) {reserved : List Id} :
    HasOnly allowed (primedUntilFree reserved candidate) := by
  obtain ⟨k, hk⟩ := exists_primedUntilFree_eq reserved candidate
  rw [hk]
  intro c hc
  rw [toList_iterate_primed, List.mem_append] at hc
  rcases hc with hc | hc
  · exact h c hc
  · rwa [List.eq_of_mem_replicate hc]

end Id

end TextDiagram
