/-
**What becomes of added nodes in the text.**

An added node gets an id that no node and no edge of the diagram has, and a name made of the same
number.  The text is given the name alone, and nobody asks whether the text has that name already.
If it has, the line of the added node is one more mention of the node that is there; otherwise the
line declares a node of the same name and kind.

Main definitions:

* `TextDiagram.Session.addAll` — nodes and groups are added one after the other;
* `TextDiagram.Session.Adds` — what additions do to the diagram, the text and the counter.

Main results:

* `TextDiagram.Session.IsCoherent.adds_add`, `TextDiagram.Session.IsCoherent.exists_adds` — the step
  and the run of additions;
* `TextDiagram.Session.Reachable.nodes_ofText_addAll` — **what becomes of added nodes in the text**.
-/

import TextDiagram.Proofs.Diagram.Label
import TextDiagram.Proofs.Document.Nodes
import TextDiagram.Proofs.Session.Coherence
import TextDiagram.Proofs.Session.Event
import TextDiagram.Proofs.Session.Line

set_option relaxedAutoImplicit false
set_option autoImplicit false

namespace TextDiagram

open Diagram (Node)

/-! ### Additions -/

theorem Id.endNumber_countedName (word : String) (n : Nat) :
    Id.endNumber (countedName word n) = n :=
  Id.endNumber_eq_of_toList word.toList ' ' (by decide) (toList_countedName word n)

namespace Session

/-- The session after an addition. -/
def add (s : Session) (x : Addition) : Session := (s.onDiagram x.drawing.event .diagram).2

/-- The session after additions, one after the other. -/
def addAll (s : Session) (xs : List Addition) : Session := xs.foldl add s

variable {s s' s'' : Session}

/-- What an addition does to a session that adds lines to its text. -/
theorem exists_add_eq (hphase : s.phase = .idle)
    (hregenerate : s.configuration.regenerateText = true) (x : Addition) :
    ∃ n : Node Float32, n.kind = x.kind ∧
      n.label = countedName x.kind.word (s.allotted x).1.number ∧
      s.add x = { s with
        counter := (s.allotted x).2
        diagram := s.diagram.withNode (s.allotted x).1.id n
        text := withLine s.text (declarationLine n.label n.isGroup)
        echo := some (withLine s.text (declarationLine n.label n.isGroup))
        phase := .idle
        identity := (s.diagram.withNode (s.allotted x).1.id n).identity
        lastOrigin := some .diagram } := by
  obtain ⟨n, hkind, -, -, hlabel, happly⟩ :=
    exists_applyEvent_addition { s with phase := .applyingDiagram } x
  refine ⟨n, hkind, hlabel, ?_⟩
  rw [add, onDiagram_event hphase, onEdit_of_drawnBy hregenerate happly]
  rfl

/-- The statement that declares an added node. -/
def declaration (entry : Id × Node Float32) : NodeStatement where
  name := entry.2.label
  isGroup := entry.2.isGroup

/-- What additions do: nodes come in at the end of the diagram, their declarations at the end of the
text, and the counter moves past the numbers of their names. -/
structure Adds (s s' : Session) (added : List (Id × Node Float32)) : Prop where
  /-- The nodes come in at the end. -/
  entries : s'.diagram.nodes.entries = s.diagram.nodes.entries ++ added
  /-- The text declares them at its end. -/
  declared : ∃ given : List (Nat × NodeStatement), given.map Prod.snd = added.map declaration ∧
    statements s'.text = statements s.text ++ given.map fun p => (p.1, Statement.node p.2)
  /-- The counter does not go back. -/
  counter : s.counter.next ≤ s'.counter.next
  /-- The counter moves past the numbers of the names. -/
  counted : ∀ e ∈ added, s.counter.next ≤ Id.endNumber e.2.label ∧
    Id.endNumber e.2.label < s'.counter.next
  /-- The numbers of the names grow. -/
  growing : (added.map fun e => Id.endNumber e.2.label).Pairwise (· < ·)

namespace Adds

theorem nothing (s : Session) : Adds s s [] where
  entries := (List.append_nil _).symm
  declared := ⟨[], rfl, (List.append_nil _).symm⟩
  counter := Nat.le_refl _
  counted := fun _ h => absurd h List.not_mem_nil
  growing := List.Pairwise.nil

/-- Additions after additions are additions. -/
theorem trans {added added' : List (Id × Node Float32)} (h : Adds s s' added)
    (h' : Adds s' s'' added') : Adds s s'' (added ++ added') where
  entries := by rw [h'.entries, h.entries, List.append_assoc]
  declared := by
    obtain ⟨given, hgiven, hstatements⟩ := h.declared
    obtain ⟨given', hgiven', hstatements'⟩ := h'.declared
    refine ⟨given ++ given', ?_, ?_⟩
    · rw [List.map_append, List.map_append, hgiven, hgiven']
    · rw [hstatements', hstatements, List.map_append, List.append_assoc]
  counter := Nat.le_trans h.counter h'.counter
  counted := by
    intro e he
    have hcounter := h.counter
    have hcounter' := h'.counter
    rcases List.mem_append.1 he with he | he
    · obtain ⟨hle, hlt⟩ := h.counted e he
      omega
    · obtain ⟨hle, hlt⟩ := h'.counted e he
      omega
  growing := by
    rw [List.map_append, List.pairwise_append]
    refine ⟨h.growing, h'.growing, ?_⟩
    intro n hn n' hn'
    obtain ⟨e, he, rfl⟩ := List.mem_map.1 hn
    obtain ⟨e', he', rfl⟩ := List.mem_map.1 hn'
    exact Nat.lt_of_lt_of_le (h.counted e he).2 (h'.counted e' he').1

/-- No two added nodes have the same name. -/
theorem nodup_labels {added : List (Id × Node Float32)} (h : Adds s s' added) :
    (added.map fun e => e.2.label).Nodup := by
  have hnumbers := h.growing
  rw [List.pairwise_map] at hnumbers
  rw [List.Nodup, List.pairwise_map]
  refine hnumbers.imp ?_
  intro e e' hlt heq
  rw [heq] at hlt
  omega

end Adds

namespace IsCoherent

/-- **An addition** adds one node. -/
theorem adds_add (h : s.IsCoherent) (hregenerate : s.configuration.regenerateText = true)
    (x : Addition) :
    ∃ id n, n.kind = x.kind ∧ Adds s (s.add x) [(id, n)] ∧
      (s.add x).configuration = s.configuration := by
  obtain ⟨n, hkind, hlabel, hadd⟩ := exists_add_eq h.idle hregenerate x
  have hname : StandsAlone n.label := hlabel ▸ x.kind.standsAlone_word.countedName _
  have hnumber : Id.endNumber n.label = (s.allotted x).1.number :=
    hlabel ▸ Id.endNumber_countedName _ _
  have hle : s.counter.next ≤ (s.allotted x).1.number := 
    IdCounter.next_le_number _ _ (Id.numbered_injective x.kind.stem)
  refine ⟨(s.allotted x).1.id, n, hkind, ?_, by rw [hadd]⟩
  rw [hadd]
  refine ⟨Diagram.entries_nodes_withNode (s.allotted_id_notMem x) n, ?_, ?_, ?_, ?_⟩
  · obtain ⟨number, hstatements⟩ :=
      exists_statements_withLine s.text (notMem_declarationLine hname.isName n.isGroup)
    rw [Statement.ofLine?_declarationLine hname] at hstatements
    exact ⟨[(number, declaration ((s.allotted x).1.id, n))], rfl, hstatements⟩
  · exact Nat.le_succ_of_le hle
  · intro e he
    rw [List.mem_singleton.1 he, hnumber]
    exact ⟨hle, Nat.lt_succ_self _⟩
  · exact List.pairwise_singleton _ _

/-- **Additions** add a node each. -/
theorem exists_adds (h : s.IsCoherent) (hregenerate : s.configuration.regenerateText = true)
    (xs : List Addition) :
    ∃ added, Adds s (s.addAll xs) added ∧
      added.map (fun e => e.2.kind) = xs.map Addition.kind := by
  induction xs generalizing s with
  | nil => exact ⟨[], .nothing s, rfl⟩
  | cons x xs ih =>
      obtain ⟨id, n, hkind, hadds, hconfiguration⟩ := h.adds_add hregenerate x
      have hcoherent : (s.add x).IsCoherent := h.onDiagram x.drawing.event .diagram
      obtain ⟨added, hrest, hkinds⟩ := ih hcoherent (hconfiguration ▸ hregenerate)
      refine ⟨(id, n) :: added, hadds.trans hrest, ?_⟩
      rw [List.map_cons, hkind, hkinds, List.map_cons]

end IsCoherent

/-! ### The text after additions -/

/-- The nodes that declarations of added nodes make are those whose names are new. -/
theorem map_declared_filter {added : List (Id × Node Float32)} {given : List (Nat × NodeStatement)}
    (hgiven : given.map Prod.snd = added.map declaration) (r : Roster) (ids : List Id) :
    ((given.filter fun p => p.2.name ∉ ids).map fun p => r.declared p.1 p.2).map
        (fun n => (n.label, n.isGroup)) =
      (added.filter fun e => e.2.label ∉ ids).map fun e => (e.2.label, e.2.isGroup) := by
  have hfilter := congrArg
    (fun l => (l.filter fun n => n.name ∉ ids).map fun n => (n.name, n.isGroup)) hgiven
  simp only [List.filter_map, List.map_map, Function.comp_def] at hfilter ⊢
  exact hfilter

/-- **What becomes of added nodes in the text.**  The text makes the nodes that it made before, and
then those of the added nodes whose names it did not have; so it makes all added nodes if and only
if it had none of their names. -/
theorem Reachable.nodes_ofText_addAll {configuration : Configuration}
    (h : Reachable configuration s) (hregenerate : s.configuration.regenerateText = true)
    {text : String} {report : Report} (htext : s.onText? text = some (report, s'))
    (xs : List Addition) :
    ∃ d added d' read,
      Document.ofText text = .ok d ∧
      (s'.addAll xs).diagram.nodes.entries = s'.diagram.nodes.entries ++ added ∧
      added.map (fun e => e.2.kind) = xs.map Addition.kind ∧
      Document.ofText (s'.addAll xs).text = .ok d' ∧
      d'.nodes = d.nodes ++ read ∧
      read.map (fun n => (n.label, n.isGroup)) =
        (added.filter fun e => e.2.label ∉ d.nodes.map Document.Node.id).map
          (fun e => (e.2.label, e.2.isGroup)) ∧
      (read.map (fun n => (n.label, n.isGroup)) = added.map (fun e => (e.2.label, e.2.isGroup)) ↔
        ∀ e ∈ added, e.2.label ∉ d.nodes.map Document.Node.id) := by
  obtain ⟨rfl, hconfiguration⟩ := h.coherent.text_of_onText? htext
  obtain ⟨added, hadds, hkinds⟩ :=
    (h.coherent.onText htext).exists_adds (hconfiguration ▸ hregenerate) xs
  obtain ⟨given, hgiven, hstatements⟩ := hadds.declared
  obtain ⟨d, hd, -⟩ := Document.exists_isSound s'.text
  obtain ⟨d', hd', -⟩ := Document.exists_isSound (s'.addAll xs).text
  -- the declarations come after all other statements, and no two of them have the same name
  have hnames : given.map (fun p => p.2.name) = added.map fun e => e.2.label := by
    have hnames := congrArg (List.map NodeStatement.name) hgiven
    rw [List.map_map, List.map_map] at hnames
    exact hnames
  have hnodes := Roster.nodes_foldl_apply given
    (r := (statements s'.text).foldl Roster.apply {}) (hnames ▸ hadds.nodup_labels)
  rw [← List.foldl_append, ← hstatements, ← Document.nodes_ofText hd,
    ← Document.nodes_ofText hd'] at hnodes
  have hread := map_declared_filter hgiven ((statements s'.text).foldl Roster.apply {})
    (d.nodes.map Document.Node.id)
  refine ⟨d, added, d', _, hd, hadds.entries, hkinds, hd', hnodes, hread, ?_⟩
  rw [hread]
  constructor
  · intro hall e he
    -- as many are kept as there are, so all are kept
    have hlength := congrArg List.length hall
    rw [List.length_map, List.length_map, List.length_filter_eq_length_iff] at hlength
    exact of_decide_eq_true (hlength e he)
  · intro hnew
    rw [List.filter_eq_self.2 fun e he => decide_eq_true (hnew e he)]

/-- A node and a group are added to a text that has neither of their names. -/
theorem nodes_ofText_addAll_of_new_names :
    let xs : List Addition := [⟨.default, ⟨0, 0⟩⟩, ⟨.group, ⟨300, 0⟩⟩]
    ∃ report s d added d' read,
      (start { regenerateText := true }).onText? "A" = some (report, s) ∧
      Document.ofText "A" = .ok d ∧
      (s.addAll xs).diagram.nodes.entries = s.diagram.nodes.entries ++ added ∧
      Document.ofText (s.addAll xs).text = .ok d' ∧ d'.nodes = d.nodes ++ read ∧
      read.map (fun n => (n.label, n.isGroup)) = added.map (fun e => (e.2.label, e.2.isGroup)) := by
  intro xs
  have hany : ((start { regenerateText := true }).onText? "A").any (fun result =>
      (Document.ofText "A").toOption.any fun d =>
        decide (∀ e ∈ (result.2.addAll xs).diagram.nodes.entries.drop
          result.2.diagram.nodes.entries.length, e.2.label ∉ d.nodes.map Document.Node.id)) =
        true := by
    decide +kernel
  obtain ⟨⟨report, s⟩, htext, hnew⟩ := (Option.any_eq_true _ _).1 hany
  obtain ⟨d, added, d', read, hd, hentries, -, hd', hnodes, -, hiff⟩ :=
    Reachable.start.nodes_ofText_addAll rfl htext xs
  refine ⟨report, s, d, added, d', read, htext, hd, hentries, hd', hnodes, hiff.2 ?_⟩
  dsimp only at hnew
  rw [hd, hentries, List.drop_left] at hnew
  exact of_decide_eq_true hnew

/-- A node is added to a text that has its name: then the diagram has two nodes of that name, and
the text makes one. -/
theorem nodes_ofText_add_of_old_name :
    ∃ report s d d', (start { regenerateText := true }).onText? "Asset 1" = some (report, s) ∧
      Document.ofText "Asset 1" = .ok d ∧
      (s.addAll [⟨.default, ⟨0, 0⟩⟩]).diagram.labels = ["Asset 1", "Asset 1"] ∧
      Document.ofText (s.addAll [⟨.default, ⟨0, 0⟩⟩]).text = .ok d' ∧
      ¬ ∃ n, d'.nodes = d.nodes ++ [n] := by
  have hany : ((start { regenerateText := true }).onText? "Asset 1").any (fun result =>
      (Document.ofText "Asset 1").toOption.any fun d =>
        (Document.ofText (result.2.addAll [⟨.default, ⟨0, 0⟩⟩]).text).toOption.any fun d' =>
          decide ((result.2.addAll [⟨.default, ⟨0, 0⟩⟩]).diagram.labels =
            ["Asset 1", "Asset 1"] ∧ d'.nodes = d.nodes)) = true := by
    decide +kernel
  obtain ⟨⟨report, s⟩, htext, hsame⟩ := (Option.any_eq_true _ _).1 hany
  obtain ⟨d, hd, -⟩ := Document.exists_isSound "Asset 1"
  obtain ⟨d', hd', -⟩ := Document.exists_isSound (s.addAll [⟨.default, ⟨0, 0⟩⟩]).text
  dsimp only at hsame
  rw [hd, hd'] at hsame
  obtain ⟨hlabels, hnodes⟩ := of_decide_eq_true hsame
  refine ⟨report, s, d, d', htext, hd, hlabels, hd', ?_⟩
  rintro ⟨n, hn⟩
  rw [hnodes, List.self_eq_append_right] at hn
  exact nomatch hn

end Session

end TextDiagram
