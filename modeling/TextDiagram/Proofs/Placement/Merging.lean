/-
**No answer of a service breaks a diagram.**

The entries of an answer are taken over one after the other: an entry with an unknown id, or with a
position that is not finite, does nothing.  As the ids of an answer are distinct, each node meets at
most one entry, and so the order of the entries does not matter: taking them over comes to the same
as asking the answer for every node.

With that, placing a diagram gives one position to each of its nodes, whatever the service answers.

Main definitions:

* `TextDiagram.overwritten` — the positions with one entry of an answer taken over.

Main results:

* `TextDiagram.foldl_overwritten` — taking over all entries of an answer is merging with it;
* `TextDiagram.merged_ok_eq_of_perm` — the order of an answer does not matter;
* `TextDiagram.Placing.positions?_of_onGrid?` — **placing a diagram gives one position to every
  node**: that of the service where it has a finite one, and that on the grid otherwise.
-/

import TextDiagram.Placement.Position
import TextDiagram.Proofs.Diagram.Placement
import TextDiagram.Proofs.Placement.Coverage

set_option relaxedAutoImplicit false
set_option autoImplicit false

namespace TextDiagram

variable {base placed placed' : Catalog (Point Float32)} {id : Id}

/-! ### Entry by entry -/

/-- The positions with one entry of an answer taken over: it replaces the position of its id, if
there is one and the new one is finite. -/
def overwritten (positions : Catalog (Point Float32)) (entry : Id × Point Float32) :
    Catalog (Point Float32) :=
  if entry.2.isFinite then positions.modify entry.1 fun _ => entry.2 else positions

/-- To take over one entry is to replace each position on its own. -/
theorem overwritten_eq_map (positions : Catalog (Point Float32)) (entry : Id × Point Float32) :
    overwritten positions entry = positions.map fun id position =>
      if id = entry.1 ∧ entry.2.isFinite = true then entry.2 else position := by
  cases hfinite : entry.2.isFinite with
  | false =>
      apply Catalog.ext_entries
      simp [overwritten, hfinite, Catalog.map]
  | true => simp [overwritten, hfinite, Catalog.modify]

/-- What the first entry of an answer leaves of a position, the other entries improve as all entries
do. -/
theorem improved_cons {entry : Id × Point Float32} {rest : List (Id × Point Float32)}
    (h : ((entry :: rest).map Prod.fst).Nodup) (position : Point Float32) :
    improved ⟨rest, (List.nodup_cons.1 h).2⟩ id
        (if id = entry.1 ∧ entry.2.isFinite = true then entry.2 else position) =
      improved ⟨entry :: rest, h⟩ id position := by
  obtain ⟨key, better⟩ := entry
  by_cases hid : id = key
  · -- no other entry has this id
    subst hid
    have hnone : rest.lookup id = none := by
      refine (Catalog.get?_eq_none_iff (c := ⟨rest, (List.nodup_cons.1 h).2⟩)).2 ?_
      exact (List.nodup_cons.1 h).1
    simp [improved, Catalog.get?, hnone]
  · have hid' : (id == key) = false := by simpa using hid
    simp [improved, Catalog.get?, List.lookup_cons, hid, hid']

/-- **Taking over all entries of an answer**, one after the other, is merging with it. -/
theorem foldl_overwritten : ∀ {entries : List (Id × Point Float32)}
    (h : (entries.map Prod.fst).Nodup) (base : Catalog (Point Float32)),
    entries.foldl overwritten base = merged base (.ok ⟨entries, h⟩) := by
  intro entries
  induction entries with
  | nil =>
      intro h base
      apply Catalog.ext_entries
      simp [merged, Catalog.map, improved, Catalog.get?]
  | cons entry rest ih =>
      intro h base
      rw [List.foldl_cons, ih (List.nodup_cons.1 h).2, overwritten_eq_map, merged,
        Catalog.map_map, merged]
      exact Catalog.map_congr fun id position _ => improved_cons h position

/-- The order of the entries of an answer does not matter. -/
theorem merged_ok_eq_of_perm (h : placed.entries.Perm placed'.entries) :
    merged base (.ok placed) = merged base (.ok placed') := by
  simp only [merged]
  refine Catalog.map_congr ?_
  intro id position _
  rw [improved, improved, Catalog.get?_eq_of_perm h]

/-! ### Node by node -/

/-- A position with what an answer has for it: the finite position of the answer, if it has one. -/
theorem get?_merged_ok_of_mem (h : id ∈ base.ids) :
    (merged base (.ok placed)).get? id =
      ((placed.get? id).filter Point.isFinite).or (base.get? id) := by
  obtain ⟨position, hposition⟩ := Catalog.mem_ids_iff.1 h
  rw [get?_merged_ok, hposition, Option.map_some]
  rcases exists_isFinite_or_forall placed id with ⟨better, hbetter, hfinite⟩ | hnone
  · rw [improved_of_isFinite hbetter hfinite, hbetter, Option.filter_some, hfinite]
    rfl
  · have hfilter : (placed.get? id).filter Point.isFinite = none := by
      rw [Option.filter_eq_none_iff]
      intro better hbetter
      rw [hnone better hbetter]
      decide
    rw [improved_of_forall_not_isFinite hnone, hfilter, Option.none_or]

/-! ### Diagrams -/

/-- The grid sees each node of a diagram under its id. -/
@[simp] theorem map_id_nodesOf (d : Diagram Float32) :
    (Grid.nodesOf d).map Grid.Node.id = d.nodes.ids := by
  simp only [Grid.nodesOf, List.map_map, Catalog.ids]
  rfl

/-- The grid has a position for each node of a diagram, and no other. -/
theorem Placing.ids_onGrid?_perm {p : Placing} {d : Diagram Float32} (h : p.onGrid? d = some base) :
    base.ids.Perm d.nodes.ids := by
  have hnodup : ((Grid.nodesOf d).map Grid.Node.id).Nodup := by
    rw [map_id_nodesOf]
    exact d.nodes.nodup_ids
  have hperm := Grid.ids_positions?_perm hnodup h
  rwa [map_id_nodesOf] at hperm

/-- **Placing a diagram gives one position to every node**, and to no other id, whatever the service
answers, if the grid has an end.  The grid engine keeps the positions on the grid.  The layered one
keeps them as well if the service fails; otherwise a node sits where the service has a finite
position for it, and on the grid if it has none; and this is what comes of taking over the entries
of the answer one by one, in any order. -/
theorem Placing.positions?_of_onGrid? (p : Placing) (service : LayoutService) (d : Diagram Float32)
    (h : p.onGrid? d = some base) :
    ∃ positions, p.positions? service d = some positions ∧
      positions.ids.Nodup ∧ positions.ids.Perm d.nodes.ids ∧
      { p with engine := .grid }.positions? service d = some base ∧
      (p.engine = .grid → positions = base) ∧
      (p.engine = .layered →
        (∀ error, service (LayoutRequest.ofDiagram p.layered d) = .error error →
          positions = base) ∧
        ∀ placed, service (LayoutRequest.ofDiagram p.layered d) = .ok placed →
          (∀ id ∈ d.nodes.ids, positions.get? id =
            ((placed.get? id).filter Point.isFinite).or (base.get? id)) ∧
          ∀ entries : List (Id × Point Float32), entries.Perm placed.entries →
            entries.foldl overwritten base = positions) := by
  have hids := Placing.ids_onGrid?_perm h
  have hgrid : { p with engine := .grid }.positions? service d = some base := by
    simp only [Placing.positions?, Placing.onGrid?] at h ⊢
    rw [h, Option.map_some]
  cases hengine : p.engine with
  | grid =>
      refine ⟨base, ?_, base.nodup_ids, hids, hgrid, fun _ => rfl, ?_⟩
      · rw [Placing.positions?, h, Option.map_some, hengine]
      · intro hother
        cases hother
  | layered =>
      let result := service (LayoutRequest.ofDiagram p.layered d)
      refine ⟨merged base result, ?_, Catalog.nodup_ids _, ?_, hgrid, ?_, fun _ => ⟨?_, ?_⟩⟩
      · rw [Placing.positions?, h, Option.map_some, hengine]
      · rwa [merged_ids]
      · intro hother
        cases hother
      · intro error herror
        simp only [result, herror, merged_error]
      · intro placed hplaced
        simp only [result, hplaced]
        refine ⟨fun id hid => get?_merged_ok_of_mem (hids.mem_iff.2 hid), ?_⟩
        intro entries hperm
        have hdistinct : (entries.map Prod.fst).Nodup :=
          (hperm.map Prod.fst).nodup_iff.2 placed.distinct
        rw [foldl_overwritten hdistinct]
        exact merged_ok_eq_of_perm hperm

/-- Three nodes that were neither measured nor placed. -/
def triple : Diagram Float32 where
  nodes :=
    let n : Diagram.Node Float32 :=
      { kind := .default, position := .origin, size := .zero, label := "", origin := .diagram }
    .ofList [("A", n), ("B", n), ("C", n)]

/-- An answer with a finite place for one node, none for another one, an infinite place for a third,
and a place for a node that there is not. -/
def crooked : Catalog (Point Float32) :=
  .ofList [("D", ⟨9, 9⟩), ("B", ⟨Float32.ofBits 0x7F800000, 0⟩), ("A", ⟨1, 2⟩)]

/-- Of a crooked answer one place is taken over, and the other nodes stay on the grid. -/
theorem positions?_of_crooked : ∃ base positions,
    ({ engine := .layered } : Placing).onGrid? triple = some base ∧
      ({ engine := .layered } : Placing).positions? (fun _ => .ok crooked) triple =
        some positions ∧
      positions.ids.Perm ["A", "B", "C"] ∧
      positions.get? "A" = some ⟨1, 2⟩ ∧ positions.get? "B" = some ⟨250, 50⟩ ∧
      positions.get? "C" = some ⟨50, 250⟩ := by
  have hgrid : (({ engine := .layered } : Placing).onGrid? triple).any fun base =>
      base.get? "B" = some ⟨250, 50⟩ ∧ base.get? "C" = some ⟨50, 250⟩ := by
    decide +kernel
  obtain ⟨base, hbase, hat⟩ := (Option.any_eq_true _ _).1 hgrid
  obtain ⟨hB, hC⟩ := of_decide_eq_true hat
  obtain ⟨positions, hpositions, -, hids, -, -, hlayered⟩ :=
    Placing.positions?_of_onGrid? { engine := .layered } (fun _ => .ok crooked) triple hbase
  obtain ⟨hget, -⟩ := (hlayered rfl).2 crooked rfl
  refine ⟨base, positions, hbase, hpositions, hids, ?_, ?_, ?_⟩
  · rw [hget "A" (by decide)]
    have : ((crooked.get? "A").filter Point.isFinite) = some ⟨1, 2⟩ := by decide +kernel
    rw [this, Option.some_or]
  · rw [hget "B" (by decide), hB]
    have : ((crooked.get? "B").filter Point.isFinite) = none := by decide +kernel
    rw [this, Option.none_or]
  · rw [hget "C" (by decide), hC]
    have : ((crooked.get? "C").filter Point.isFinite) = none := by decide +kernel
    rw [this, Option.none_or]

end TextDiagram
