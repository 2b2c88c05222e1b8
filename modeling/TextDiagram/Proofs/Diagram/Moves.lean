/-
**Placing nodes one by one.**

To place nodes all at once comes to the same as to move them one by one, in whatever order.  A move
of an unknown node, or to a place that is not finite, is not made, and placing passes over it, too.
Each move that is made draws the routes anew.  Only the last time counts, as the routes are drawn
from the nodes and the edges alone.

Placing draws the routes anew even where no node is moved.  Hence the routes have to be current to
begin with; otherwise the two differ until the routes are drawn anew.

Main definitions:

* `TextDiagram.Diagram.movedAll` — the diagram with nodes moved one by one.

Main results:

* `TextDiagram.Diagram.rerouted_edited_move` — what a move does, whether it is made or not;
* `TextDiagram.Diagram.rerouted_movedAll` — moving one by one, up to the routes;
* `TextDiagram.Diagram.movedAll_eq_placed_of_perm` — **moving one by one is placing all at once**.
-/

import TextDiagram.Proofs.Diagram.Currency
import TextDiagram.Proofs.Diagram.Placement

set_option relaxedAutoImplicit false
set_option autoImplicit false

namespace TextDiagram.Diagram

variable {d : Diagram Float32} {id : Id} {p : Point Float32}

/-! ### Single moves -/

/-- The diagram with nodes moved one by one.  Moves that cannot be made are passed over. -/
def movedAll (d : Diagram Float32) (moves : List (Id × Point Float32)) : Diagram Float32 :=
  moves.foldl (fun d (id, p) => d.edited (.move id p)) d

/-- What a move does, up to the routes: it places the node of its id.  If it is not made, there is
no such node, or the place is not finite. -/
theorem rerouted_edited_move (d : Diagram Float32) (id : Id) (p : Point Float32) :
    (d.edited (.move id p)).rerouted =
      rerouted { d with nodes := d.nodes.modify id fun n => n.placedAt p } := by
  rw [edited, edit?, moved?]
  by_cases hmade : (d.nodes.contains id && p.isFinite) = true
  · have hp := (Bool.and_eq_true_iff.1 hmade).2
    simp only [if_pos hmade, Option.getD_some, rerouted_rerouted, Node.placedAt_of_isFinite hp]
  · rw [if_neg hmade, Option.getD_none, Catalog.modify, Catalog.map_eq_self]
    intro key n hmem
    split
    · next heq =>
        have hknown : d.nodes.contains id = true :=
          Option.isSome_iff_exists.2 ⟨n, heq ▸ Catalog.get?_eq_some_iff.2 hmem⟩
        rw [Node.placedAt, if_neg fun hp => hmade (Bool.and_eq_true_iff.2 ⟨hknown, hp⟩)]
    · rfl

/-- Moves keep current routes current. -/
theorem IsCurrent.edited_move (h : d.IsCurrent) : (d.edited (.move id p)).IsCurrent :=
  (h.edited_iff _).2 fun _ _ heq => nomatch heq

/-! ### Moves one by one -/

/-- To place nodes after one more was moved is to place that one with them. -/
theorem placed_edited_move {rest : List (Id × Point Float32)}
    (hnodup : (((id, p) :: rest).map Prod.fst).Nodup) :
    (d.edited (.move id p)).placed ⟨rest, (List.nodup_cons.1 hnodup).2⟩ =
      d.placed ⟨(id, p) :: rest, hnodup⟩ := by
  obtain ⟨hid, hrest⟩ := List.nodup_cons.1 hnodup
  have hnew : rest.lookup id = none := (Catalog.get?_eq_none_iff (c := ⟨rest, hrest⟩)).2 hid
  have hnodes : ((d.nodes.modify id fun n => n.placedAt p).map fun key n =>
        n.placedBy (rest.lookup key)) =
      d.nodes.map fun key n => n.placedBy (((id, p) :: rest).lookup key) := by
    rw [Catalog.modify, Catalog.map_map]
    refine Catalog.map_congr fun key n _ => ?_
    rw [List.lookup_cons]
    by_cases hkey : key = id
    · subst hkey
      rw [if_pos rfl, hnew, BEq.rfl]
      rfl
    · rw [if_neg hkey, beq_false_of_ne hkey]
  -- placing draws the routes anew, so that it does not matter whether the move did
  have hmove := congrArg (fun moved => moved.placed ⟨rest, hrest⟩) (rerouted_edited_move d id p)
  refine Eq.trans hmove ?_
  exact congrArg (fun nodes => rerouted { d with nodes }) hnodes

/-- Moving nodes one by one is placing them all at once, up to the routes. -/
theorem rerouted_movedAll {moves : List (Id × Point Float32)}
    (hnodup : (moves.map Prod.fst).Nodup) :
    (d.movedAll moves).rerouted = d.placed ⟨moves, hnodup⟩ := by
  induction moves generalizing d with
  | nil =>
      have hnodes : (d.nodes.map fun _ n => n.placedBy none) = d.nodes :=
        Catalog.map_eq_self fun _ _ _ => rfl
      exact (congrArg (fun nodes => rerouted { d with nodes }) hnodes).symm
  | cons move rest ih =>
      obtain ⟨id, p⟩ := move
      rw [movedAll, List.foldl_cons]
      exact (ih _).trans (placed_edited_move hnodup)

theorem IsCurrent.movedAll (h : d.IsCurrent) (moves : List (Id × Point Float32)) :
    (d.movedAll moves).IsCurrent := by
  induction moves generalizing d with
  | nil => exact h
  | cons move rest ih => exact ih h.edited_move

/-- The order in which positions are listed does not matter. -/
theorem placed_congr_of_perm {positions positions' : Catalog (Point Float32)}
    (h : positions.entries.Perm positions'.entries) : d.placed positions = d.placed positions' := by
  simp only [placed, Catalog.get?_eq_of_perm h]

/-- **Moving one by one is placing all at once**, if the routes are current: whatever positions the
nodes are given, unknown nodes and places that are not finite among them, and in whatever order they
are moved.  So the moves of different nodes commute. -/
theorem movedAll_eq_placed_of_perm (hcurrent : d.IsCurrent) :
    (∀ positions moves, moves.Perm positions.entries → d.movedAll moves = d.placed positions) ∧
    ∀ id p id' p', id ≠ id' →
      (d.edited (.move id p)).edited (.move id' p') =
        (d.edited (.move id' p')).edited (.move id p) := by
  have hall : ∀ positions moves, moves.Perm positions.entries →
      d.movedAll moves = d.placed positions := by
    intro positions moves hperm
    have hnodup := (hperm.map Prod.fst).nodup_iff.2 positions.distinct
    rw [← (hcurrent.movedAll moves).rerouted_eq, rerouted_movedAll hnodup]
    exact placed_congr_of_perm hperm
  refine ⟨hall, fun id p id' p' hne => ?_⟩
  have hnodup : ([(id, p), (id', p')].map Prod.fst).Nodup := by simpa using hne
  exact (hall ⟨_, hnodup⟩ _ .rfl).trans (hall ⟨_, hnodup⟩ _ (.swap ..)).symm

/-- Places for one of two nodes and for an unknown one, and a place for the other node that is not
finite. -/
def scattered : Catalog (Point Float32) :=
  .ofList [("A", ⟨10, 20⟩), ("X", ⟨0, 0⟩), ("B", ⟨0 / 0, 0⟩)]

/-- Backwards or all at once, one node is moved and the other one stays. -/
theorem movedAll_reverse_eq_placed_scattered :
    (run linking).IsCurrent ∧ scattered.entries.reverse.Perm scattered.entries ∧
      (run linking).movedAll scattered.entries.reverse = (run linking).placed scattered ∧
      ((run linking).placed scattered).positions.entries = [("A", ⟨10, 20⟩), ("B", ⟨300, 0⟩)] := by
  have hcurrent : (run linking).IsCurrent := rfl
  have hperm := List.reverse_perm scattered.entries
  exact ⟨hcurrent, hperm, (movedAll_eq_placed_of_perm hcurrent).1 _ _ hperm, by decide +kernel⟩

end TextDiagram.Diagram
