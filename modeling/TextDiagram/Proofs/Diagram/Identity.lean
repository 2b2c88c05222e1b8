/-
**What an identity tells.**

An identity is made of the ids of a diagram in order.  So it forgets how the ids came in, and
nothing else: two diagrams have the same identity exactly when they have the same nodes and the same
edges.

Main definitions:

* `TextDiagram.Diagram.HasIdsOf` — a diagram has the nodes and edges of another one.

Main results:

* `TextDiagram.Diagram.identity_eq_iff` — **the identity tells the nodes and the edges**.
-/

import Mathlib.Data.List.Sort
import Mathlib.Data.String.Basic
import TextDiagram.Proofs.Catalog
import TextDiagram.Diagram.Basic

set_option relaxedAutoImplicit false
set_option autoImplicit false

namespace TextDiagram

/-! ### Ordered ids -/

/-- Ids in order go by size. -/
theorem pairwise_mergeSort_le (l : List Id) :
    (l.mergeSort fun a b => decide (a ≤ b)).Pairwise (· ≤ ·) :=
  List.pairwise_mergeSort' (· ≤ ·) l

/-- Ids in order are the same for the same ids. -/
theorem mergeSort_eq_mergeSort_iff {l l' : List Id} :
    (l.mergeSort fun a b => decide (a ≤ b)) = (l'.mergeSort fun a b => decide (a ≤ b)) ↔
      l.Perm l' := by
  have hperm := fun l : List Id => List.mergeSort_perm l fun a b => decide (a ≤ b)
  constructor
  · intro h
    exact (hperm l).symm.trans (h ▸ hperm l')
  · intro h
    exact List.Perm.eq_of_pairwise (fun _ _ _ _ => le_antisymm) (pairwise_mergeSort_le l)
      (pairwise_mergeSort_le l') ((hperm l).trans (h.trans (hperm l').symm))

theorem Identity.of_eq_of_iff {nodes nodes' edges edges' : List Id} :
    Identity.of nodes edges = Identity.of nodes' edges' ↔
      nodes.Perm nodes' ∧ edges.Perm edges' := by
  rw [Identity.of, Identity.of, Identity.mk.injEq, mergeSort_eq_mergeSort_iff,
    mergeSort_eq_mergeSort_iff]

/-! ### Diagrams -/

namespace Diagram

variable {α : Type}

/-- A diagram has the nodes and the edges of another one, in whatever order. -/
structure HasIdsOf (d d' : Diagram α) : Prop where
  /-- The nodes are the same. -/
  nodes : ∀ id, id ∈ d.nodes.ids ↔ id ∈ d'.nodes.ids
  /-- The edges are the same. -/
  edges : ∀ id, id ∈ d.edges.ids ↔ id ∈ d'.edges.ids

/-- **The identity tells the nodes and the edges**, and nothing else. -/
theorem identity_eq_iff {d d' : Diagram α} : d.identity = d'.identity ↔ d.HasIdsOf d' := by
  rw [identity, identity, Identity.of_eq_of_iff,
    List.perm_ext_iff_of_nodup d.nodes.nodup_ids d'.nodes.nodup_ids,
    List.perm_ext_iff_of_nodup d.edges.nodup_ids d'.edges.nodup_ids]
  exact ⟨fun h => ⟨h.1, h.2⟩, fun h => ⟨h.nodes, h.edges⟩⟩

end Diagram

end TextDiagram
