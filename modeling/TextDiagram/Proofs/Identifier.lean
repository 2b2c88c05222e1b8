/-
**The freshness of generated ids.**

Two kinds of ids are generated: those of lines, which are primed until no node has them, and those
of drawn nodes and edges, which count up until nothing has them.  Both searches are bounded, and
this module shows that the bounds are never felt: a walk that does not repeat itself gets past any
list of taken members within as many steps as the list is long.

Apart from its primes, every generated id ends in a number.  That number can be read back, so ids
generated from different numbers differ, whatever names they are made from.  What stands before the
number can be read back, too; but not where one name ends and the next one begins.

Main definitions:

* `TextDiagram.Id.endNumber` — the number that an id ends in, apart from its primes;
* `TextDiagram.Id.stem`, `TextDiagram.Id.mark` — what stands before that number, and its last
  character;
* `TextDiagram.Id.IsForm` — the forms of the ids that are counted up.

Main results:

* `TextDiagram.firstFree?_isSome` — a walk that does not repeat itself gets free;
* `TextDiagram.Id.primedUntilFree_eq_iff` — **a primed id is the first one that is not reserved**;
* `TextDiagram.Id.primedUntilFree_append_ne_iff` — which further names change it;
* `TextDiagram.Id.endNumber_primedUntilFree` — priming keeps the number;
* `TextDiagram.Id.names_eq_of_primed_edge_eq` — what the id of an edge tells of its ends;
* `TextDiagram.IdCounter.exists_allocate_eq` — **an allocated id is the first one that is not
  taken**.
-/

import Mathlib.Data.List.Nodup
import Mathlib.Order.Bounds.Defs
import TextDiagram.Identifier

set_option relaxedAutoImplicit false
set_option autoImplicit false

namespace TextDiagram

variable {α β : Type}

/-! ### Walks that do not repeat themselves -/

/-- A walk that does not repeat itself gets free: among one more member than there are taken ones,
not all can be taken. -/
theorem firstFree?_isSome [BEq β] [LawfulBEq β] {l : List β} {f : α → β} {next : α → α} {start : α}
    (hinj : Function.Injective fun k => f (iterate next k start)) :
    (firstFree? (fun x => l.contains (f x)) next l.length start).isSome = true := by
  rw [Option.isSome_iff_ne_none]
  intro hnone
  have hall := firstFree?_eq_none_iff.1 hnone
  -- so the members of the walk up to here are distinct, taken, and one too many
  have hsub : (List.range (l.length + 1)).map (fun k => f (iterate next k start)) ⊆ l := by
    intro x hx
    obtain ⟨k, hk, rfl⟩ := List.mem_map.1 hx
    have hk' : k ≤ l.length := Nat.lt_succ_iff.1 (List.mem_range.1 hk)
    simpa using hall k hk'
  have hlen := (List.nodup_range.map hinj).length_le_of_subset hsub
  rw [List.length_map, List.length_range] at hlen
  omega

theorem iterate_add_one (k n : Nat) : iterate (· + 1) k n = n + k := by
  induction k generalizing n with
  | zero => rfl
  | succ k ih => rw [iterate_succ, ih]; omega

namespace Id

/-! ### Primes -/

theorem toList_iterate_primed (k : Nat) (id : Id) :
    (iterate primed k id).toList = id.toList ++ List.replicate k '\'' := by
  induction k generalizing id with
  | zero => simp
  | succ k ih => simp [iterate_succ, ih, primed, List.replicate_succ]

/-- Ids with different numbers of primes differ. -/
theorem iterate_primed_injective (id : Id) : Function.Injective fun k => iterate primed k id := by
  intro j k h
  have hlen := congrArg (fun i : Id => i.toList.length) h
  simp only [toList_iterate_primed, List.length_append, List.length_replicate] at hlen
  omega

/-- **What becomes of a candidate**: the candidate with the least number of primes that makes it
differ from every reserved name. -/
theorem primedUntilFree_eq_iff {reserved : List Id} {candidate id : Id} :
    primedUntilFree reserved candidate = id ↔
      ∃ k, iterate primed k candidate = id ∧ id ∉ reserved ∧
        ∀ j < k, iterate primed j candidate ∈ reserved := by
  have hsome := firstFree?_isSome (l := reserved) (f := fun id : Id => id)
    (iterate_primed_injective candidate)
  obtain ⟨found, hfound⟩ := Option.isSome_iff_exists.1 hsome
  have heq : primedUntilFree reserved candidate = found := by
    rw [primedUntilFree, hfound, Option.getD_some]
  obtain ⟨n, -, hn, hnotTaken, htaken⟩ := firstFree?_eq_some_iff.1 hfound
  have hfree : found ∉ reserved := by simpa using hnotTaken
  have hbelow : ∀ j < n, iterate primed j candidate ∈ reserved := by simpa using htaken
  rw [heq]
  constructor
  · rintro rfl
    exact ⟨n, hn, hfree, hbelow⟩
  · rintro ⟨k, rfl, hk, hbelow'⟩
    -- neither number of primes is below the other one, as the id would be reserved there
    rcases Nat.lt_trichotomy n k with hlt | rfl | hlt
    · exact absurd (hbelow' n hlt) (hn ▸ hfree)
    · exact hn.symm
    · exact absurd (hbelow k hlt) hk

theorem exists_primedUntilFree_eq (reserved : List Id) (candidate : Id) :
    ∃ k, primedUntilFree reserved candidate = iterate primed k candidate := by
  obtain ⟨k, hk, -, -⟩ :=
    primedUntilFree_eq_iff.1 (Eq.refl (primedUntilFree reserved candidate))
  exact ⟨k, hk.symm⟩

/-- **A primed id is not reserved.** -/
theorem primedUntilFree_notMem (reserved : List Id) (candidate : Id) :
    primedUntilFree reserved candidate ∉ reserved := by
  obtain ⟨-, -, hfree, -⟩ :=
    primedUntilFree_eq_iff.1 (Eq.refl (primedUntilFree reserved candidate))
  exact hfree

/-- Further reserved names change what becomes of a candidate exactly if they take it. -/
theorem primedUntilFree_append_ne_iff {reserved more : List Id} {candidate : Id} :
    primedUntilFree (reserved ++ more) candidate ≠ primedUntilFree reserved candidate ↔
      primedUntilFree reserved candidate ∈ more := by
  constructor
  · intro hne
    obtain ⟨k, hk, hfree, hbelow⟩ :=
      primedUntilFree_eq_iff.1 (Eq.refl (primedUntilFree reserved candidate))
    by_contra hmore
    refine hne (primedUntilFree_eq_iff.2 ⟨k, hk, ?_, ?_⟩)
    · rw [List.mem_append, not_or]
      exact ⟨hfree, hmore⟩
    · intro j hj
      exact List.mem_append_left more (hbelow j hj)
  · intro hmore heq
    exact primedUntilFree_notMem (reserved ++ more) candidate
      (heq ▸ List.mem_append_right reserved hmore)

/-! ### The number at the end, and what stands before it -/

/-- The number that an id ends in, apart from its primes. -/
def endNumber (id : Id) : Nat :=
  Nat.ofDigitChars 10
    ((id.toList.reverse.dropWhile (· = '\'')).takeWhile Char.isDigit).reverse 0

@[simp] theorem endNumber_primed (id : Id) : id.primed.endNumber = id.endNumber := by
  simp [endNumber, primed]

@[simp] theorem endNumber_iterate_primed (k : Nat) (id : Id) :
    (iterate primed k id).endNumber = id.endNumber := by
  induction k generalizing id with
  | zero => rfl
  | succ k ih => rw [iterate_succ, ih, endNumber_primed]

/-- Priming keeps the number. -/
@[simp] theorem endNumber_primedUntilFree (reserved : List Id) (candidate : Id) :
    (primedUntilFree reserved candidate).endNumber = candidate.endNumber := by
  obtain ⟨k, hk⟩ := exists_primedUntilFree_eq reserved candidate
  rw [hk, endNumber_iterate_primed]

/-- What stands before the number that an id ends in. -/
def stem (id : Id) : List Char :=
  ((id.toList.reverse.dropWhile (· = '\'')).dropWhile Char.isDigit).reverse

/-- The last character before the number that an id ends in. -/
def mark (id : Id) : Option Char := id.stem.getLast?

@[simp] theorem stem_primed (id : Id) : id.primed.stem = id.stem := by
  simp [stem, primed]

@[simp] theorem stem_iterate_primed (k : Nat) (id : Id) : (iterate primed k id).stem = id.stem := by
  induction k generalizing id with
  | zero => rfl
  | succ k ih => rw [iterate_succ, ih, stem_primed]

section toList

variable {id : Id} (before : List Char) (c : Char) {n : Nat}

theorem isDigit_of_mem_reverse_toDigits {n : Nat} {d : Char}
    (hd : d ∈ (Nat.toDigits 10 n).reverse) : d.isDigit = true :=
  Nat.isDigit_of_mem_toDigits (by decide) (by decide) (List.mem_reverse.1 hd)

/-- An id that ends in a number has no primes to drop. -/
theorem dropWhile_of_toList (h : id.toList = before ++ c :: Nat.toDigits 10 n) :
    id.toList.reverse.dropWhile (· = '\'') =
      (Nat.toDigits 10 n).reverse ++ c :: before.reverse := by
  have hne : (Nat.toDigits 10 n).reverse ≠ [] := by simp
  obtain ⟨d, rest, hd⟩ := List.exists_cons_of_ne_nil hne
  have hdigit : d.isDigit = true :=
    isDigit_of_mem_reverse_toDigits (n := n) (hd ▸ List.mem_cons_self)
  have hd' : d ≠ '\'' := by
    rintro rfl
    exact absurd hdigit (by decide)
  simp [h, hd, hd']

/-- A number is read back when something that is no digit stands before it. -/
theorem endNumber_eq_of_toList (hc : c.isDigit = false)
    (h : id.toList = before ++ c :: Nat.toDigits 10 n) : id.endNumber = n := by
  rw [endNumber, dropWhile_of_toList before c h,
    List.takeWhile_append_of_pos fun _ hd => isDigit_of_mem_reverse_toDigits hd,
    List.takeWhile_cons_of_neg (by simp [hc]), List.append_nil, List.reverse_reverse,
    Nat.ofDigitChars_ten_toDigits]

/-- So is what stands before the number. -/
theorem stem_eq_of_toList (hc : c.isDigit = false)
    (h : id.toList = before ++ c :: Nat.toDigits 10 n) : id.stem = before ++ [c] := by
  rw [stem, dropWhile_of_toList before c h,
    List.dropWhile_append_of_pos fun _ hd => isDigit_of_mem_reverse_toDigits hd,
    List.dropWhile_cons_of_neg (by simp [hc]), List.reverse_cons, List.reverse_reverse]

end toList

@[simp] theorem endNumber_edge (source target : Id) (line : Nat) :
    (edge source target line).endNumber = line :=
  endNumber_eq_of_toList ("edge_".toList ++ source.toList ++ '_' :: target.toList) '_' (by decide)
    (by simp [edge, toString])

@[simp] theorem endNumber_numbered (stem : String) (n : Nat) : (numbered stem n).endNumber = n :=
  endNumber_eq_of_toList stem.toList '_' (by decide) (by simp [numbered, toString])

@[simp] theorem endNumber_drawnEdge (source target : Id) (n : Nat) :
    (drawnEdge source target n).endNumber = n :=
  endNumber_eq_of_toList (source.toList ++ '-' :: target.toList) '-' (by decide)
    (by simp [drawnEdge, toString])

@[simp] theorem stem_edge (source target : Id) (line : Nat) :
    (edge source target line).stem =
      "edge_".toList ++ (source ++ "_" ++ target).toList ++ ['_'] :=
  stem_eq_of_toList (n := line) ("edge_".toList ++ (source ++ "_" ++ target).toList) '_'
    (by decide) (by simp [edge, toString])

@[simp] theorem stem_numbered (stem : String) (n : Nat) :
    (numbered stem n).stem = stem.toList ++ ['_'] :=
  stem_eq_of_toList (n := n) stem.toList '_' (by decide) (by simp [numbered, toString])

@[simp] theorem mark_edge (source target : Id) (line : Nat) :
    (edge source target line).mark = some '_' := by
  rw [mark, stem_edge, List.getLast?_concat]

@[simp] theorem mark_drawnEdge (source target : Id) (n : Nat) :
    (drawnEdge source target n).mark = some '-' := by
  have hstem : (drawnEdge source target n).stem = source.toList ++ '-' :: target.toList ++ ['-'] :=
    stem_eq_of_toList (n := n) (source.toList ++ '-' :: target.toList) '-' (by decide)
      (by simp [drawnEdge, toString])
  rw [mark, hstem, List.getLast?_concat]

@[simp] theorem mark_iterate_primed (k : Nat) (id : Id) : (iterate primed k id).mark = id.mark := by
  rw [mark, stem_iterate_primed, mark]

/-- The id of the edge of a line tells the names of its ends, but not where the one begins and the
other one ends. -/
theorem names_eq_of_primed_edge_eq {source target source' target' : Id} {line line' k k' : Nat}
    (h : iterate primed k (edge source target line) =
      iterate primed k' (edge source' target' line')) :
    source ++ "_" ++ target = source' ++ "_" ++ target' := by
  have hstem := congrArg stem h
  rw [stem_iterate_primed, stem_iterate_primed, stem_edge, stem_edge, List.append_left_inj,
    List.append_right_inj] at hstem
  exact String.toList_inj.1 hstem

/-! ### The forms of counted ids -/

/-- The forms of the ids that are counted up. -/
inductive IsForm : (Nat → Id) → Prop
  | numbered (stem : String) : IsForm (numbered stem)
  | drawnEdge (source target : Id) : IsForm (drawnEdge source target)

/-- The number of a counted id is read back, whatever its form is. -/
theorem IsForm.endNumber_eq {form : Nat → Id} (h : IsForm form) (n : Nat) :
    (form n).endNumber = n := by
  cases h with
  | numbered stem => exact endNumber_numbered stem n
  | drawnEdge source target => exact endNumber_drawnEdge source target n

theorem IsForm.injective {form : Nat → Id} (h : IsForm form) : Function.Injective form := by
  intro m n heq
  rw [← h.endNumber_eq m, heq, h.endNumber_eq]

theorem numbered_injective (stem : String) : Function.Injective (numbered stem) :=
  (IsForm.numbered stem).injective

theorem drawnEdge_injective (source target : Id) :
    Function.Injective (drawnEdge source target) :=
  (IsForm.drawnEdge source target).injective

end Id

/-! ### Allocated ids -/

namespace IdCounter

variable {counter : IdCounter} {form : Nat → Id} {taken : List Id}

/-- The number that an id is allocated from is the first free one. -/
theorem firstFree?_eq_allocate (counter : IdCounter) (taken : List Id)
    (hform : Function.Injective form) :
    firstFree? (fun n => taken.contains (form n)) (· + 1) taken.length counter.next =
      some (counter.allocate form taken).1.number := by
  have hinj : Function.Injective fun k => form (iterate (· + 1) k counter.next) := by
    intro j k h
    have := hform h
    simp only [iterate_add_one] at this
    omega
  obtain ⟨n, hn⟩ := Option.isSome_iff_exists.1 (firstFree?_isSome (l := taken) hinj)
  obtain ⟨k, -, hk, -⟩ := firstFree?_eq_some_iff.1 hn
  rw [iterate_add_one] at hk
  have hnumber : (counter.allocate form taken).1.number = n := by
    have hcount : n + 1 - counter.next = (n - counter.next) + 1 := by omega
    simp only [allocate, tried, hn, Option.getD_some, hcount, List.range'_concat,
      List.getLastD_concat]
    omega
  rw [hn, hnumber]

/-- **What an allocation gives**: the free id with the least number that is not below the counter,
and the counter just above that number.  The taken ids keep the search going for no more steps than
there are of them. -/
theorem exists_allocate_eq (counter : IdCounter) (taken : List Id)
    (hform : Function.Injective form) :
    ∃ n, counter.allocate form taken = (⟨form n, n⟩, ⟨n + 1⟩) ∧
      IsLeast {m | counter.next ≤ m ∧ form m ∉ taken} n ∧ n ≤ counter.next + taken.length := by
  obtain ⟨k, hk, hn, hnotTaken, htaken⟩ :=
    firstFree?_eq_some_iff.1 (firstFree?_eq_allocate counter taken hform)
  simp only [iterate_add_one] at hn htaken
  refine ⟨(counter.allocate form taken).1.number, rfl, ⟨⟨by omega, ?_⟩, ?_⟩, by omega⟩
  · simpa using hnotTaken
  · rintro m ⟨hle, hfree⟩
    by_contra hlt
    have hmem := htaken (m - counter.next) (by omega)
    rw [Nat.add_sub_cancel' hle] at hmem
    exact hfree (by simpa using hmem)

/-- **An allocated id is not taken.** -/
theorem allocate_id_notMem (hform : Function.Injective form) :
    (counter.allocate form taken).1.id ∉ taken := by
  obtain ⟨n, heq, hleast, -⟩ := exists_allocate_eq counter taken hform
  rw [heq]
  exact hleast.1.2

/-- An allocated number is not below the counter. -/
theorem next_le_number (counter : IdCounter) (taken : List Id) (hform : Function.Injective form) :
    counter.next ≤ (counter.allocate form taken).1.number := by
  obtain ⟨n, heq, hleast, -⟩ := exists_allocate_eq counter taken hform
  rw [heq]
  exact hleast.1.1

end IdCounter

end TextDiagram
