/-
**What a fingerprint tells.**

Two lists of free texts are written into one stream of bytes.  The stream can be read in one way
only: a list says how many ids it has, and no id contains the byte that ends it.  So, unless the
hash collides, a fingerprint tells the same as the identity that it is made of.

The number of ids is written in eight bytes.  A list that is kept in memory never has more; for
longer ones the streams would be ambiguous indeed.

Main results:

* `TextDiagram.countBytes_injective` — counts are told apart;
* `TextDiagram.idBytes_append_inj`, `TextDiagram.idsBytes_append_inj` — an id ends where it ends,
  and so does a list of ids;
* `TextDiagram.Identity.bytes_inj` — **a stream comes from one identity**;
* `TextDiagram.fingerprint_eq_iff` — **a fingerprint tells the nodes and the edges**.
-/

import Mathlib.Data.Set.Function
import TextDiagram.Diagram.Fingerprint
import TextDiagram.Proofs.Diagram.Identity

set_option relaxedAutoImplicit false
set_option autoImplicit false

namespace TextDiagram

/-! ### Counts -/

theorem length_countBytes (n : ℕ) : (countBytes n).length = 8 := by simp [countBytes]

/-- Counts of eight bytes are told apart. -/
theorem countBytes_injective {m n : ℕ} (hm : m < 2 ^ 64) (hn : n < 2 ^ 64)
    (h : countBytes m = countBytes n) : m = n := by
  have hdigit : ∀ i < 8, m / 256 ^ i % 256 = n / 256 ^ i % 256 := by
    intro i hi
    have hbyte := List.map_inj_left.1 h i (List.mem_range.2 hi)
    simpa [Nat.pow_eq] using congrArg UInt8.toNat hbyte
  have h0 := hdigit 0 (by decide)
  have h1 := hdigit 1 (by decide)
  have h2 := hdigit 2 (by decide)
  have h3 := hdigit 3 (by decide)
  have h4 := hdigit 4 (by decide)
  have h5 := hdigit 5 (by decide)
  have h6 := hdigit 6 (by decide)
  have h7 := hdigit 7 (by decide)
  simp only [Nat.reducePow, Nat.div_one] at *
  omega

/-! ### Ids -/

section

variable {id id' : Id} {ids ids' : List Id} {rest rest' : List UInt8}

/-- No byte of a character in UTF-8 is the one that ends ids. -/
theorem idEnd_notMem_utf8EncodeChar (c : Char) : idEnd ∉ String.utf8EncodeChar c := by
  have hne : ∀ n : ℕ, n < 255 → idEnd ≠ UInt8.ofNat n := by
    intro n hn h
    have hbyte : 255 = n % 256 := congrArg UInt8.toNat h
    omega
  unfold String.utf8EncodeChar
  simp only [apply_ite (idEnd ∉ ·)]
  split_ifs with h1 h2 h3
  · rw [List.mem_singleton]
    exact hne _ (by omega)
  · simp only [List.mem_cons, List.not_mem_nil, or_false, not_or]
    exact ⟨hne _ (by omega), hne _ (by omega)⟩
  · simp only [List.mem_cons, List.not_mem_nil, or_false, not_or]
    exact ⟨hne _ (by omega), hne _ (by omega), hne _ (by omega)⟩
  · simp only [List.mem_cons, List.not_mem_nil, or_false, not_or]
    exact ⟨hne _ (by omega), hne _ (by omega), hne _ (by omega), hne _ (by omega)⟩

theorem idEnd_notMem_toUTF8 (id : Id) : idEnd ∉ id.toUTF8.data.toList := by
  rw [String.toUTF8, ← String.utf8Encode_toList, List.utf8Encode, List.toList_data_toByteArray]
  simp only [List.mem_flatMap, not_exists, not_and]
  exact fun c _ => idEnd_notMem_utf8EncodeChar c

/-- What stands before the first byte that ends ids is told, and so is what stands behind it. -/
theorem append_idEnd_inj {text text' : List UInt8} (htext : idEnd ∉ text) (htext' : idEnd ∉ text')
    (h : text ++ idEnd :: rest = text' ++ idEnd :: rest') : text = text' ∧ rest = rest' := by
  have htake : ∀ {text rest : List UInt8}, idEnd ∉ text →
      (text ++ idEnd :: rest).takeWhile (· ≠ idEnd) = text := by
    intro text rest hend
    rw [List.takeWhile_append_of_pos, List.takeWhile_cons_of_neg (by simp), List.append_nil]
    intro byte hbyte
    exact decide_eq_true fun heq => hend (heq ▸ hbyte)
  have hprefix := congrArg (List.takeWhile (· ≠ idEnd)) h
  rw [htake htext, htake htext'] at hprefix
  obtain rfl := hprefix
  exact ⟨rfl, (List.cons.inj (List.append_cancel_left h)).2⟩

/-- An id ends at the first byte that ends ids. -/
theorem idBytes_append_inj (h : idBytes id ++ rest = idBytes id' ++ rest') :
    id = id' ∧ rest = rest' := by
  rw [idBytes, idBytes, List.append_assoc, List.append_assoc, List.singleton_append,
    List.singleton_append] at h
  obtain ⟨hbytes, hrest⟩ := append_idEnd_inj (idEnd_notMem_toUTF8 id) (idEnd_notMem_toUTF8 id') h
  exact ⟨String.toByteArray_inj.1 (ByteArray.ext (Array.toList_inj.1 hbytes)), hrest⟩

/-! ### Lists of ids -/

theorem flatMap_idBytes_append_inj (hlength : ids.length = ids'.length)
    (h : ids.flatMap idBytes ++ rest = ids'.flatMap idBytes ++ rest') :
    ids = ids' ∧ rest = rest' := by
  induction ids generalizing ids' with
  | nil =>
      obtain rfl := List.eq_nil_of_length_eq_zero hlength.symm
      exact ⟨rfl, h⟩
  | cons id ids ih =>
      obtain ⟨id', ids', rfl⟩ := List.exists_cons_of_length_eq_add_one hlength.symm
      rw [List.flatMap_cons, List.flatMap_cons, List.append_assoc, List.append_assoc] at h
      obtain ⟨rfl, hmore⟩ := idBytes_append_inj h
      obtain ⟨rfl, hrest⟩ := ih (Nat.succ.inj hlength) hmore
      exact ⟨rfl, hrest⟩

/-- A list of ids ends where as many ids have ended as it says. -/
theorem idsBytes_append_inj (hids : ids.length < 2 ^ 64) (hids' : ids'.length < 2 ^ 64)
    (h : idsBytes ids ++ rest = idsBytes ids' ++ rest') : ids = ids' ∧ rest = rest' := by
  rw [idsBytes, idsBytes, List.append_assoc, List.append_assoc] at h
  obtain ⟨hcount, h⟩ := List.append_inj h (by rw [length_countBytes, length_countBytes])
  exact flatMap_idBytes_append_inj (countBytes_injective hids hids' hcount) h

end

/-! ### Identities -/

/-- An identity whose numbers of ids fit into eight bytes, as those of lists in memory do. -/
structure Identity.IsWritable (i : Identity) : Prop where
  nodes : i.nodes.length < 2 ^ 64
  edges : i.edges.length < 2 ^ 64

/-- **A stream comes from one identity.** -/
theorem Identity.bytes_inj {i j : Identity} (hi : i.IsWritable) (hj : j.IsWritable) :
    i.bytes = j.bytes ↔ i = j := by
  refine ⟨fun h => ?_, congrArg bytes⟩
  obtain ⟨hnodes, hrest⟩ := idsBytes_append_inj hi.nodes hj.nodes h
  -- nothing stands behind the edges
  have hend : idsBytes i.edges ++ [] = idsBytes j.edges ++ [] := by rw [hrest]
  have hedges := idsBytes_append_inj hi.edges hj.edges hend
  rw [Identity.mk.injEq]
  exact ⟨hnodes, hedges.1⟩

theorem Identity.isWritable_of {nodes edges : List Id} (hnodes : nodes.length < 2 ^ 64)
    (hedges : edges.length < 2 ^ 64) : (Identity.of nodes edges).IsWritable where
  nodes := by rwa [Identity.of, List.length_mergeSort]
  edges := by rwa [Identity.of, List.length_mergeSort]

/-! ### Fingerprints -/

/-- **A fingerprint tells the nodes and the edges.**  If the hash does not collide on the streams at
hand, two fingerprints are equal exactly if the nodes are the same up to their order, and so are the
edges. -/
theorem fingerprint_eq_iff {κ : Type} {hash : List UInt8 → κ} {streams : Set (List UInt8)}
    (hhash : streams.InjOn hash) {nodes nodes' edges edges' : List Id}
    (hstream : (Identity.of nodes edges).bytes ∈ streams)
    (hstream' : (Identity.of nodes' edges').bytes ∈ streams)
    (hnodes : nodes.length < 2 ^ 64) (hnodes' : nodes'.length < 2 ^ 64)
    (hedges : edges.length < 2 ^ 64) (hedges' : edges'.length < 2 ^ 64) :
    fingerprint hash nodes edges = fingerprint hash nodes' edges' ↔
      nodes.Perm nodes' ∧ edges.Perm edges' := by
  have hwritable := Identity.isWritable_of hnodes hedges
  have hwritable' := Identity.isWritable_of hnodes' hedges'
  rw [fingerprint, fingerprint, hhash.eq_iff hstream hstream',
    Identity.bytes_inj hwritable hwritable', Identity.of_eq_of_iff]

/-- Told by the whole stream, the order of ids does not matter, but it does whether an id is that of
a node or an edge, and where one id ends and the next one starts. -/
theorem fingerprint_of_stream :
    Set.univ.InjOn (id : List UInt8 → List UInt8) ∧
      fingerprint id ["ab", "c"] ["e"] = fingerprint id ["c", "ab"] ["e"] ∧
      fingerprint id ["ab", "c"] ["e"] ≠ fingerprint id ["ab"] ["c", "e"] ∧
      fingerprint id ["ab", "c"] ["e"] ≠ fingerprint id ["a", "bc"] ["e"] := by
  have hhash : Set.univ.InjOn (id : List UInt8 → List UInt8) := Set.injOn_id _
  have hiff : ∀ {nodes nodes' edges edges' : List Id}, nodes.length < 3 → nodes'.length < 3 →
      edges.length < 3 → edges'.length < 3 →
      (fingerprint id nodes edges = fingerprint id nodes' edges' ↔
        nodes.Perm nodes' ∧ edges.Perm edges') := by
    intro nodes nodes' edges edges' hnodes hnodes' hedges hedges'
    exact fingerprint_eq_iff hhash (Set.mem_univ _) (Set.mem_univ _) (by omega) (by omega)
      (by omega) (by omega)
  refine ⟨hhash, ?_, ?_, ?_⟩
  · rw [hiff (by decide) (by decide) (by decide) (by decide)]
    decide
  · rw [Ne, hiff (by decide) (by decide) (by decide) (by decide)]
    decide
  · rw [Ne, hiff (by decide) (by decide) (by decide) (by decide)]
    decide

end TextDiagram
