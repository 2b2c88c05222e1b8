/-
**Fingerprints.**

The identity of a diagram is kept as a fingerprint: its two lists of ids are written one after the
other as bytes, and the bytes are hashed.  A list is written as the number of its ids, in eight
bytes, and then the ids, each followed by a byte that no text has.

Main definitions:

* `TextDiagram.Identity.bytes` — an identity as it is written;
* `TextDiagram.fingerprint` — the fingerprint of the given nodes and edges.
-/

import TextDiagram.Diagram.Basic

set_option relaxedAutoImplicit false
set_option autoImplicit false

namespace TextDiagram

/-- A count in eight bytes, the lowest one first. -/
def countBytes (n : Nat) : List UInt8 := (List.range 8).map fun i => UInt8.ofNat (n / Nat.pow 256 i)

/-- The byte after an id.  It never occurs in UTF-8. -/
def idEnd : UInt8 := 0xFF

/-- An id as it is written: in UTF-8, with its end. -/
def idBytes (id : Id) : List UInt8 := id.toUTF8.data.toList ++ [idEnd]

/-- A list of ids as it is written: how many there are, and then each of them. -/
def idsBytes (ids : List Id) : List UInt8 := countBytes ids.length ++ ids.flatMap idBytes

/-- An identity as it is written: the nodes, and then the edges. -/
def Identity.bytes (i : Identity) : List UInt8 := idsBytes i.nodes ++ idsBytes i.edges

/-- The fingerprint of the given nodes and edges by a hash of bytes. -/
def fingerprint {κ : Type} (hash : List UInt8 → κ) (nodes edges : List Id) : κ :=
  hash (Identity.of nodes edges).bytes

end TextDiagram
