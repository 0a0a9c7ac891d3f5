import Ebml.Schema

/-!
# Element tries

Identifiers are resolved through a trie over their octets kept in an arena: node `0` is the root
and each node lists its children sorted by octet, found by binary search. The trie is built by
inserting every element's identifier in schema order, and a lookup, or a header reader stepping
the trie while it reads, gives up as soon as no child continues.
-/

namespace Ebml

/-- A node of an element trie: its children by octet, sorted by octet, and the element whose
identifier ends here, if any. -/
structure TrieNode (α : Type) where
  children : List (UInt8 × Nat) := []
  element : Option α := none

instance {α : Type} : Inhabited (TrieNode α) := ⟨{}⟩

/-- An element trie: an arena of nodes whose first node is the root. -/
structure Trie (α : Type) where
  nodes : List (TrieNode α) := [{}]

/-- A binary search for `octet` among children sorted by octet: `.ok i` when child `i` has that
octet, `.error i` when it has none, with `i` the position where it would be inserted to keep
the children sorted. -/
def searchOctet (octet : UInt8) : List (UInt8 × Nat) → Except Nat Nat
  | [] => .error 0
  | (o, _) :: rest =>
    if octet < o then .error 0
    else if octet = o then .ok 0
    else
      match searchOctet octet rest with
      | .ok i => .ok (i + 1)
      | .error i => .error (i + 1)

namespace Trie

variable {α : Type}

/-- The node at a cursor. -/
def node (t : Trie α) (cursor : Nat) : TrieNode α := t.nodes.getD cursor default

/-- Descends one octet: the child that continues with `octet`, if any. -/
def step (t : Trie α) (cursor : Nat) (octet : UInt8) : Option Nat :=
  let children := (t.node cursor).children
  (searchOctet octet children).toOption.map fun pos => (children.getD pos (0, 0)).2

/-- The element that ends at a cursor, if any. -/
def element (t : Trie α) (cursor : Nat) : Option α := (t.node cursor).element

/-- Descends along some octets, giving up as soon as no child continues. -/
def walk (t : Trie α) (cursor : Nat) : Bytes → Option Nat
  | [] => some cursor
  | o :: os => (t.step cursor o).bind fun c => t.walk c os

/-- The element whose identifier octets are exactly `octets`. -/
def lookup (t : Trie α) (octets : Bytes) : Option α := (t.walk 0 octets).bind t.element

/-- Resolves an identifier while its octets are read: a cursor from the first octet, stepped
by each further octet, dead once no child continues. -/
def descend (t : Trie α) (first : UInt8) (tail : Bytes) : Option α :=
  (tail.foldl (fun cursor o => cursor.bind fun c => t.step c o) (t.step 0 first)).bind t.element

/-- Adds a fresh node as the child of `cursor` for `octet`, at position `pos` among its
children. -/
def addChild (t : Trie α) (cursor pos : Nat) (octet : UInt8) : Trie α :=
  ⟨(t.nodes ++ [default]).modify cursor fun n =>
    { n with children := n.children.insertIdx pos (octet, t.nodes.length) }⟩

/-- Marks the node at a cursor as the end of an element's identifier. -/
def setElement (t : Trie α) (cursor : Nat) (e : α) : Trie α :=
  ⟨t.nodes.modify cursor fun n => { n with element := some e }⟩

/-- Follows `octets` from a node, adding a node for each octet that no child continues with,
and gives the node they end at. -/
def insertPath (t : Trie α) (cursor : Nat) : Bytes → Trie α × Nat
  | [] => (t, cursor)
  | o :: os =>
    let children := (t.node cursor).children
    match searchOctet o children with
    | .ok pos => t.insertPath (children.getD pos (0, 0)).2 os
    | .error pos => (t.addChild cursor pos o).insertPath t.nodes.length os

/-- Inserts an element under its identifier octets. -/
def insert (t : Trie α) (octets : Bytes) (e : α) : Trie α :=
  let path := t.insertPath 0 octets
  path.1.setElement path.2 e

/-- The trie of some elements, inserted in order under their identifier octets. -/
def build (entries : List (Bytes × α)) : Trie α :=
  entries.foldl (fun t entry => t.insert entry.1 entry.2) {}

end Trie

/-- The trie of the schema, built over every element in the order of the schema table. -/
def Element.trie : Trie Element := Trie.build (Element.all.map fun e => (e.idBytes, e))

end Ebml
