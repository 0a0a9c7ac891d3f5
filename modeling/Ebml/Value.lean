import Ebml.Block
import Ebml.Float

/-!
# Values and element maps

A value is what an element holds once decoded: an integer, a float (by its bits), a string,
a date (nanoseconds from 2001-01-01T00:00:00 UTC), octets, a block, or, for a master element,
an element map. An element map keeps its values grouped by element, the groups in the order
of each element's first appearance and the values of a group in insertion order; this is also
the order in which it lists and writes them.
-/

namespace Ebml

/-- A decoded element value. -/
inductive Value where
  | int (v : Int64)
  | uint (v : UInt64)
  | float32 (bits : UInt32)
  | float64 (bits : UInt64)
  | string (s : String)
  | date (nanos : Int)
  | binary (data : Bytes)
  | block (b : Block)
  | master (groups : List (Element × List Value))
  deriving Inhabited

/-- Values grouped by element, groups in order of first appearance. -/
abbrev ElementMap := List (Element × List Value)

namespace Value

/-- The kind of a value. -/
def kind : Value → ValueKind
  | int _ => .int
  | uint _ => .uint
  | float32 _ => .float32
  | float64 _ => .float64
  | string _ => .string
  | date _ => .date
  | binary _ => .binary
  | block _ => .block
  | master _ => .master

/-- Whether a value is the zero of its kind: zero numbers (of either sign for floats), empty
strings and octets, the 2001 epoch, an empty block and an empty map. -/
def isZero : Value → Bool
  | int v => v == 0
  | uint v => v == 0
  | float32 b => FloatBits.isZero32 b
  | float64 b => FloatBits.isZero64 b
  | string s => s.isEmpty
  | date n => n == 0
  | binary d => d.isEmpty
  | block b => b.isZero
  | master groups => groups.all (·.2.isEmpty)

/-- The fresh value a map stores when a decoder asks it for a field: an empty map for a master
element, an unsigned zero otherwise. -/
def fresh (e : Element) : Value := if e.isMaster then master [] else uint 0

end Value

namespace ElementMap

/-- The values stored for an element, in insertion order. -/
def getAll (m : ElementMap) (e : Element) : List Value :=
  match m.find? (·.1 == e) with
  | some (_, vs) => vs
  | none => []

/-- The first value stored for an element. -/
def get? (m : ElementMap) (e : Element) : Option Value := (m.getAll e).head?

/-- Adds a value at the end of its element's group, opening the group if needed. -/
def push (m : ElementMap) (e : Element) (v : Value) : ElementMap :=
  if m.any (·.1 == e) then m.map fun (e', vs) => if e' == e then (e', vs ++ [v]) else (e', vs)
  else m ++ [(e, [v])]

/-- The entries in listing order: group by group. -/
def entries (m : ElementMap) : List (Element × Value) :=
  m.flatMap fun (e, vs) => vs.map (e, ·)

/-- The number of values. -/
def size (m : ElementMap) : Nat := m.foldl (fun n e => n + e.2.length) 0

/-- Whether the map holds no value. -/
def isEmpty (m : ElementMap) : Bool := m.all (·.2.isEmpty)

/-- Builds a map from entries in order. -/
def ofEntries (es : List (Element × Value)) : ElementMap :=
  es.foldl (fun m (e, v) => m.push e v) []

/-- Replaces the last value of an element's group. -/
def setLast (m : ElementMap) (e : Element) (v : Value) : ElementMap :=
  m.map fun (e', vs) => if e' == e then (e', vs.dropLast ++ [v]) else (e', vs)

end ElementMap

end Ebml
