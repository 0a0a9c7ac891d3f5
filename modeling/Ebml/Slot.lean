import Ebml.Payload

/-!
# Decoding targets

A slot is a place a decoder stores what it reads: a scalar of a fixed kind, any value, an element
map, a record of tagged fields, a list that grows by one item per occurrence, or an optional item.
Scalar slots accept the values that convert to their kind and refuse the others with
`incompatibleType`; a field enters its master by probing a fresh item first, storing and entering
change the slot in place, a refusal leaves it as it was, and a slot shows the encoder its view.
-/

namespace Ebml

namespace Value

/-- The value as an unsigned number: unsigned values, and signed ones that are not negative. -/
def toUnsigned : Value → Except Error UInt64
  | .uint v => .ok v
  | .int v => if v.toInt ≥ 0 then .ok v.toInt.toNat.toUInt64 else .error (.incompatibleType .int)
  | v => .error (.incompatibleType v.kind)

/-- The value as a signed number: signed values, and unsigned ones up to `2 ^ 63 - 1`. -/
def toSigned : Value → Except Error Int64
  | .int v => .ok v
  | .uint v => if v.toNat < Nat.pow 2 63 then .ok (Int64.ofInt v.toNat) else .error (.incompatibleType .uint)
  | v => .error (.incompatibleType v.kind)

/-- The value as a flag: an unsigned value, any non-zero one being true. -/
def toFlag : Value → Except Error Bool
  | .uint v => .ok (v != 0)
  | v => .error (.incompatibleType v.kind)

/-- The value as the bits of a single: singles, and doubles rounded to the nearest single. -/
def toSingle : Value → Except Error UInt32
  | .float32 b => .ok b
  | .float64 b => .ok (FloatBits.narrow b)
  | v => .error (.incompatibleType v.kind)

/-- The value as the bits of a double: doubles, and singles widened. -/
def toDouble : Value → Except Error UInt64
  | .float32 b => .ok (FloatBits.widen b)
  | .float64 b => .ok b
  | v => .error (.incompatibleType v.kind)

/-- The value as text: strings only. -/
def toText : Value → Except Error String
  | .string s => .ok s
  | v => .error (.incompatibleType v.kind)

/-- The value as octets: octets, and strings in UTF-8. -/
def toOctets : Value → Except Error Bytes
  | .binary d => .ok d
  | .string s => .ok (Payload.utf8 s)
  | v => .error (.incompatibleType v.kind)

/-- The value as a date: dates only. -/
def toDate : Value → Except Error Int
  | .date n => .ok n
  | v => .error (.incompatibleType v.kind)

/-- The value as a block: blocks, and octets parsed as one. -/
def toBlock : Value → Except Error Block
  | .block b => .ok b
  | .binary d => Block.parse d
  | v => .error (.incompatibleType v.kind)

end Value

/-- A place a decoder stores values in. Lists and optional fields keep a fresh item to copy
when a new occurrence arrives. -/
inductive Slot where
  | uint (v : UInt64)
  | int (v : Int64)
  | flag (b : Bool)
  | float32 (bits : UInt32)
  | float64 (bits : UInt64)
  | text (s : String)
  | binary (data : Bytes)
  | date (nanos : Int)
  | block (b : Block)
  | value (v : Value)
  | map (m : ElementMap)
  | record (fields : List (Tag × Slot))
  | list (fresh : Slot) (items : List Slot)
  | option (fresh : Slot) (item : Option Slot)
  deriving Inhabited

namespace Slot

/-- The nanoseconds from 2001 of the start of 1970, where a date slot starts. -/
def unixEpoch : Int := -978307200000000000

/-- Writes a converted value into a scalar slot, or leaves the slot as it was when the value
does not convert: a scalar converts the value before it writes. -/
def store {α : Type} (s : Slot) (mk : α → Slot) : Except Error α → Slot × Option Error
  | .ok a => (mk a, none)
  | .error err => (s, some err)

/-- Stores a value in a slot: the slot as the store leaves it, and why the value does not fit,
if it does not. A list or an optional field stores into a fresh item, and takes the item only
once that store succeeded. -/
def assign : Slot → Value → Slot × Option Error
  | s@(uint _), v => s.store uint v.toUnsigned
  | s@(int _), v => s.store int v.toSigned
  | s@(flag _), v => s.store flag v.toFlag
  | s@(float32 _), v => s.store float32 v.toSingle
  | s@(float64 _), v => s.store float64 v.toDouble
  | s@(text _), v => s.store text v.toText
  | s@(binary _), v => s.store binary v.toOctets
  | s@(date _), v => s.store date v.toDate
  | s@(block _), v => s.store block v.toBlock
  | value _, v => (value v, none)
  | list fresh items, v =>
    match fresh.assign v with
    | (item, none) => (list fresh (items ++ [item]), none)
    | (_, some err) => (list fresh items, some err)
  | option fresh item, v =>
    match fresh.assign v with
    | (new, none) => (option fresh (some new), none)
    | (_, some err) => (option fresh item, some err)
  | s, v => (s, some (.incompatibleType v.kind))

/-- Enters a field's master `k + 1` times in a row, each time from where the last one left the
field: the field as the last entering leaves it, and the target that entering gives, if the
field holds a master. A record, a map and a master value are their own target and stay as they
are. A list probes a fresh item, appends it and enters it again, so each entering appends the
fresh item entered twice. An optional field without an item takes a fresh item entered twice
the first time, and enters its item after that. -/
def enterTimes : Nat → Slot → Slot × Option Slot
  | _, value (.master m) => (value (.master m), some (map m))
  | _, map m => (map m, some (map m))
  | _, record fs => (record fs, some (record fs))
  | k, list fresh items =>
    match (enterTimes 0 fresh).2 with
    | none => (list fresh items, none)
    | some _ =>
      (list fresh (items ++ List.replicate (k + 1) (enterTimes 1 fresh).1), (enterTimes 1 fresh).2)
  | k, option fresh none =>
    match (enterTimes 0 fresh).2 with
    | none => (option fresh none, none)
    | some _ => (option fresh (some (enterTimes (k + 1) fresh).1), (enterTimes (k + 1) fresh).2)
  | k, option fresh (some item) =>
    (option fresh (some (enterTimes k item).1), (enterTimes k item).2)
  | _, s => (s, none)

/-- Enters a field's master: the field as entering leaves it, and the target its children are
read into, if the field holds a master. -/
def enter (s : Slot) : Slot × Option Slot := enterTimes 0 s

mutual
/-- Puts back the target a field's master was read into. -/
def close : Slot → Slot → Slot
  | value _, map m => value (.master m)
  | map _, map m => map m
  | record _, record fs => record fs
  | list fresh items, target => list fresh (closeLast items target)
  | option fresh (some item), target => option fresh (some (close item target))
  | s, _ => s

/-- Puts back a target into the last item of a list. -/
def closeLast : List Slot → Slot → List Slot
  | [], _ => []
  | [item], target => [close item target]
  | item :: items, target => item :: closeLast items target
end

/-- The tag and position of the field of a record that takes an element: the first one whose
tag names it. -/
def fieldIndex (fields : List (Tag × Slot)) (e : Element) : Option Nat :=
  fields.findIdx? (·.1.element == e)

/-- Changes one field of a record. -/
def modifyField (fields : List (Tag × Slot)) (i : Nat) (f : Slot → Slot) : List (Tag × Slot) :=
  fields.modify i fun (tag, s) => (tag, f s)

mutual
/-- Whether a slot holds its zero value: what `omitempty` leaves out. A present optional item
is never zero; a record is zero when all its fields are. -/
def isZero : Slot → Bool
  | uint v => v == 0
  | int v => v == 0
  | flag b => !b
  | float32 b => FloatBits.isZero32 b
  | float64 b => FloatBits.isZero64 b
  | text s => s.isEmpty
  | binary d => d.isEmpty
  | date n => n == 0
  | block b => b.isZero
  | value v => v.isZero
  | map m => m.isEmpty
  | record fs => fieldsZero fs
  | list _ items => items.isEmpty
  | option _ item => item.isNone

/-- Whether every field of a record is zero. -/
def fieldsZero : List (Tag × Slot) → Bool
  | [] => true
  | (_, s) :: rest => isZero s && fieldsZero rest
end

mutual
/-- What the encoder sees of a slot. -/
def view : Slot → View
  | uint v => .scalar (.uint v) (v == 0)
  | int v => .scalar (.int v) (v == 0)
  | flag b => .scalar (.uint (if b then 1 else 0)) (!b)
  | float32 b => .scalar (.float32 b) (FloatBits.isZero32 b)
  | float64 b => .scalar (.float64 b) (FloatBits.isZero64 b)
  | text s => .scalar (.string s) s.isEmpty
  | binary d => .scalar (.binary d) d.isEmpty
  | date n => .scalar (.date n) (n == 0)
  | block b => .scalar (.block b) b.isZero
  | value v => View.ofValue v
  | map m => .master (View.ofGroups m) m.isEmpty
  | record fs => .master (viewFields fs) (fieldsZero fs)
  | list _ items => .repeated (viewItems items) items.isEmpty
  | option _ none => .absent true
  | option _ (some item) => (view item).withZero false

/-- What the encoder sees of the fields of a record. -/
def viewFields : List (Tag × Slot) → List (Tag × View)
  | [] => []
  | (tag, s) :: rest => (tag, view s) :: viewFields rest

/-- What the encoder sees of the items of a list. -/
def viewItems : List Slot → List View
  | [] => []
  | s :: rest => view s :: viewItems rest
end

/-- The fields a map or record writes as the root of a document, with no header of its own. -/
def document : Slot → List (Tag × View)
  | map m => View.ofGroups m
  | record fs => viewFields fs
  | _ => []

end Slot

end Ebml
