import Ebml.Value
import Ebml.Tag

/-!
# Element payloads

The data of a non-master element, by data type: integers in the fewest octets or a declared
width up to eight, floats in four or eight octets, strings and octets padded to a declared size,
dates as eight octets of nanoseconds from 2001; reading interprets the octets back. An encoder
sees each field of a master as a view: a scalar, a master, repeated items or nothing, with
whether it holds its zero value.
-/

namespace Ebml

namespace Payload

/-- The fewest octets, at least one, that hold an unsigned number. -/
def unsignedWidth (v : Nat) : Nat := if v = 0 then 1 else v.log2 / 8 + 1

/-- Whether `len` octets hold a signed number in two's complement. -/
def fitsSigned (v : Int) (len : Nat) : Bool :=
  -Int.pow 2 (8 * len - 1) ≤ v ∧ v < Int.pow 2 (8 * len - 1)

/-- The fewest octets, at least one, that hold a signed number in two's complement. -/
def signedWidth (v : Int) : Nat :=
  ((List.range' 1 8).find? (fitsSigned v)).getD 8

/-- The width of an integer: the minimal one, or a declared one from it up to eight. -/
def integerWidth (minimal : Nat) : Option Nat → Except Error Nat
  | none => .ok minimal
  | some n => if n ≤ 8 ∧ n ≥ minimal then .ok n else .error .invalidIntSize

/-- The octets of a signed number in `len` octets of two's complement. -/
def signedBytes (len : Nat) (v : Int) : Bytes :=
  Octets.ofNat len (v % Int.pow 2 (8 * len)).toNat

/-- Encodes an unsigned integer. -/
def encodeUnsigned (v : Nat) (exact : Option Nat) : Except Error Bytes := do
  let len ← integerWidth (unsignedWidth v) exact
  pure (Octets.ofNat len v)

/-- Encodes a signed integer. -/
def encodeSigned (v : Int) (exact : Option Nat) : Except Error Bytes := do
  let len ← integerWidth (signedWidth v) exact
  pure (signedBytes len v)

/-- Encodes a double in `size` octets: four hold the nearest single. -/
def encodeFloat (bits : UInt64) (size : Nat) : Except Error Bytes :=
  if size = 4 then .ok (Octets.ofNat 4 (FloatBits.narrow bits).toNat)
  else if size = 8 then .ok (Octets.ofNat 8 bits.toNat)
  else .error .invalidFloatSize

/-- Pads octets with zero octets up to a declared size. -/
def pad (data : Bytes) : Option Nat → Except Error Bytes
  | none => .ok data
  | some n => if data.length > n then .error .sizeMismatch
    else .ok (data ++ List.replicate (n - data.length) 0)

/-- The least and greatest signed 64-bit numbers. -/
def minWord : Int := -Int.pow 2 63
def maxSignedWord : Int := Int.pow 2 63 - 1

/-- Nanoseconds saturated to the signed 64-bit range. -/
def saturate (n : Int) : Int := max minWord (min maxSignedWord n)

/-- The octets of a string in UTF-8. -/
def utf8 (s : String) : Bytes := s.toUTF8.data.toList

/-- Encodes the data of a scalar value for an element of the given data type. -/
def encode (e : Element) (v : Value) (size : DeclaredSize) : Except Error Bytes := do
  let exact ← match size with
    | .natural => pure none
    | .exact n => pure (some n)
    | .unknown => throw Error.sizeMismatch
  match e.dataType, v with
  | .unsignedInt, .uint u => encodeUnsigned u.toNat exact
  | .unsignedInt, .int i =>
    if i.toInt ≥ 0 then encodeUnsigned i.toInt.toNat exact else throw (.incompatibleType .int)
  | .signedInt, .int i => encodeSigned i.toInt exact
  | .signedInt, .uint u =>
    if u.toNat ≤ maxSignedWord.toNat then encodeSigned u.toNat exact
    else throw (.incompatibleType .uint)
  | .float, .float32 b => encodeFloat (FloatBits.widen b) (exact.getD 4)
  | .float, .float64 b => encodeFloat b (exact.getD 8)
  | .string, .string s => pad (utf8 s) exact
  | .utf8, .string s => pad (utf8 s) exact
  | .binary, .binary d => pad d exact
  | .binary, .string s => pad (utf8 s) exact
  | .date, .date n =>
    if exact.any (· ≠ 8) then throw Error.sizeMismatch
    else pure (signedBytes 8 (saturate n))
  | .block, .block b => do
    let data ← b.encode
    if exact.any (· ≠ data.length) then throw Error.sizeMismatch
    pure data
  | .block, .binary d => pad d exact
  | _, v => throw (.incompatibleType v.kind)

/-- The signed number of big-endian two's complement octets. -/
def signedOf (bs : Bytes) : Int :=
  let u := Octets.toNat bs
  if bs.isEmpty then 0
  else if u ≥ Nat.pow 2 (8 * bs.length - 1) then (u : Int) - Int.pow 2 (8 * bs.length) else u

/-- Octets without their trailing zero octets. -/
def trimZeros (bs : Bytes) : Bytes := (bs.reverse.dropWhile (· == 0)).reverse

end Payload

/-! ## What a field shows the encoder

An encoder sees each field of a master as a view: a scalar value, a master with its own tagged
fields, a list of items written one after another under the same tag, or nothing at all. Every
view also says whether the field holds its zero value, which is what `omitempty` looks at. The
zero flag is the field's own: a present optional field is never zero, whatever it holds. -/

/-- A field as an encoder sees it, with whether it holds its zero value. -/
inductive View where
  | scalar (v : Value) (zero : Bool)
  | master (fields : List (Tag × View)) (zero : Bool)
  | repeated (items : List View) (zero : Bool)
  | absent (zero : Bool)
  deriving Inhabited

namespace View

/-- Whether the field holds its zero value. -/
def zero : View → Bool
  | scalar _ z | master _ z | repeated _ z | absent z => z

/-- The same view with another zero flag. -/
def withZero : View → Bool → View
  | scalar v _, z => scalar v z
  | master fs _, z => master fs z
  | repeated is _, z => repeated is z
  | absent _, z => absent z

mutual
/-- The view of a value field: a map is a master listing its entries, each a value field. -/
def ofValue : Value → View
  | .master groups => master (ofGroups groups) (groups.all (·.2.isEmpty))
  | v => scalar v v.isZero

/-- The fields of a map, group by group. -/
def ofGroups : List (Element × List Value) → List (Tag × View)
  | [] => []
  | (e, vs) :: rest => ofGroup e vs ++ ofGroups rest

/-- The fields of one group of a map. -/
def ofGroup (e : Element) : List Value → List (Tag × View)
  | [] => []
  | v :: vs => (Tag.plain e, ofValue v) :: ofGroup e vs
end

end View

end Ebml
