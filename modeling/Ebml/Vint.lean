import Ebml.Source

/-!
# Variable-size integers

A variable-size integer of `L` octets announces `L` by its first set bit and keeps `7 L` bits of
data. Sizes take the fewest octets and use all-ones data for the unknown size, signed lace
differences are stored biased by `2 ^ (7 L - 1) - 1`, and identifiers keep their marker; writing
checks every limit before producing an octet.
-/

namespace Ebml

namespace Vint

/-- The largest size: all data bits set in eight octets are reserved for the unknown size. -/
def maxUnsigned : Nat := Nat.pow 2 56 - 2

/-- The largest magnitude of a signed value. -/
def maxSigned : Nat := Nat.pow 2 55 - 1

/-- The value with all data bits of `L` octets set. -/
def allOnes (L : Nat) : Nat := Nat.pow 2 (7 * L) - 1

/-- The bias of a signed value of `L` octets. -/
def bias (L : Nat) : Nat := Nat.pow 2 (7 * L - 1) - 1

/-- The width of an unsigned value: the least `L ≤ 8` whose all-ones value is above it. -/
def octetLength (v : Nat) : Nat :=
  ((List.range' 1 7).find? (fun L => v < allOnes L)).getD 8

/-- The width of a signed value: the least `L ≤ 8` whose bias bounds its magnitude. -/
def signedOctetLength (v : Int) : Nat :=
  ((List.range' 1 7).find? (fun L => v.natAbs ≤ bias L)).getD 8

/-- The width a first octet announces: one more than its leading zero bits. -/
def markerLength (first : UInt8) : Nat := 8 - first.toNat.log2

/-- Checks the width announced by a first octet: a zero octet announces no valid width. -/
def checkLength (first : UInt8) (maxLen : Nat) : Except Error Nat :=
  if first = 0 then .error .badVintSize
  else if markerLength first > maxLen then .error .badVintSize
  else .ok (markerLength first)

/-- The octets of a value of width `L` with its length marker set. -/
def withMarker (L v : Nat) : Bytes := Octets.ofNat L (v + Nat.pow 2 (7 * L))

/-- Writes a size (`none` is the unknown size) with at least `minLen` and at most `maxLen`
octets. The unknown size takes `minLen` octets, eight by default. -/
def encode (v : Option Nat) (minLen : Option Nat) (maxLen : Nat) : Except Error Bytes :=
  match v with
  | none =>
    let L := max (minLen.getD 8) 1
    if L > maxLen ∨ L > 8 then .error .badVintSize else .ok (withMarker L (allOnes L))
  | some v =>
    if v > maxUnsigned then .error .badVintSize
    else
      let L := max (octetLength v) (minLen.getD 0)
      if L > maxLen ∨ L > 8 then .error .badVintSize else .ok (withMarker L v)

/-- Checks that a signed value is within the range of lace deltas. -/
def checkSigned (v : Int) : Except Error Int :=
  if v.natAbs ≤ maxSigned then .ok v else .error .badVintSize

/-- Writes a signed value in its own width, biased, with at most `maxLen` octets. -/
def encodeSigned (v : Int) (maxLen : Nat) : Except Error Bytes := do
  let v ← checkSigned v
  let L := signedOctetLength v
  encode (some (v + bias L).toNat) (some L) maxLen

/-- Checks an identifier: not zero, and its first octet's marker agrees with its width. -/
def checkId (v : Nat) : Except Error Nat :=
  if v = 0 then .error .badVintSize
  else
    let w := Element.idWidth v
    let first := (v / Nat.pow 2 (8 * (w - 1))).toUInt8
    match checkLength first 8 with
    | .ok L => if L = w then .ok v else .error .badVintSize
    | .error e => .error e

/-- Writes an identifier verbatim, if its width is at most `maxLen`. -/
def encodeId (v : Nat) (maxLen : Nat) : Except Error Bytes :=
  if Element.idWidth v > maxLen then .error .badVintSize
  else .ok (Octets.ofNat (Element.idWidth v) v)

/-- The value of a first octet and the octets after it, with the marker cleared; all data bits
set is the unknown size. -/
def unsignedValue (first : UInt8) (tail : Bytes) : Option Nat :=
  let v := Octets.toNat ((first.toNat - Nat.pow 2 first.toNat.log2).toUInt8 :: tail)
  if v = allOnes (tail.length + 1) then none else some v

/-- Reads a size of at most `maxLen` octets, with the number of octets read. -/
def readUnsigned (maxLen : Nat) : ReadM (Option Nat × Nat) := do
  let first ← ReadM.byte
  let L ← ReadM.ofExcept (checkLength first maxLen)
  let tail ← ReadM.exact (L - 1)
  pure (unsignedValue first tail, L)

/-- Reads a signed value of at most `maxLen` octets, with the number of octets read. -/
def readSigned (maxLen : Nat) : ReadM (Int × Nat) := do
  let (raw, L) ← readUnsigned maxLen
  match raw with
  | none => ReadM.fail .badVintSize
  | some raw => pure ((raw : Int) - bias L, L)

/-- Reads an identifier of at most `maxLen` octets, marker kept, with its width. -/
def readId (maxLen : Nat) : ReadM (Nat × Nat) := do
  let first ← ReadM.byte
  let L ← ReadM.ofExcept (checkLength first maxLen)
  let tail ← ReadM.exact (L - 1)
  pure (Octets.toNat (first :: tail), L)

/-- The unknown size as a 64-bit word: every bit set. -/
def unknownWord : Nat := Nat.pow 2 64 - 1

/-- A size as a 64-bit word. -/
def word : Option Nat → Nat
  | some v => v
  | none => unknownWord

/-- The debugging text of a size: `VInt(5)`, or `VInt("<unknown>")`. -/
def debugText : Option Nat → String
  | some v => "VInt(" ++ toString v ++ ")"
  | none => "VInt(\"<unknown>\")"

/-- The debugging text of a signed value: `VInt(-5)`. -/
def debugSigned (v : Int) : String := "VInt(" ++ toString v ++ ")"

/-- The debugging text of an identifier: `ElementId(0x1A45DFA3)`. -/
def debugId (v : Nat) : String := "ElementId(0x" ++ hexUpper v ++ ")"

end Vint

end Ebml
