/-!
# Binary floating point by its bits

Floats are kept as their IEEE 754 bit patterns: `UInt32` for single and `UInt64` for double
precision. Two conversions are needed. Widening a single to a double is exact. Narrowing a
double to a single rounds to the nearest single, ties to even, overflows to infinity and
underflows through the subnormals. A NaN keeps its sign and the top bits of its payload and
becomes quiet.
-/

namespace Ebml

namespace FloatBits

/-- Whether a single is zero, of either sign. -/
def isZero32 (b : UInt32) : Bool := b &&& 0x7FFFFFFF == 0

/-- Whether a double is zero, of either sign. -/
def isZero64 (b : UInt64) : Bool := b &&& 0x7FFFFFFFFFFFFFFF == 0

/-- Shifts `m` right by `k` bits, rounding to nearest with ties to even. -/
def shiftRound (m k : Nat) : Nat :=
  if k = 0 then m
  else
    let q := m / Nat.pow 2 k
    let r := m % Nat.pow 2 k
    let half := Nat.pow 2 (k - 1)
    if r > half ∨ (r = half ∧ q % 2 = 1) then q + 1 else q

/-- The single nearest to the positive value `m · 2 ^ e` (`m > 0`), as bits without sign. -/
def nearestSingle (m : Nat) (e : Int) : Nat :=
  let n := m.log2 + 1
  -- the value lies in [2 ^ top, 2 ^ (top + 1))
  let top : Int := e + n - 1
  if top < -126 then
    -- subnormal range: count units of 2 ^ -149
    let shift : Int := e + 149
    let units := if shift ≥ 0 then m * Nat.pow 2 shift.toNat else shiftRound m (-shift).toNat
    -- rounding up to 2 ^ 23 gives the least normal, whose bits are the same number
    units
  else
    let (mant, top) :=
      if n > 24 then
        let r := shiftRound m (n - 24)
        if r = Nat.pow 2 24 then (Nat.pow 2 23, top + 1) else (r, top)
      else (m * Nat.pow 2 (24 - n), top)
    if top > 127 then 0x7F800000
    else (top + 127).toNat * Nat.pow 2 23 + (mant - Nat.pow 2 23)

/-- Narrows a double to the nearest single. -/
def narrow (b : UInt64) : UInt32 :=
  let bits : Nat := b.toNat
  let sign : Nat := bits / Nat.pow 2 63
  let exp : Nat := bits / Nat.pow 2 52 % Nat.pow 2 11
  let mant : Nat := bits % Nat.pow 2 52
  let magnitude : Nat :=
    if exp = 0x7FF then
      if mant = 0 then 0x7F800000 else 0x7FC00000 + mant / Nat.pow 2 29 % Nat.pow 2 22
    else if exp = 0 then
      if mant = 0 then 0 else nearestSingle mant (-1074)
    else nearestSingle (mant + Nat.pow 2 52) ((exp : Int) - 1075)
  (sign * Nat.pow 2 31 + magnitude).toUInt32

/-- Widens a single to the double of the same value. -/
def widen (b : UInt32) : UInt64 :=
  let bits : Nat := b.toNat
  let sign : Nat := bits / Nat.pow 2 31
  let exp : Nat := bits / Nat.pow 2 23 % Nat.pow 2 8
  let mant : Nat := bits % Nat.pow 2 23
  let magnitude : Nat :=
    if exp = 0xFF then
      if mant = 0 then 0x7FF0000000000000 else 0x7FF8000000000000 + mant % Nat.pow 2 22 * Nat.pow 2 29
    else if exp = 0 then
      if mant = 0 then 0
      else
        -- a subnormal single is a normal double
        let n := mant.log2 + 1
        let top := n + 873
        top * Nat.pow 2 52 + (mant * Nat.pow 2 (53 - n) - Nat.pow 2 52)
    else (exp + 896) * Nat.pow 2 52 + mant * Nat.pow 2 29
  (sign * Nat.pow 2 63 + magnitude).toUInt64

end FloatBits

end Ebml
