import Ebml.Source
import Ebml.Vint
import Ebml.Value
import Ebml.Payload
import Ebml.Utf8

/-!
# Reading element headers and data

An element starts with a header: its identifier, resolved against the schema, and the size of
its data, which may be unknown. The data of a non-master element is then read by its data type:
integers of up to eight octets, floats of zero, four or eight, strings without their trailing
zero octets and checked as UTF-8, dates of zero or eight octets, and octets and blocks whole up
to an allocation limit. A reading that stops short consumes what was there before failing.
-/

namespace Ebml

/-- How strictly a decoder treats what it does not expect: an identifier outside the schema
and an element with no place in its target. -/
inductive ParsingMode where
  /-- Unknown identifiers and elements with no place are errors. -/
  | strict
  /-- Unknown identifiers are errors; elements with no place are skipped. -/
  | bestAttempt
  /-- Both are skipped. -/
  | relaxed
  deriving DecidableEq, Inhabited

/-- What a decoder is allowed: its parsing mode, the largest octet payload it reads, and the
widest identifiers and sizes it accepts, each between one and eight octets. -/
structure DecodeOptions where
  mode : ParsingMode := .bestAttempt
  allocationLimit : Nat := 16 * 1024 * 1024
  maxIdLength : Nat := 4
  maxSizeLength : Nat := 8
  deriving DecidableEq, Inhabited

/-- An element header: the identifier, its element if the schema has one, the data size
(`none` when unknown) and the length of the header. -/
structure Header where
  id : Nat
  element : Option Element
  size : Option Nat
  length : Nat
  deriving DecidableEq, Inhabited

namespace Header

/-- Reads an element header, or `none` when the source ends cleanly before it. -/
def read (opts : DecodeOptions) : ReadM (Option Header) := do
  let start ← ReadM.position
  match ← ReadM.byte? with
  | none => pure none
  | some first =>
    let width ← ReadM.ofExcept (Vint.checkLength first opts.maxIdLength)
    let tail ← ReadM.exact (width - 1)
    let octets := first :: tail
    let (size, _) ← Vint.readUnsigned opts.maxSizeLength
    let stop ← ReadM.position
    pure (some ⟨Octets.toNat octets, Element.lookup octets, size, stop - start⟩)

end Header

namespace Payload

/-- Reads `n` octets of data, refusing more than the allocation limit. -/
def readOctets (opts : DecodeOptions) (n : Nat) : ReadM Bytes :=
  if n > Vint.maxUnsigned ∨ n > opts.allocationLimit then ReadM.fail .tooMuchData
  else ReadM.exact n

/-- Reads the data of a non-master element of `n` octets. -/
def read (opts : DecodeOptions) (t : DataType) (n : Nat) : ReadM Value :=
  match t with
  | .signedInt =>
    if n > 8 then ReadM.fail .invalidIntSize
    else if n = 0 then pure (.int 0)
    else do pure (.int (Int64.ofInt (signedOf (← ReadM.exact n))))
  | .unsignedInt =>
    if n > 8 then ReadM.fail .invalidIntSize
    else do pure (.uint (Octets.toNat (← ReadM.exact n)).toUInt64)
  | .float =>
    if n = 0 then pure (.float64 0)
    else if n = 4 then do pure (.float32 (Octets.toNat (← ReadM.exact 4)).toUInt32)
    else if n = 8 then do pure (.float64 (Octets.toNat (← ReadM.exact 8)).toUInt64)
    else ReadM.fail .invalidFloatSize
  | .string | .utf8 => do
    let data ← readOctets opts n
    match Utf8.decode (trimZeros data) with
    | .ok s => pure (.string s)
    | .error f => ReadM.fail (.utf8 f)
  | .date =>
    if n = 0 then pure (.date 0)
    else if n = 8 then do pure (.date (signedOf (← ReadM.exact 8)))
    else ReadM.fail .sizeMismatch
  | .binary => do pure (.binary (← readOctets opts n))
  | .block => do
    let data ← readOctets opts n
    pure (.block (← ReadM.ofExcept (Block.parse data)))
  | .master => ReadM.fail (.incompatibleType .master)

end Payload

end Ebml
