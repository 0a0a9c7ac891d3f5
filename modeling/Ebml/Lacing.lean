import Ebml.Vint

/-!
# Lacing

A block holds one frame, or several laced together: the number of frames less one, the sizes of
all but the last, then the frames, the last taking what is left. Sizes are written as Xiph runs
of `0xFF` octets, not at all in a fixed lace, or as an EBML size followed by signed differences.
Reading refuses sizes that leave nothing for the last frame.
-/

namespace Ebml

/-- How the frames of a block are laced. -/
inductive Lacing where
  | unlaced
  | xiph
  | fixed
  | ebml
  deriving DecidableEq, Inhabited

namespace Lacing

/-- The largest number of frames in a lace. -/
def maxFrames : Nat := 256

/-- The flag bits of a lacing mode in a block's flag octet. -/
def flagBits : Lacing → UInt8
  | unlaced => 0
  | xiph => 0x02
  | fixed => 0x04
  | ebml => 0x06

/-- The lacing mode a block's flag octet announces. -/
def ofFlags (flags : UInt8) : Lacing :=
  match (flags &&& 0x06).toNat with
  | 2 => xiph
  | 4 => fixed
  | 6 => ebml
  | _ => unlaced

/-- The Xiph encoding of a size: a run of `0xFF` octets and the remainder. -/
def xiphSize (n : Nat) : Bytes := List.replicate (n / 255) 0xFF ++ [(n % 255).toUInt8]

/-- The EBML encoding of the sizes of the leading frames: the first size, then differences. -/
def ebmlSizes : Option Nat → List Nat → Except Error Bytes
  | _, [] => .ok []
  | none, n :: rest => do
    let head ← Vint.encode (some n) none 8
    let tail ← ebmlSizes (some n) rest
    pure (head ++ tail)
  | some prev, n :: rest => do
    let head ← Vint.encodeSigned ((n : Int) - prev) 8
    let tail ← ebmlSizes (some n) rest
    pure (head ++ tail)

/-- The lace header of a list of frames whose last frame is `last`. -/
def header (mode : Lacing) (leading : List Bytes) (last : Bytes) : Except Error Bytes :=
  match mode with
  | unlaced => .ok []
  | xiph => .ok (leading.flatMap (xiphSize ·.length))
  | fixed =>
    if (leading ++ [last]).all (·.length == last.length) then .ok [] else .error .unevenFixedLace
  | ebml => ebmlSizes none (leading.map List.length)

/-- Writes frames with a lacing mode: nothing for no frames, the frame alone without lacing,
otherwise the frame count less one, the sizes and the frames. -/
def write (mode : Lacing) (frames : List Bytes) : Except Error Bytes :=
  match frames.reverse with
  | [] => .ok []
  | last :: leadingRev =>
    let leading := leadingRev.reverse
    if mode = unlaced then
      if leading.isEmpty then .ok last else .error .multipleFramesNoLace
    else if frames.length > maxFrames then .error .tooManyFrames
    else do
      let sizes ← header mode leading last
      pure ((frames.length - 1).toUInt8 :: sizes ++ frames.flatten)

/-- Reads one Xiph size from the front of `bs`, adding to `acc`. -/
def readXiphSize (acc : Nat) : Bytes → Except Error (Nat × Bytes)
  | [] => .error (.io .shortRead)
  | b :: rest => if b = 0xFF then readXiphSize (acc + 255) rest else .ok (acc + b.toNat, rest)

/-- Reads `k` Xiph sizes from the front of `bs`. -/
def readXiphSizes : Nat → Bytes → Except Error (List Nat × Bytes)
  | 0, bs => .ok ([], bs)
  | k + 1, bs => do
    let (n, bs) ← readXiphSize 0 bs
    let (ns, bs) ← readXiphSizes k bs
    pure (n :: ns, bs)

/-- Runs a reading on the front of `bs`, giving its result and the octets after it. -/
def readFront {α : Type} (r : ReadM α) (bs : Bytes) : Except Error (α × Bytes) :=
  let (result, s) := r.runOn bs
  result.map (·, s.ahead)

/-- Reads `k` EBML sizes from the front of `bs`: an unsigned first size, then signed
differences. Every size must fit in what is left after it. -/
def readEbmlSizes : Nat → Option Int → Bytes → Except Error (List Nat × Bytes)
  | 0, _, bs => .ok ([], bs)
  | k + 1, prev, bs => do
    let (size, bs) ← match prev with
      | none => do
        let ((n, _), bs) ← readFront (Vint.readUnsigned 8) bs
        match n with
        | none => throw Error.wrongLaceSize
        | some n => pure ((n : Int), bs)
      | some p => do
        let ((d, _), bs) ← readFront (Vint.readSigned 8) bs
        pure (p + d, bs)
    if size < 0 ∨ size > bs.length then throw Error.wrongLaceSize
    let (ns, bs) ← readEbmlSizes k (some size) bs
    pure (size.toNat :: ns, bs)

/-- Reads the sizes of the `k` leading frames of a lace. -/
def readSizes (mode : Lacing) (k : Nat) (bs : Bytes) : Except Error (List Nat × Bytes) :=
  match mode with
  | unlaced => .ok ([], bs)
  | xiph => readXiphSizes k bs
  | fixed =>
    if bs.length % (k + 1) ≠ 0 then .error .fixedLaceUndivisible
    else .ok (List.replicate k (bs.length / (k + 1)), bs)
  | ebml => readEbmlSizes k none bs

/-- Cuts `bs` into frames of the given sizes and a last frame with the rest. -/
def split : List Nat → Bytes → List Bytes
  | [], bs => [bs]
  | n :: ns, bs => bs.take n :: split ns (bs.drop n)

/-- Reads the frames of a payload laced with `mode`. -/
def read (mode : Lacing) (payload : Bytes) : Except Error (List Bytes) :=
  match payload with
  | [] => .ok []
  | count :: rest =>
    if mode = unlaced then .ok [payload]
    else do
      let (sizes, bs) ← readSizes mode count.toNat rest
      if sizes.foldl (· + ·) 0 ≥ bs.length then throw Error.wrongLaceSize
      pure (split sizes bs)

end Lacing

end Ebml
