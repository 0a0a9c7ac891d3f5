import Ebml.Lacing

/-!
# Blocks

A block carries the frames of one track at one point in time: the track number as an unsigned
variable-size integer, a signed 16-bit timecode relative to its cluster, a flag octet, and the
frames, laced as the flag octet says. The flag octet holds the keyframe bit (`0x80`), the
invisible bit (`0x08`), the discardable bit (`0x01`) and the lacing bits (`0x06`).
-/

namespace Ebml

/-- A block of frames. -/
structure Block where
  track : UInt64 := 0
  timecode : Int16 := 0
  keyframe : Bool := false
  invisible : Bool := false
  discardable : Bool := false
  lacing : Lacing := .unlaced
  frames : List Bytes := []
  deriving DecidableEq, Inhabited

namespace Block

/-- The keyframe bit of the flag octet. -/
def keyframeBit : UInt8 := 0x80

/-- The invisible bit of the flag octet. -/
def invisibleBit : UInt8 := 0x08

/-- The discardable bit of the flag octet. -/
def discardableBit : UInt8 := 0x01

/-- The flag octet of a block. -/
def flags (b : Block) : UInt8 :=
  b.lacing.flagBits ||| (if b.keyframe then keyframeBit else 0) |||
    (if b.invisible then invisibleBit else 0) ||| (if b.discardable then discardableBit else 0)

/-- A block is zero when it belongs to no track and has no frames. -/
def isZero (b : Block) : Bool := b.track == 0 && b.frames.isEmpty

/-- The two octets of a timecode, most significant first. -/
def timecodeBytes (t : Int16) : Bytes := Octets.ofNat 2 t.toUInt16.toNat

/-- The timecode two octets hold. -/
def timecodeOf (bs : Bytes) : Int16 := (Octets.toNat bs).toUInt16.toInt16

/-- Encodes a block: its track number must be a valid size and its frames must lace. -/
def encode (b : Block) : Except Error Bytes := do
  let track ← Vint.encode (some b.track.toNat) none 8
  let frames ← b.lacing.write b.frames
  pure (track ++ timecodeBytes b.timecode ++ [b.flags] ++ frames)

/-- Reads the head of a block: track number, timecode and flag octet. -/
def readHead : ReadM (Nat × Int16 × UInt8) := do
  let (track, _) ← Vint.readUnsigned 8
  match track with
  | none => ReadM.fail .badVintSize
  | some track =>
    let t ← ReadM.exact 2
    let flags ← ReadM.byte
    pure (track, timecodeOf t, flags)

/-- Decodes a block. -/
def parse (data : Bytes) : Except Error Block := do
  let ((track, timecode, flags), rest) ← Lacing.readFront readHead data
  let lacing := Lacing.ofFlags flags
  let frames ← lacing.read rest
  pure {
    track := track.toUInt64, timecode, lacing, frames,
    keyframe := flags &&& keyframeBit != 0,
    invisible := flags &&& invisibleBit != 0,
    discardable := flags &&& discardableBit != 0 }

end Block

end Ebml
