import Ebml.Error

/-!
# UTF-8 validation

String elements hold UTF-8, checked from the start: single octets below `0x80`, and lead octets
of two, three and four octets followed by continuation octets, with the second octet narrowed so
that no overlong form, surrogate or value past `U+10FFFF` passes. A failure names the valid
prefix and, for a wrong sequence, how many octets of the bad character were looked at.
-/

namespace Ebml

namespace Utf8

/-- The length of the character a first octet starts, or zero if no character starts so. -/
def width (first : UInt8) : Nat :=
  if first < 0x80 then 1
  else if first < 0xC2 then 0
  else if first < 0xE0 then 2
  else if first < 0xF0 then 3
  else if first < 0xF5 then 4
  else 0

/-- Whether an octet continues a character. -/
def isContinuation (b : UInt8) : Bool := 0x80 ≤ b && b ≤ 0xBF

/-- The range the second octet of a character must lie in, by its first octet. -/
def secondRange (first : UInt8) : UInt8 × UInt8 :=
  if first = 0xE0 then (0xA0, 0xBF)
  else if first = 0xED then (0x80, 0x9F)
  else if first = 0xF0 then (0x90, 0xBF)
  else if first = 0xF4 then (0x80, 0x8F)
  else (0x80, 0xBF)

/-- Whether an octet may follow a first octet. -/
def secondFits (first b : UInt8) : Bool :=
  (secondRange first).1 ≤ b && b ≤ (secondRange first).2

/-- The code point of a character from its octets, marker bits removed. -/
def codePoint (first : UInt8) (tail : List UInt8) : Nat :=
  let lead := match tail.length with
    | 0 => first.toNat
    | 1 => first.toNat % 0x20
    | 2 => first.toNat % 0x10
    | _ => first.toNat % 0x08
  tail.foldl (fun acc b => acc * 64 + b.toNat % 64) lead

/-- Checks the continuation octets of a character of width `w` whose first octet is `first`:
the character's octets after the first, or how many octets were looked at before one failed
(`none` when the input ended first). -/
def continuation (first : UInt8) (w : Nat) (rest : Bytes) : Except (Option Nat) (List UInt8) :=
  let need := w - 1
  let tail := rest.take need
  let bad := (List.range need).find? fun i =>
    match tail[i]? with
    | some b => !(if i = 0 then secondFits first b else isContinuation b)
    | none => false
  match bad with
  | some i => .error (some (i + 1))
  | none => if tail.length < need then .error none else .ok tail

/-- Decodes UTF-8 octets into characters, or says where and how they fail. The position of
every character read so far is counted in `offset`. -/
def decodeFrom (offset : Nat) : Bytes → Except Utf8Fault (List Char)
  | [] => .ok []
  | first :: rest =>
    let w := width first
    if w = 0 then .error ⟨offset, some 1⟩
    else
      match continuation first w rest with
      | .error len => .error ⟨offset, len⟩
      | .ok tail =>
        match decodeFrom (offset + w) (rest.drop (w - 1)) with
        | .error f => .error f
        | .ok cs => .ok (Char.ofNat (codePoint first tail) :: cs)
termination_by bs => bs.length
decreasing_by simp only [List.length_cons, List.length_drop]; omega

/-- Decodes UTF-8 octets into a string. -/
def decode (bs : Bytes) : Except Utf8Fault String :=
  (decodeFrom 0 bs).map String.ofList

end Utf8

end Ebml
