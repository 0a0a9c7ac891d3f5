import Ebml.Error

/-!
# Tags

A tag binds a field to an element and says how to write it: with its natural size, an exact
size, or an unknown size (streamed); whether to leave it out when it holds its zero value; and
whether reading stops after it. Tags are written as text, `Name,option,...`, where the options
are `omitempty`, `stop`, `size=N`, `size=unknown` and its older spelling `inf`. A later size
option overrides an earlier one.
-/

namespace Ebml

/-- The size an element is written with. -/
inductive DeclaredSize where
  /-- The size of the encoded data. -/
  | natural
  /-- Exactly this many octets of data. -/
  | exact (n : Nat)
  /-- An unknown size: the element is streamed. -/
  | unknown
  deriving DecidableEq, Inhabited

/-- How a field is written as an element and read back. -/
structure Tag where
  element : Element
  size : DeclaredSize := .natural
  omitEmpty : Bool := false
  stop : Bool := false
  deriving DecidableEq, Inhabited

/-- The largest value of a 64-bit word. -/
def maxWord : Nat := Nat.pow 2 64 - 1

/-- A decimal digit's value. -/
def digitValue? (c : Char) : Option Nat :=
  if c.isDigit then some (c.toNat - '0'.toNat) else none

/-- Reads an unsigned 64-bit number in decimal: an optional `+`, then at least one digit,
nothing else, and a value that fits in 64 bits. -/
def parseWord? (s : String) : Option Nat :=
  let digits := match s.toList with
    | '+' :: rest => rest
    | cs => cs
  if digits.isEmpty then none
  else
    let value := digits.foldl (fun acc c => acc.bind fun n => (digitValue? c).map (n * 10 + ·))
      (some 0)
    value.bind fun n => if n ≤ maxWord then some n else none

namespace Tag

/-- A tag for `e` with no options. -/
def plain (e : Element) : Tag := { element := e }

/-- Applies one option to a tag being read from `text`. -/
def applyOption (text : String) (t : Tag) (option : String) : Except Error Tag :=
  if option.isEmpty then .error (.invalidTag (.emptyOption text))
  else if option == "omitempty" then .ok { t with omitEmpty := true }
  else if option == "inf" ∨ option == "size=unknown" then .ok { t with size := .unknown }
  else if option == "stop" then .ok { t with stop := true }
  else if option.startsWith "size=" then
    let digits := String.ofList (option.toList.drop 5)
    match parseWord? digits with
    | some n => .ok { t with size := .exact n }
    | none => .error (.invalidTag (.invalidSize digits))
  else .error (.invalidTag (.unknownOption option))

/-- Reads a tag from its text: a schema element's name, then options separated by commas. -/
def parse (text : String) : Except Error Tag :=
  match text.splitOn "," with
  | [] => .error (.unknownElementName "")
  | name :: options =>
    match Element.ofName? name with
    | none => .error (.unknownElementName name)
    | some e => options.foldlM (applyOption text) (plain e)

end Tag

end Ebml
