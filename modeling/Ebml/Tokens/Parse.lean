import Ebml.Tokens.Lexer

/-!
# Parsing token trees

A parser reads token trees from the front and fails with the usual parser's messages (``expected
`:` `` for missing punctuation, `unexpected end of input, …` at the end of a sequence). A group is
parsed on its own, a keyword is not accepted as a name, literals are classified by their first
characters, and an integer literal gives its value and suffix.
-/

namespace Ebml

namespace Tokens

/-- A parser of token trees. -/
abbrev Parser (α : Type) := StateT (List TokenTree) (Except String) α

/-- The keywords, which are not names. -/
def keywords : List String :=
  ["_", "abstract", "as", "async", "await", "become", "box", "break", "const", "continue",
   "crate", "do", "dyn", "else", "enum", "extern", "false", "final", "fn", "for", "if", "impl",
   "in", "let", "loop", "macro", "match", "mod", "move", "mut", "override", "priv", "pub", "ref",
   "return", "Self", "self", "static", "struct", "super", "trait", "true", "try", "type",
   "typeof", "unsafe", "unsized", "use", "virtual", "where", "while", "yield"]

/-- Whether an identifier may be a name: a raw identifier always may, a plain one unless it is
a keyword. -/
def acceptsAsName (name : String) (raw : Bool) : Bool :=
  raw || !keywords.contains name

namespace Parser

/-- Runs a parser on a sequence of trees: its result and the trees it left. -/
def parse {α : Type} (p : Parser α) (ts : List TokenTree) : Except String (α × List TokenTree) :=
  p.run ts

/-- Fails with a message, saying first that the input has ended if it has. -/
def errorHere {α : Type} (msg : String) : Parser α := do
  if (← get).isEmpty then throw ("unexpected end of input, " ++ msg) else throw msg

/-- Whether all trees have been read. -/
def atEnd : Parser Bool := do return (← get).isEmpty

/-- The next tree, without reading it. -/
def peek : Parser (Option TokenTree) := do return (← get).head?

/-- Whether the next tree is the punctuation character `c`. -/
def peekPunct (c : Char) : Parser Bool := do
  match (← get) with
  | .punct d _ :: _ => return c = d
  | _ => return false

/-- Whether the next trees are the punctuation characters of `s`, all but the last joint. -/
def peekOperator (s : String) : Parser Bool := do
  let rec go : List Char → List TokenTree → Bool
    | [], _ => true
    | [c], .punct d _ :: _ => c = d
    | c :: cs, .punct d .joint :: rest => c = d && go cs rest
    | _, _ => false
  return go s.toList (← get)

/-- Reads the punctuation characters of `s`, all but the last joint. -/
def operator (s : String) : Parser Unit := do
  if ← peekOperator s then modify (List.drop s.length)
  else throw ("expected `" ++ s ++ "`")

/-- Reads the punctuation `s` if it is next; says whether it was. -/
def optionalOperator (s : String) : Parser Bool := do
  if ← peekOperator s then
    modify (List.drop s.length)
    return true
  else return false

/-- Whether the next tree is the plain identifier `word`. -/
def peekWord (word : String) : Parser Bool := do
  match (← get) with
  | .ident name false :: _ => return name = word
  | _ => return false

/-- Reads the plain identifier `word`, a keyword. -/
def keyword (word : String) : Parser Unit := do
  if ← peekWord word then modify List.tail
  else errorHere ("expected `" ++ word ++ "`")

/-- Whether the next tree is an identifier that may be a name. -/
def peekName : Parser Bool := do
  match (← get) with
  | .ident name raw :: _ => return acceptsAsName name raw
  | _ => return false

/-- Reads a name: an identifier that is not a keyword. -/
def name : Parser (String × Bool) := do
  match (← get) with
  | .ident n raw :: rest =>
    if acceptsAsName n raw then
      set rest
      return (n, raw)
    else throw ("expected identifier, found keyword `" ++ TokenTree.identText n raw ++ "`")
  | _ => errorHere "expected identifier"

/-- Reads any identifier, keywords included. -/
def anyIdent : Parser (String × Bool) := do
  match (← get) with
  | .ident n raw :: rest =>
    set rest
    return (n, raw)
  | _ => errorHere "expected identifier"

/-- Whether the next tree is a group with the given delimiter. -/
def peekGroup (d : Delimiter) : Parser Bool := do
  match (← get) with
  | .group e _ :: _ => return d = e
  | _ => return false

/-- The message for a missing group. -/
def groupExpected : Delimiter → String
  | .paren => "expected parentheses"
  | .bracket => "expected square brackets"
  | .brace => "expected curly braces"
  | .none => "expected invisible group"

/-- Reads a group with the given delimiter: its trees. -/
def group (d : Delimiter) : Parser (List TokenTree) := do
  match (← get) with
  | .group e ts :: rest =>
    if d = e then
      set rest
      return ts
    else errorHere (groupExpected d)
  | _ => errorHere (groupExpected d)

/-- Whether the next trees are a lifetime: a joint quote and an identifier. -/
def peekLifetime : Parser Bool := do
  match (← get) with
  | .punct '\'' .joint :: .ident _ _ :: _ => return true
  | _ => return false

/-- Reads a lifetime: its name. -/
def lifetime : Parser String := do
  match (← get) with
  | .punct '\'' .joint :: .ident n _ :: rest =>
    set rest
    return n
  | _ => errorHere "expected lifetime"

/-- The message for trees left over in a sequence that should have ended, by the delimiter of
the group holding them. -/
def leftoverMessage : Delimiter → String
  | .paren => "unexpected token, expected `)`"
  | .brace => "unexpected token, expected `\x7d`"
  | .bracket => "unexpected token, expected `]`"
  | .none => "unexpected token"

/-- Requires that all trees have been read. -/
def finish (d : Delimiter) : Parser Unit := do
  if ← atEnd then return () else throw (leftoverMessage d)

end Parser

/-- The kinds of literals. -/
inductive LiteralKind where
  | str
  | byteStr
  | byte
  | cStr
  | char
  | number
  | bool
  | other
  deriving DecidableEq

/-- The kind of a literal, by its first characters. -/
def literalKind (text : String) : LiteralKind :=
  match text.toList with
  | '"' :: _ | 'r' :: _ => .str
  | 'b' :: '"' :: _ | 'b' :: 'r' :: _ => .byteStr
  | 'b' :: '\'' :: _ => .byte
  | 'c' :: _ => .cStr
  | '\'' :: _ => .char
  | c :: _ => if ('0' ≤ c ∧ c ≤ '9') ∨ c = '-' then .number else .other
  | [] => .other

/-- The unescaped contents of a quoted string literal after its opening quote, up to its closing
quote. An escaped line break skips the whitespace after it; a carriage return before a line feed
is dropped. -/
def unescape : Nat → List Char → List Char
  | 0, _ => []
  | _ + 1, [] => []
  | fuel + 1, c :: rest =>
    if c = '"' then []
    else if c = '\r' then
      match rest with
      | '\n' :: r => '\n' :: unescape fuel r
      | _ => c :: unescape fuel rest
    else if c = '\\' then
      match rest with
      | 'x' :: a :: b :: r =>
        Char.ofNat ((Lexer.hexValue a).getD 0 * 16 + (Lexer.hexValue b).getD 0) :: unescape fuel r
      | 'u' :: r =>
        match Lexer.unicodeEscape r with
        | some (v, r) => Char.ofNat v :: unescape fuel r
        | none => unescape fuel r
      | 'n' :: r => '\n' :: unescape fuel r
      | 'r' :: r => '\r' :: unescape fuel r
      | 't' :: r => '\t' :: unescape fuel r
      | '0' :: r => '\x00' :: unescape fuel r
      | '\n' :: r | '\r' :: r =>
        unescape fuel (r.dropWhile fun c => c = ' ' ∨ c = '\t' ∨ c = '\n' ∨ c = '\r')
      | e :: r => e :: unescape fuel r
      | [] => []
    else c :: unescape fuel rest

/-- The value of a string literal, raw or not. -/
def stringValue (text : String) : String :=
  match text.toList with
  | 'r' :: rest =>
    let inner := (rest.dropWhile (· = '#')).drop 1
    String.ofList (inner.take (inner.length - 1 - inner.reverse.findIdx (· = '"')))
  | '"' :: rest => String.ofList (unescape (rest.length + 1) rest)
  | _ => ""

/-- Whether a literal's suffix is an identifier. -/
def isSuffix (cs : List Char) : Bool :=
  match cs with
  | c :: rest => Unicode.isIdentStart c && rest.all Unicode.isIdentContinue
  | [] => false

/-- The exponent after an `e` in a decimal literal: `true` if the literal is a float, `false` if
the `e` starts its suffix. -/
def exponentMakesFloat : List Char → Bool → Bool
  | [], hasExp => hasExp
  | c :: rest, hasExp =>
    if c = '_' then exponentMakesFloat rest hasExp
    else if c = '-' ∨ c = '+' then true
    else if '0' ≤ c ∧ c ≤ '9' then exponentMakesFloat rest true
    else hasExp && isSuffix (c :: rest)

/-- An integer literal's value and suffix, or nothing for a float or a malformed number. -/
def integerValue (text : String) : Option (Int × String) :=
  let cs := text.toList
  let (negative, cs) := match cs with
    | '-' :: rest => (true, rest)
    | _ => (false, cs)
  let (base, cs) := match cs with
    | '0' :: 'x' :: rest => (16, rest)
    | '0' :: 'o' :: rest => (8, rest)
    | '0' :: 'b' :: rest => (2, rest)
    | _ => (10, cs)
  let rec go : List Char → Nat → Bool → Option (Nat × List Char × Bool)
    | [], value, hasDigit => some (value, [], hasDigit)
    | c :: rest, value, hasDigit =>
      let digit : Option Nat :=
        if '0' ≤ c ∧ c ≤ '9' then some (c.toNat - '0'.toNat)
        else if base > 10 ∧ 'a' ≤ c ∧ c ≤ 'f' then some (c.toNat - 'a'.toNat + 10)
        else if base > 10 ∧ 'A' ≤ c ∧ c ≤ 'F' then some (c.toNat - 'A'.toNat + 10)
        else none
      match digit with
      | some d => if d ≥ base then none else go rest (value * base + d) true
      | none =>
        if c = '_' then go rest value hasDigit
        else if c = '.' ∧ base = 10 then none
        else if (c = 'e' ∨ c = 'E') ∧ base = 10 then
          if exponentMakesFloat rest false then none else some (value, c :: rest, hasDigit)
        else some (value, c :: rest, hasDigit)
  match cs with
  | c :: _ =>
    if base = 10 ∧ ¬('0' ≤ c ∧ c ≤ '9') then none
    else
      match go cs 0 false with
      | some (value, suffix, true) =>
        if suffix.isEmpty || isSuffix suffix then
          some (if negative then -(value : Int) else value, String.ofList suffix)
        else none
      | _ => none
  | [] => none

namespace Parser

/-- Reads a string literal: its value. -/
def stringLit : Parser String := do
  match (← get) with
  | .literal text :: rest =>
    if literalKind text = .str then
      set rest
      return stringValue text
    else throw "expected string literal"
  | _ => errorHere "expected string literal"

/-- Reads an integer literal, possibly after a minus sign: whether it is negative, and its
magnitude. -/
def integerLit : Parser (Bool × Nat) := do
  let ts ← get
  let found : Option ((Bool × Nat) × List TokenTree) :=
    match ts with
    | .literal text :: rest => (integerValue text).map fun (v, _) => ((false, v.toNat), rest)
    | .punct '-' _ :: .literal text :: rest =>
      (integerValue text).map fun (v, _) => ((true, v.toNat), rest)
    | _ => none
  match found with
  | some (v, rest) =>
    set rest
    return v
  | none => errorHere "expected integer literal"

end Parser

/-- Reads an integer as an unsigned 64-bit number, with the messages of decimal parsing: a
minus sign is not a digit, even before zero. -/
def toUnsigned64 (negative : Bool) (v : Nat) : Except String Nat :=
  if negative then .error "invalid digit found in string"
  else if v ≥ Nat.pow 2 64 then .error "number too large to fit in target type"
  else .ok v

end Tokens

end Ebml
