import Ebml.Tokens.Tree
import Ebml.Tokens.Unicode

/-!
# Lexing source text into token trees

The lexer reads source text into token trees by maximal munch: whitespace and nested comments are
skipped, doc comments become `#[doc = "…"]` attributes, brackets make groups, and anywhere else
the longest literal, then a punctuation character, then an identifier is read. Code templates
are lexed the same way, with holes that code generation fills with trees.
-/

namespace Ebml

namespace Tokens

namespace Lexer

/-- Characters that form punctuation. -/
def punctChars : List Char := "~!@#$%^&*-=+|;:,<.>/?'".toList

/-- Whether a character is punctuation. -/
def isPunctChar (c : Char) : Bool := punctChars.contains c

/-- Whether text starts with the characters of `p`. -/
def startsWith (cs : List Char) (p : String) : Bool := p.toList.isPrefixOf cs

/-- The value of a hexadecimal digit. -/
def hexValue (c : Char) : Option Nat :=
  if '0' ≤ c ∧ c ≤ '9' then some (c.toNat - '0'.toNat)
  else if 'a' ≤ c ∧ c ≤ 'f' then some (c.toNat - 'a'.toNat + 10)
  else if 'A' ≤ c ∧ c ≤ 'F' then some (c.toNat - 'A'.toNat + 10)
  else none

/-- Whether a character is a hexadecimal digit. -/
def isHex (c : Char) : Bool := (hexValue c).isSome

/-- An identifier without the raw prefix: its characters and the rest. -/
def identBody : List Char → Option (List Char × List Char)
  | [] => none
  | c :: rest =>
    if Unicode.isIdentStart c then
      let (body, after) := rest.span Unicode.isIdentContinue
      some (c :: body, after)
    else none

/-- Identifiers that may not be raw. -/
def unrawable : List String := ["_", "super", "self", "Self", "crate"]

/-- An identifier, raw or not: its name, whether it is raw, and the rest. -/
def identAny (cs : List Char) : Option (String × Bool × List Char) :=
  let raw := startsWith cs "r#"
  match identBody (if raw then cs.drop 2 else cs) with
  | none => none
  | some (body, rest) =>
    let name := String.ofList body
    if raw && unrawable.contains name then none else some (name, raw, rest)

/-- Skips the identifier that may end a literal. -/
def literalSuffix (cs : List Char) : List Char :=
  match identBody cs with
  | some (_, rest) => rest
  | none => cs

/-- Refuses text that continues an identifier right after a number. -/
def wordBreak (cs : List Char) : Option (List Char) :=
  match cs with
  | c :: _ => if Unicode.isIdentContinue c then none else some cs
  | [] => some cs

/-- `\xHH` in a string or character, with the first digit octal. -/
def asciiEscape : List Char → Option (List Char)
  | a :: b :: rest => if '0' ≤ a ∧ a ≤ '7' ∧ isHex b then some rest else none
  | _ => none

/-- `\xHH` in a byte string or byte. -/
def byteEscape : List Char → Option (List Char)
  | a :: b :: rest => if isHex a ∧ isHex b then some rest else none
  | _ => none

/-- `\xHH` in a C string, which may not be zero. -/
def nonzeroEscape : List Char → Option (List Char)
  | a :: b :: rest => if isHex a ∧ isHex b ∧ ¬(a = '0' ∧ b = '0') then some rest else none
  | _ => none

/-- Whether a number is a Unicode scalar value. -/
def isScalar (n : Nat) : Bool := n ≤ 0x10FFFF && !(0xD800 ≤ n && n ≤ 0xDFFF)

/-- The digits of `\u{…}` after the brace: at most six, underscores allowed after the first. -/
def unicodeDigits : List Char → Nat → Nat → Option (Nat × List Char)
  | [], _, _ => none
  | c :: rest, value, len =>
    if c = '_' ∧ len > 0 then unicodeDigits rest value len
    else if c = '}' ∧ len > 0 then (if isScalar value then some (value, rest) else none)
    else match hexValue c with
      | some d => if len = 6 then none else unicodeDigits rest (value * 16 + d) (len + 1)
      | none => none

/-- `\u{…}`: the code point and the rest. -/
def unicodeEscape : List Char → Option (Nat × List Char)
  | '{' :: rest => unicodeDigits rest 0 0
  | _ => none

/-- The whitespace skipped after a backslash that ends a line: the text from the first other
character on. A carriage return must be followed by a line feed. -/
def lineContinuation : Nat → List Char → Char → Option (List Char)
  | 0, _, _ => none
  | fuel + 1, cs, last =>
    let afterReturn : Option (List Char) :=
      if last = '\r' then (match cs with | '\n' :: r => some r | _ => none) else some cs
    match afterReturn with
    | none => none
    | some [] => none
    | some (c :: r) =>
      if c = ' ' ∨ c = '\t' ∨ c = '\n' ∨ c = '\r' then lineContinuation fuel r c
      else some (c :: r)

/-- Which quoted literal is being read: strings take any character and `\u{…}`; byte strings
take ASCII only; C strings take no NUL. -/
inductive QuoteKind where
  | text
  | bytes
  | cText
  deriving DecidableEq

/-- The simple escapes of a kind of literal. -/
def simpleEscapes : QuoteKind → List Char
  | .cText => ['n', 'r', 't', '\\', '\'', '"']
  | _ => ['n', 'r', 't', '\\', '\'', '"', '0']

/-- The body of a quoted literal after its opening quote, up to and including the closing quote
and suffix. -/
def quoted (k : QuoteKind) : Nat → List Char → Option (List Char)
  | 0, _ => none
  | _ + 1, [] => none
  | fuel + 1, c :: rest =>
    if c = '"' then some (literalSuffix rest)
    else if c = '\r' then
      match rest with
      | '\n' :: r => quoted k fuel r
      | _ => none
    else if c = '\\' then
      match rest with
      | [] => none
      | e :: r =>
        if e = 'x' then
          let escaped := match k with
            | .text => asciiEscape r
            | .bytes => byteEscape r
            | .cText => nonzeroEscape r
          escaped.bind (quoted k fuel)
        else if (simpleEscapes k).contains e then quoted k fuel r
        else if e = 'u' ∧ k ≠ .bytes then
          match unicodeEscape r with
          | some (v, r) => if k = .cText ∧ v = 0 then none else quoted k fuel r
          | none => none
        else if e = '\n' ∨ e = '\r' then (lineContinuation (r.length + 1) r e).bind (quoted k fuel)
        else none
    else if k = .bytes ∧ c.toNat ≥ 0x80 then none
    else if k = .cText ∧ c = '\x00' then none
    else quoted k fuel rest

/-- The hashes and opening quote of a raw literal after its `r`: how many hashes. -/
def rawOpening : List Char → Nat → Option (Nat × List Char)
  | '#' :: rest, n => rawOpening rest (n + 1)
  | '"' :: rest, n => if n > 255 then none else some (n, rest)
  | _, _ => none

/-- The body of a raw literal up to its closing quote and hashes, and its suffix. -/
def rawBody (k : QuoteKind) (hashes : Nat) : List Char → Option (List Char)
  | [] => none
  | '\r' :: '\n' :: rest => rawBody k hashes rest
  | '\r' :: _ => none
  | c :: rest =>
    if c = '"' ∧ (List.replicate hashes '#').isPrefixOf rest then
      some (literalSuffix (rest.drop hashes))
    else if k = .bytes ∧ c.toNat ≥ 0x80 then none
    else if k = .cText ∧ c = '\x00' then none
    else rawBody k hashes rest

/-- A raw literal after its `r`. -/
def rawLiteral (k : QuoteKind) (cs : List Char) : Option (List Char) :=
  (rawOpening cs 0).bind fun (n, rest) => rawBody k n rest

/-- A quoted literal: a string, raw string, byte string, raw byte string, C string or raw C
string. -/
def quotedLiteral (cs : List Char) : Option (List Char) :=
  let fuel := cs.length + 1
  match cs with
  | '"' :: rest => quoted .text fuel rest
  | 'r' :: rest => rawLiteral .text rest
  | 'b' :: '"' :: rest => quoted .bytes fuel rest
  | 'b' :: 'r' :: rest => rawLiteral .bytes rest
  | 'c' :: '"' :: rest => quoted .cText fuel rest
  | 'c' :: 'r' :: rest => rawLiteral .cText rest
  | _ => none

/-- The closing quote of a byte or character literal, and its suffix. -/
def closingQuote : List Char → Option (List Char)
  | '\'' :: rest => some (literalSuffix rest)
  | _ => none

/-- A byte literal after `b'`: one ASCII character or escape, then the closing quote. -/
def byteLiteral : List Char → Option (List Char)
  | '\\' :: 'x' :: rest => (byteEscape rest).bind closingQuote
  | '\\' :: e :: rest =>
    if (simpleEscapes .bytes).contains e then closingQuote rest else none
  | '\\' :: [] => none
  | c :: rest => if c.toNat < 0x80 then closingQuote rest else none
  | [] => none

/-- A character literal after its quote: one character or escape, then the closing quote. -/
def charLiteral : List Char → Option (List Char)
  | '\\' :: 'x' :: rest => (asciiEscape rest).bind closingQuote
  | '\\' :: 'u' :: rest => (unicodeEscape rest).bind fun (_, r) => closingQuote r
  | '\\' :: e :: rest =>
    if (simpleEscapes .text).contains e then closingQuote rest else none
  | '\\' :: [] => none
  | _ :: rest => closingQuote rest
  | [] => none

/-- The digits of an integer, with an optional base prefix. A digit beyond the base refuses the
number; a letter ends a decimal one. -/
def integerDigits (cs : List Char) : Option (List Char) :=
  let (base, body) :=
    if startsWith cs "0x" then (16, cs.drop 2)
    else if startsWith cs "0o" then (8, cs.drop 2)
    else if startsWith cs "0b" then (2, cs.drop 2)
    else (10, cs)
  let rec go : List Char → Bool → Option (List Char)
    | [], empty => if empty then none else some []
    | c :: rest, empty =>
      if '0' ≤ c ∧ c ≤ '9' then
        if c.toNat - '0'.toNat ≥ base then none else go rest false
      else if ('a' ≤ c ∧ c ≤ 'f') ∨ ('A' ≤ c ∧ c ≤ 'F') then
        if base ≤ 10 then (if empty then none else some (c :: rest)) else go rest false
      else if c = '_' then
        if empty ∧ base = 10 then none else go rest empty
      else if empty then none else some (c :: rest)
  go body true

/-- Skips the identifier suffix of a number, then requires a word break. -/
def numberEnd (cs : List Char) : Option (List Char) :=
  match cs with
  | c :: _ =>
    if Unicode.isIdentStart c then
      (identBody cs).bind fun (_, rest) => wordBreak rest
    else wordBreak cs
  | [] => some cs

/-- An integer literal. -/
def integerLiteral (cs : List Char) : Option (List Char) :=
  (integerDigits cs).bind numberEnd

/-- The exponent of a float after its `e`: an optional sign, digits and underscores. Without a
digit the float ends before the `e`, if it had a dot. -/
def exponentDigits (beforeExp : Option (List Char)) :
    List Char → Bool → Bool → Option (List Char)
  | [], _, hasValue => if hasValue then some [] else beforeExp
  | c :: rest, hasSign, hasValue =>
    if c = '+' ∨ c = '-' then
      if hasValue then some (c :: rest)
      else if hasSign then beforeExp
      else exponentDigits beforeExp rest true hasValue
    else if '0' ≤ c ∧ c ≤ '9' then exponentDigits beforeExp rest hasSign true
    else if c = '_' then exponentDigits beforeExp rest hasSign hasValue
    else if hasValue then some (c :: rest) else beforeExp

/-- The digits of a float: a decimal digit, then digits, underscores, at most one dot (not
before another dot or an identifier) and an exponent. A float has a dot or an exponent. -/
def floatDigits (cs : List Char) : Option (List Char) :=
  let rec mantissa : List Char → Bool → Option (List Char)
    | [], hasDot => if hasDot then some [] else none
    | c :: rest, hasDot =>
      if ('0' ≤ c ∧ c ≤ '9') ∨ c = '_' then mantissa rest hasDot
      else if c = '.' then
        if hasDot then some (c :: rest)
        else match rest with
          | d :: _ => if d = '.' ∨ Unicode.isIdentStart d then none else mantissa rest true
          | [] => some []
      else if c = 'e' ∨ c = 'E' then
        exponentDigits (if hasDot then some (c :: rest) else none) rest false false
      else if hasDot then some (c :: rest) else none
  match cs with
  | c :: rest => if '0' ≤ c ∧ c ≤ '9' then mantissa rest false else none
  | [] => none

/-- A float literal. -/
def floatLiteral (cs : List Char) : Option (List Char) :=
  (floatDigits cs).bind numberEnd

/-- Any literal: the rest after it. -/
def literal (cs : List Char) : Option (List Char) :=
  (quotedLiteral cs) <|>
    (if startsWith cs "b'" then byteLiteral (cs.drop 2) else none) <|>
    (match cs with | '\'' :: rest => charLiteral rest | _ => none) <|>
    floatLiteral cs <|> integerLiteral cs

/-- A punctuation character, unless it starts a comment. -/
def punctChar (cs : List Char) : Option (Char × List Char) :=
  if startsWith cs "//" ∨ startsWith cs "/*" then none
  else match cs with
    | c :: rest => if isPunctChar c then some (c, rest) else none
    | [] => none

/-- A punctuation token. The quote of a lifetime must be followed by an identifier that is not
itself a character literal's start. -/
def punct (cs : List Char) : Option (TokenTree × List Char) :=
  match punctChar cs with
  | none => none
  | some (c, rest) =>
    if c = '\'' then
      match identAny rest with
      | none => none
      | some (_, _, after) =>
        if startsWith after "'" ∨ (startsWith after "#" ∧ ¬startsWith rest "r#") then none
        else some (.punct '\'' .joint, rest)
    else
      let spacing := if (punctChar rest).isSome then Spacing.joint else Spacing.alone
      some (.punct c spacing, rest)

/-- Prefixes of literals, which an identifier may not take. -/
def literalPrefixes : List String :=
  ["r\"", "r#\"", "r##", "b\"", "b'", "br\"", "br#", "c\"", "cr\"", "cr#"]

/-- An identifier token. -/
def ident (cs : List Char) : Option (TokenTree × List Char) :=
  if literalPrefixes.any (startsWith cs) then none
  else (identAny cs).map fun (name, raw, rest) => (.ident name raw, rest)

/-- A token that is not a group: a literal, a punctuation character or an identifier. -/
def leaf (cs : List Char) : Option (TokenTree × List Char) :=
  match literal cs with
  | some rest => some (.literal (String.ofList (cs.take (cs.length - rest.length))), rest)
  | none => punct cs <|> ident cs

/-- A line comment's text: up to a line feed, or a carriage return before one. -/
def lineText : List Char → List Char × List Char
  | [] => ([], [])
  | '\n' :: rest => ([], '\n' :: rest)
  | '\r' :: '\n' :: rest => ([], '\n' :: rest)
  | c :: rest => let (t, r) := lineText rest; (c :: t, r)

/-- The inside of a block comment after its opening `/*`, up to the `*/` that closes it:
nested comments are counted. -/
def blockText : List Char → Nat → Option (List Char × List Char)
  | '/' :: '*' :: rest, depth =>
    (blockText rest (depth + 1)).map fun (t, r) => ('/' :: '*' :: t, r)
  | '*' :: '/' :: rest, depth =>
    if depth = 0 then some ([], rest)
    else (blockText rest (depth - 1)).map fun (t, r) => ('*' :: '/' :: t, r)
  | c :: rest, depth => (blockText rest depth).map fun (t, r) => (c :: t, r)
  | [], _ => none

/-- Skips whitespace and comments that are not doc comments. An unclosed block comment is left
for the lexer to refuse. -/
def skipSpace : Nat → List Char → List Char
  | 0, cs => cs
  | fuel + 1, cs =>
    match cs with
    | [] => []
    | c :: rest =>
      if c = '/' then
        if startsWith cs "//" ∧ (¬startsWith cs "///" ∨ startsWith cs "////") ∧ ¬startsWith cs "//!" then
          skipSpace fuel (lineText cs).2
        else if startsWith cs "/**/" then skipSpace fuel (cs.drop 4)
        else if startsWith cs "/*" ∧ (¬startsWith cs "/**" ∨ startsWith cs "/***") ∧ ¬startsWith cs "/*!" then
          match blockText (cs.drop 2) 0 with
          | some (_, r) => skipSpace fuel r
          | none => cs
        else cs
      else if Unicode.isWhitespace c then skipSpace fuel rest
      else cs

/-- Whether a comment has a carriage return that is not followed by a line feed. -/
def hasBareReturn : List Char → Bool
  | [] => false
  | '\r' :: '\n' :: rest => hasBareReturn rest
  | '\r' :: _ => true
  | _ :: rest => hasBareReturn rest

/-- A doc comment: its text, whether it is an inner one, and the rest. -/
def docText (cs : List Char) : Option (List Char × Bool × List Char) :=
  if startsWith cs "//!" then
    let (t, r) := lineText (cs.drop 3)
    some (t, true, r)
  else if startsWith cs "/*!" then
    (blockText (cs.drop 2) 0).map fun (t, r) => (t.drop 1, true, r)
  else if startsWith cs "///" then
    if startsWith (cs.drop 3) "/" then none
    else
      let (t, r) := lineText (cs.drop 3)
      some (t, false, r)
  else if startsWith cs "/**" ∧ ¬startsWith (cs.drop 3) "*" then
    (blockText (cs.drop 2) 0).map fun (t, r) => (t.drop 1, false, r)
  else none

/-- A doc comment as the tokens of its attribute, and the rest. -/
def docComment (cs : List Char) : Option (List TokenTree × List Char) :=
  match docText cs with
  | none => none
  | some (text, inner, rest) =>
    if hasBareReturn text then none
    else
      let body := TokenTree.group .bracket
        [.word "doc", .punct '=' .alone, .literal (stringLiteral (String.ofList text))]
      let bang := if inner then [TokenTree.punct '!' .alone] else []
      some (TokenTree.punct '#' .alone :: bang ++ [body], rest)

/-- The delimiter an opening bracket starts. -/
def opening : Char → Option Delimiter
  | '(' => some .paren
  | '[' => some .bracket
  | '{' => some .brace
  | _ => none

/-- The delimiter a closing bracket ends. -/
def closing : Char → Option Delimiter
  | ')' => some .paren
  | ']' => some .bracket
  | '}' => some .brace
  | _ => none

/-- A group being read: its delimiter and the trees before it, newest first. -/
structure Frame where
  delimiter : Delimiter
  outer : List TokenTree

/-- Reads token trees; `trees` holds the trees of the innermost open group, newest first. Each
step consumes at least one character. -/
def run : Nat → List Char → List Frame → List TokenTree → Option (List TokenTree)
  | 0, _, _, _ => none
  | fuel + 1, cs, stack, trees =>
    let cs := skipSpace (cs.length + 1) cs
    match docComment cs with
    | some (doc, rest) => run fuel rest stack (doc.reverse ++ trees)
    | none =>
      match cs with
      | [] => if stack.isEmpty then some trees.reverse else none
      | c :: rest =>
        match opening c with
        | some d => run fuel rest (⟨d, trees⟩ :: stack) []
        | none =>
          match closing c with
          | some d =>
            match stack with
            | [] => none
            | f :: stack =>
              if f.delimiter = d then run fuel rest stack (.group d trees.reverse :: f.outer)
              else none
          | none =>
            match leaf cs with
            | some (t, rest) => run fuel rest stack (t :: trees)
            | none => none

end Lexer

/-- Lexes source text into token trees; a leading byte order mark is ignored. Fails on text
that is not a token, and on unbalanced brackets. -/
def lex (s : String) : Option (List TokenTree) :=
  let cs := match s.toList with
    | '\uFEFF' :: rest => rest
    | cs => cs
  Lexer.run (cs.length + 1) cs [] []

end Tokens

/-! ## Code templates

Generated code is written as a template: source text in the printed form of token trees, with
holes written `$name`. Filling a template lexes its text and puts in place of each hole the
trees given for its name, at any depth of grouping.

In template text the braces of a brace group are written `⟪` and `⟫`, so that a template
reads as plain text; they become braces before lexing.

Lexing printed trees gives the trees back: printing separates trees by a space except after a
joint character, and the lexer makes a punctuation character joint exactly when another one
follows it at once. So a template prints as the code it spells, with the holes filled in. -/

namespace Tokens

/-- What fills the holes of a template: trees for each name. -/
abbrev Holes := List (String × List TokenTree)

mutual
/-- Fills the holes inside one tree. -/
def fillTree (holes : Holes) : TokenTree → TokenTree
  | .group d ts => .group d (fillAll holes ts)
  | t => t

/-- Fills the holes of a sequence of trees: `$` followed by a named hole is replaced by its
trees. -/
def fillAll (holes : Holes) : List TokenTree → List TokenTree
  | [] => []
  | .punct '$' s :: .ident name raw :: rest =>
    match holes.lookup name with
    | some ts => ts ++ fillAll holes rest
    | none => .punct '$' s :: .ident name raw :: fillAll holes rest
  | t :: rest => fillTree holes t :: fillAll holes rest
end

/-- Template text with its brace marks turned into braces. -/
def templateSource (text : String) : String :=
  text.map fun c => if c = '⟪' then '\x7b' else if c = '⟫' then '\x7d' else c

/-- The trees of a template with its holes filled. -/
def template (text : String) (holes : Holes) : List TokenTree :=
  fillAll holes ((lex (templateSource text)).getD [])

/-- An integer literal with the `usize` suffix. -/
def usizeLiteral (n : Nat) : TokenTree := .literal (toString n ++ "usize")

/-- An integer literal with the `u64` suffix. -/
def u64Literal (n : Nat) : TokenTree := .literal (toString n ++ "u64")

/-- A string literal. -/
def stringTree (s : String) : TokenTree := .literal (stringLiteral s)

/-- A boolean, which is an identifier. -/
def boolTree (b : Bool) : TokenTree := .word (if b then "true" else "false")

end Tokens

end Ebml
