import Ebml.Tokens.Unicode

/-!
# Token trees

Source code for the code generators is a sequence of token trees: identifiers, punctuation
characters (joint when they form one operator with the next), literals, and delimited groups.
They print as generated code is shown: single spaces, none after a joint character, parentheses
and brackets hugging their contents, braces spaced.
-/

namespace Ebml

namespace Tokens

/-- The delimiters of a group. -/
inductive Delimiter where
  | paren
  | bracket
  | brace
  /-- An invisible group. -/
  | none
  deriving DecidableEq, Inhabited

/-- Whether a punctuation character joins the one after it. -/
inductive Spacing where
  | alone
  | joint
  deriving DecidableEq, Inhabited

/-- A token tree. A literal keeps its text as written; a raw identifier is written with `r#`. -/
inductive TokenTree where
  | group (delimiter : Delimiter) (trees : List TokenTree)
  | ident (name : String) (raw : Bool)
  | punct (c : Char) (spacing : Spacing)
  | literal (text : String)
  deriving Inhabited

namespace TokenTree

/-- A plain identifier. -/
def word (name : String) : TokenTree := ident name false

/-- The text of an identifier as printed. -/
def identText (name : String) (raw : Bool) : String := if raw then "r#" ++ name else name

mutual
/-- Prints one token tree. -/
def print : TokenTree → String
  | group d ts =>
    let inner := printAll ts
    match d with
    | .paren => "(" ++ inner ++ ")"
    | .bracket => "[" ++ inner ++ "]"
    | .brace => if ts.isEmpty then "\x7b \x7d" else "\x7b " ++ inner ++ " \x7d"
    | .none => inner
  | ident name raw => identText name raw
  | punct c _ => c.toString
  | literal text => text

/-- Prints token trees, separated by spaces except after a joint character. -/
def printAll : List TokenTree → String
  | [] => ""
  | [t] => print t
  | t :: rest =>
    let sep := match t with
      | punct _ .joint => ""
      | _ => " "
    print t ++ sep ++ printAll rest
end

end TokenTree

/-- The escaped form of one character of a quoted string, given the character after it: quotes,
backslashes and line breaks take their short escapes, NUL is `\0` (or `\x00` before an octal
digit, when `octalSafe`), and controls, invisible characters and grapheme extenders are written
`\u{…}` in lowercase hexadecimal. A single quote is left as it is. -/
def escapeChar (octalSafe : Bool) (c : Char) (next : Option Char) : String :=
  if c = '\x00' then
    match next with
    | some d => if octalSafe ∧ '0' ≤ d ∧ d ≤ '7' then "\\x00" else "\\0"
    | none => "\\0"
  else if c = '"' then "\\\""
  else if c = '\\' then "\\\\"
  else if c = '\n' then "\\n"
  else if c = '\r' then "\\r"
  else if c = '\t' then "\\t"
  else if Unicode.needsEscape c then
    "\\u" ++ "\x7b" ++ String.ofList (Nat.toDigits 16 c.toNat) ++ "\x7d"
  else c.toString

/-- Escapes the characters of a string. -/
def escapeChars (octalSafe : Bool) : List Char → String
  | [] => ""
  | c :: rest => escapeChar octalSafe c rest.head? ++ escapeChars octalSafe rest

/-- The text of a string literal holding `s`. -/
def stringLiteral (s : String) : String := "\"" ++ escapeChars true s.toList ++ "\""

/-- A string as it is shown for debugging: quoted and escaped like a literal, except that NUL is
always `\0`. -/
def debugString (s : String) : String := "\"" ++ escapeChars false s.toList ++ "\""

end Tokens

end Ebml
