import Ebml.Tokens.Parse

/-!
# Reading token trees back into printed form

A reader consumes token trees from the front and writes the trees of the syntax it recognised
as a syntax tree prints back, every operator as one token, so it decides both whether the input
is well formed and how it is spaced again. Errors carry the usual parser's messages, and a group
not read to its end is reported only once the whole input has been read.
-/

namespace Ebml

namespace Syntax

open Tokens

/-- The state of a reader: the trees still to read, the trees written so far (newest first), and
the delimiter of the first group that was closed with trees unread. -/
structure Reading where
  input : List TokenTree
  written : List TokenTree := []
  unread : Option Delimiter := none

/-- A reader of token trees that writes trees back and fails with a message. -/
abbrev Reader (α : Type) := StateT Reading (Except String) α

namespace Reader

/-- Runs a reader on trees: its result, and the final state. -/
def run {α : Type} (r : Reader α) (ts : List TokenTree) : Except String (α × Reading) :=
  StateT.run r { input := ts }

/-- The trees still to read. -/
def rest : Reader (List TokenTree) := do return (← get).input

/-- Whether all trees have been read. -/
def atEnd : Reader Bool := do return (← get).input.isEmpty

/-- Fails with a message that says first when the input has ended. -/
def fail {α : Type} (msg : String) : Reader α := do
  if ← atEnd then throw ("unexpected end of input, " ++ msg) else throw msg

/-- Fails with a message as it is. -/
def failPlain {α : Type} (msg : String) : Reader α := throw msg

/-- Writes a tree. -/
def write (t : TokenTree) : Reader Unit :=
  modify fun r => { r with written := t :: r.written }

/-- Writes trees in order. -/
def writeAll (ts : List TokenTree) : Reader Unit :=
  modify fun r => { r with written := ts.reverse ++ r.written }

/-- Drops the next tree. -/
def skip : Reader Unit :=
  modify fun r => { r with input := r.input.drop 1 }

/-- The next tree, if any. -/
def peekTree : Reader (Option TokenTree) := do return (← get).input.head?

/-- The tree after the next `n`, if any. -/
def peekAt (n : Nat) : Reader (Option TokenTree) := do return (← get).input[n]?

/-- Moves the next tree to the written trees unchanged. -/
def copy : Reader Unit := do
  match ← peekTree with
  | some t => skip; write t
  | none => pure ()

/-- Tries a reader; on failure the state is left as it was and nothing is returned. -/
def attempt {α : Type} (r : Reader α) : Reader (Option α) := do
  let saved ← get
  match r.run saved.input with
  | .ok (a, after) =>
    set { after with written := after.written ++ saved.written,
                     unread := saved.unread <|> after.unread }
    return some a
  | .error _ => return none

/-- Whether a reader would succeed here; nothing is consumed. -/
def succeeds {α : Type} (r : Reader α) : Reader Bool := do
  let saved ← get
  match r.run saved.input with
  | .ok _ => return true
  | .error _ => return false

/-- Runs a reader and returns, beside its result, the trees it wrote, which are taken back out
of the written trees. -/
def capture {α : Type} (r : Reader α) : Reader (α × List TokenTree) := do
  let before := (← get).written
  modify fun s => { s with written := [] }
  let a ← r
  let w := (← get).written
  modify fun s => { s with written := before }
  return (a, w.reverse)

/-- An upper bound on the steps of a loop that reads a tree in each step but the last. -/
def steps : Reader Nat := do return (← rest).length + 1

/-- Runs a reader, then writes the trees it consumed as they were, in place of what it wrote.
This is how syntax kept verbatim is printed. -/
def verbatim {α : Type} (r : Reader α) : Reader α := do
  let before ← get
  let a ← r
  let after ← get
  let consumed := before.input.take (before.input.length - after.input.length)
  set { after with written := consumed.reverse ++ before.written }
  return a

/-- Replaces what was written since an earlier state by the trees consumed since then, as they
were. -/
def keepVerbatimSince (before : Reading) : Reader Unit := do
  let after ← get
  let consumed := before.input.take (before.input.length - after.input.length)
  set { after with written := consumed.reverse ++ before.written }

/-! ## Punctuation and words -/

/-- Whether the next trees are the characters of the operator `s`, all but the last joint. -/
def peekOp (s : String) : Reader Bool := do
  let rec go : List Char → List TokenTree → Bool
    | [], _ => true
    | [c], .punct d _ :: _ => c = d
    | c :: cs, .punct d .joint :: rest => c = d && go cs rest
    | _, _ => false
  return go s.toList (← rest)

/-- Whether the operator `s` starts after the next `n` trees. -/
def peekOpAt (n : Nat) (s : String) : Reader Bool := do
  let rec go : List Char → List TokenTree → Bool
    | [], _ => true
    | [c], .punct d _ :: _ => c = d
    | c :: cs, .punct d .joint :: rest => c = d && go cs rest
    | _, _ => false
  return go s.toList ((← rest).drop n)

/-- The trees of the operator `s` as printed: all characters joint but the last. -/
def opTrees (s : String) : List TokenTree :=
  let cs := s.toList
  cs.zipIdx.map fun (c, i) => .punct c (if i + 1 = cs.length then .alone else .joint)

/-- Reads the operator `s` and writes it. -/
def op (s : String) : Reader Unit := do
  if ← peekOp s then
    modify fun r => { r with input := r.input.drop s.length }
    writeAll (opTrees s)
  else failPlain ("expected `" ++ s ++ "`")

/-- Reads the operator `s` if it is next; says whether it was. -/
def optionalOp (s : String) : Reader Bool := do
  if ← peekOp s then
    op s
    return true
  else return false

/-- Reads the operator `s` without writing it. -/
def dropOp (s : String) : Reader Unit := do
  if ← peekOp s then modify fun r => { r with input := r.input.drop s.length }
  else failPlain ("expected `" ++ s ++ "`")

/-- Whether the tree `n` places ahead is the plain identifier `w`. -/
def peekWordAt (n : Nat) (w : String) : Reader Bool := do
  match ← peekAt n with
  | some (.ident name false) => return name = w
  | _ => return false

/-- Whether the next tree is the plain identifier `w`. -/
def peekWord (w : String) : Reader Bool := peekWordAt 0 w

/-- Reads the plain identifier `w` and writes it. -/
def keyword (w : String) : Reader Unit := do
  if ← peekWord w then copy else fail ("expected `" ++ w ++ "`")

/-- Reads the plain identifier `w` if it is next; says whether it was. -/
def optionalKeyword (w : String) : Reader Bool := do
  if ← peekWord w then
    copy
    return true
  else return false

/-- Whether the tree `n` places ahead is an identifier that may be a name. -/
def peekIdentAt (n : Nat) : Reader Bool := do
  match ← peekAt n with
  | some (.ident name raw) => return acceptsAsName name raw
  | _ => return false

/-- Whether the next tree is an identifier that may be a name. -/
def peekIdent : Reader Bool := peekIdentAt 0

/-- Whether the tree `n` places ahead is any identifier, keywords included. -/
def peekAnyIdentAt (n : Nat) : Reader Bool := do
  match ← peekAt n with
  | some (.ident _ _) => return true
  | _ => return false

/-- Reads a name (an identifier that is not a keyword) and writes it. -/
def ident : Reader (String × Bool) := do
  match ← peekTree with
  | some (.ident n raw) =>
    if acceptsAsName n raw then
      copy
      return (n, raw)
    else fail ("expected identifier, found keyword `" ++ TokenTree.identText n raw ++ "`")
  | _ => fail "expected identifier"

/-- Reads any identifier, keywords included, and writes it. -/
def anyIdent : Reader (String × Bool) := do
  match ← peekTree with
  | some (.ident n raw) =>
    copy
    return (n, raw)
  | _ => fail "expected identifier"

/-- Whether a lifetime starts `n` trees ahead: a joint quote and an identifier. -/
def peekLifetimeAt (n : Nat) : Reader Bool := do
  match (← rest).drop n with
  | .punct '\'' .joint :: .ident _ _ :: _ => return true
  | _ => return false

/-- Whether a lifetime is next. -/
def peekLifetime : Reader Bool := peekLifetimeAt 0

/-- Reads a lifetime and writes it: its name and whether it is raw. -/
def lifetime : Reader (String × Bool) := do
  match ← rest with
  | .punct '\'' .joint :: .ident n raw :: _ =>
    copy
    copy
    return (n, raw)
  | _ => fail "expected lifetime"

/-! ## Literals -/

/-- Whether the text of a literal is a number. -/
def isNumber (text : String) : Bool :=
  match text.toList with
  | c :: _ => '0' ≤ c ∧ c ≤ '9'
  | [] => false

/-- Whether a literal starts `n` trees ahead: a literal, `true` or `false`, or a minus sign
before a number. -/
def peekLitAt (n : Nat) : Reader Bool := do
  match (← rest).drop n with
  | .literal _ :: _ => return true
  | .ident "true" false :: _ | .ident "false" false :: _ => return true
  | .punct '-' _ :: .literal text :: _ => return isNumber text
  | _ => return false

/-- Whether a literal is next. -/
def peekLit : Reader Bool := peekLitAt 0

/-- Whether a string literal is next. -/
def peekStr : Reader Bool := do
  match ← peekTree with
  | some (.literal text) => return literalKind text = .str
  | _ => return false

/-- Whether an integer literal is next (a negative one included). -/
def peekInt : Reader Bool := do
  match ← rest with
  | .literal text :: _ => return (integerValue text).isSome
  | .punct '-' _ :: .literal text :: _ => return (integerValue ("-" ++ text)).isSome
  | _ => return false

/-- Whether a float literal is next (a number that is not an integer). -/
def peekFloat : Reader Bool := do
  match ← peekTree with
  | some (.literal text) => return isNumber text && (integerValue text).isNone
  | _ => return false

/-- Reads a literal and writes it; a negative number is written as a minus sign and the
number. -/
def lit : Reader Unit := do
  match ← rest with
  | .literal _ :: _ => copy
  | .ident "true" false :: _ | .ident "false" false :: _ => copy
  | .punct '-' _ :: .literal text :: _ =>
    if isNumber text then
      skip
      write (.punct '-' .alone)
      copy
    else fail "expected literal"
  | _ => fail "expected literal"

/-! ## Groups -/

/-- Whether the tree `n` places ahead is a group with the given delimiter. -/
def peekGroupAt (n : Nat) (d : Delimiter) : Reader Bool := do
  match ← peekAt n with
  | some (.group e _) => return d = e
  | _ => return false

/-- Whether the next tree is a group with the given delimiter. -/
def peekGroup (d : Delimiter) : Reader Bool := peekGroupAt 0 d

/-- Reads a group with the given delimiter: the reader runs on its trees, and the group is
written with what it wrote. Trees it leaves unread are remembered. -/
def group {α : Type} (d : Delimiter) (inner : Reader α) : Reader α := do
  match ← peekTree with
  | some (.group e ts) =>
    if d = e then
      skip
      let outer ← get
      match inner.run ts with
      | .ok (a, after) =>
        let unread := outer.unread <|> after.unread <|>
          (if after.input.isEmpty then none else some d)
        set { outer with unread := unread }
        write (.group d after.written.reverse)
        return a
      | .error e => throw e
    else fail (Parser.groupExpected d)
  | _ => fail (Parser.groupExpected d)

/-- Reads a group with any delimiter and writes it as it was: the body of a macro or of an
attribute's argument list. -/
def delimited : Reader Delimiter := do
  match ← peekTree with
  | some (.group d _) =>
    if d = .none then fail "expected delimiter"
    else
      copy
      return d
  | _ => fail "expected delimiter"

/-! ## Choices -/

/-- The message for a choice that failed, naming what was expected. -/
def expectedMessage (atEnd : Bool) (names : List String) : String :=
  match names with
  | [] => if atEnd then "unexpected end of input" else "unexpected token"
  | [a] => (if atEnd then "unexpected end of input, " else "") ++ "expected " ++ a
  | [a, b] => (if atEnd then "unexpected end of input, " else "") ++ "expected " ++ a ++ " or " ++ b
  | _ => (if atEnd then "unexpected end of input, " else "") ++ "expected one of: " ++
    ", ".intercalate names

/-- Fails because none of the named alternatives is next. -/
def expected {α : Type} (names : List String) : Reader α := do
  throw (expectedMessage (← atEnd) names)

/-- Requires that all trees have been read. -/
def finish (d : Delimiter) : Reader Unit := do
  if ← atEnd then return () else throw (Parser.leftoverMessage d)

end Reader

end Syntax

end Ebml
