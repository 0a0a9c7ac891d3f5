import Ebml.Syntax.Grammar

/-!
# Attributes

An attribute is `#[…]` before its item or `#![…]` inside it, holding a module-style path and
then nothing, a delimited group kept as written, or `=` and a value, read as a literal when it is
one and as an expression otherwise; the keyword `unsafe` may wrap the attribute proper.
-/

namespace Ebml

namespace Syntax

open Tokens Reader

/-- The name of an attribute: whether it starts with `::`, and its segments. -/
structure AttrPath where
  leadingColon : Bool
  segments : List (String × Bool)
  deriving Inhabited

/-- Whether a path is the single plain identifier `word`. -/
def AttrPath.isIdent (p : AttrPath) (word : String) : Bool :=
  !p.leadingColon && p.segments == [(word, false)]

/-- What follows an attribute's name: nothing, a group of arguments as written, or `=` and a
value. -/
inductive AttrArgs where
  | none
  | list (delimiter : Delimiter) (trees : List TokenTree)
  | value
  deriving Inhabited

/-- An attribute: its name and what follows it. -/
structure Attr where
  path : AttrPath
  args : AttrArgs
  deriving Inhabited

/-- Whether a module-style path segment is next. -/
def peekModSegment : Reader Bool := do
  return (← peekIdent) || (← peekWord "super") || (← peekWord "self") ||
    (← peekWord "Self") || (← peekWord "crate")

/-- Reads a module-style path. At least one segment is required, and `::` must be followed by
one. -/
def modPath : Reader AttrPath := do
  let leading ← optionalOp "::"
  let mut segments : List (String × Bool) := []
  for _ in List.range (← steps) do
    if !(← peekModSegment) then break
    segments := segments ++ [← anyIdent]
    if !(← peekOp "::") then break
    op "::"
    if !(← peekModSegment) then
      fail "expected path segment after `::`"
  if segments.isEmpty then
    let _ ← ident
    fail "expected identifier"
  return ⟨leading, segments⟩

/-- Reads the path of an attribute, which may be the keyword `unsafe`. -/
def outermostPath : Reader AttrPath := do
  if ← peekWord "unsafe" then
    copy
    return ⟨false, [("unsafe", false)]⟩
  else modPath

/-- Reads the value after `=` in an attribute: a literal if it is the whole value, else an
expression. -/
def metaValue (g : Grammar) : Reader Unit := do
  let wholeLiteral ← succeeds (do lit; if !(← atEnd) then throw "")
  if (← peekLit) && wholeLiteral then lit
  else if (← peekOp "#") && (← peekGroupAt 1 .bracket) then
    fail "unexpected attribute inside of attribute"
  else let _ ← g.expr true

/-- Reads a meta after its path. -/
def metaArgs (g : Grammar) : Reader AttrArgs := do
  match ← peekTree with
  | some (.group d ts) =>
    if d = .none then return .none
    let _ ← delimited
    return .list d ts
  | _ =>
    if ← peekOp "=" then
      op "="
      metaValue g
      return .value
    else return .none

/-- Reads the inside of an attribute's brackets. -/
def attrMeta (g : Grammar) : Reader Attr := do
  let path ← outermostPath
  let args ← metaArgs g
  return ⟨path, args⟩

/-- Reads one outer attribute `#[…]`. -/
def outerAttr (g : Grammar) : Reader Attr := do
  op "#"
  group .bracket (attrMeta g)

/-- Reads the outer attributes at the front. -/
def outerAttrs (g : Grammar) : Reader (List Attr) := do
  let mut attrs : List Attr := []
  for _ in List.range (← steps) do
    if !(← peekOp "#") then break
    attrs := attrs ++ [← outerAttr g]
  return attrs

/-- Reads the inner attributes `#![…]` at the front. -/
def innerAttrs (g : Grammar) : Reader Unit := do
  for _ in List.range (← steps) do
    if !((← peekOp "#") && (← peekOpAt 1 "!")) then break
    op "#"
    op "!"
    let _ ← group .bracket (attrMeta g)

end Syntax

end Ebml
