import Ebml.Syntax.Types

/-!
# Patterns

A pattern is a binding, `_`, a literal or path with an optional range, a struct, tuple, slice or
reference pattern, a macro, `box p`, `..` or a half-open range, with alternatives separated by
`|`; a range written with `...` is printed with `..=`.
-/

namespace Ebml

namespace Syntax

open Tokens Reader

/-- Reads an expression path: attributes, then a path that may be qualified. -/
def exprPath (g : Grammar) : Reader Unit := do
  let _ ← outerAttrs g
  let _ ← qualifiedPath g true

/-- Reads a member of a struct: a name, or a position written as an integer without suffix,
which is printed in decimal. Says whether it is a name. -/
def member : Reader Bool := do
  if ← peekIdent then
    let _ ← ident
    return true
  match ← rest with
  | .literal text :: _ =>
    match integerValue text with
    | some (v, suffix) =>
      if !suffix.isEmpty then failPlain "expected unsuffixed integer"
      else if v ≥ Int.pow 2 32 then failPlain "number too large to fit in target type"
      else
        skip
        write (.literal (toString v))
        return false
    | none => fail "expected identifier or integer"
  | .punct '-' _ :: .literal text :: _ =>
    if (integerValue text).isSome then failPlain "invalid digit found in string"
    else fail "expected identifier or integer"
  | _ => fail "expected identifier or integer"

/-- Reads one end of a range pattern, if there is one: a literal, a path or a `const` block. -/
def rangeBound (g : Grammar) : Reader Bool := do
  if (← atEnd) || (← peekOp "|") || (← peekOp "=") || ((← peekOp ":") && !(← peekOp "::")) ||
      (← peekOp ",") || (← peekOp ";") || (← peekWord "if") then
    return false
  if ← peekLit then lit
  else if (← peekIdent) || (← peekOp "::") || (← peekOp "<") || (← peekWord "self") ||
      (← peekWord "Self") || (← peekWord "super") || (← peekWord "crate") then
    exprPath g
  else if ← peekWord "const" then
    keyword "const"
    braceBlock g
  else
    expected ["literal", "identifier", "`::`", "`<`", "`self`", "`Self`", "`super`", "`crate`",
      "`const`"]
  return true

/-- Reads the limits of a range pattern: `..`, `..=`, or `...` printed as `..=`. Says whether
the range is closed. -/
def patternLimits : Reader Bool := do
  if ← peekOp "..=" then
    op "..="
    return true
  else if ← peekOp "..." then
    dropOp "..."
    writeAll (opTrees "..=")
    return true
  else if ← peekOp ".." then
    op ".."
    return false
  else expected ["`..`"]

/-- Reads the rest of a range pattern after its start. -/
def rangeRest (g : Grammar) : Reader PatternForm := do
  let closed ← patternLimits
  let hasEnd ← rangeBound g
  if closed && !hasEnd then fail "expected range upper bound"
  return if hasEnd then .other else .openRange

/-- Reads a binding: `ref`, `mut`, a name and a pattern after `@`. -/
def bindingPattern (g : Grammar) : Reader PatternForm := do
  let _ ← optionalKeyword "ref"
  let _ ← optionalKeyword "mut"
  if ← peekWord "self" then let _ ← anyIdent else let _ ← ident
  if ← peekOp "@" then
    op "@"
    let _ ← g.pattern false
  return .other

/-- Reads the patterns of a tuple, a tuple struct or a slice, separated by commas; fails on an
unparenthesized range with a missing end when `inSlice` is set. -/
def patternList (g : Grammar) (inSlice : Bool) : Reader Unit := do
  for _ in List.range (← steps) do
    if ← atEnd then break
    let form ← g.pattern true
    if inSlice && form == .openRange then
      failPlain "range pattern is not allowed unparenthesized inside slice pattern"
    if ← atEnd then break
    op ","

/-- Reads a field of a struct pattern: `box`, `ref`, `mut` and a name, or a member, `:` and a
pattern. -/
def fieldPattern (g : Grammar) : Reader Unit := do
  let before ← get
  let boxed ← optionalKeyword "box"
  let byRef ← optionalKeyword "ref"
  let mutable ← optionalKeyword "mut"
  let named ←
    if boxed || byRef || mutable then do let _ ← ident; pure true
    else member
  if (!boxed && !byRef && !mutable && (← peekOp ":")) || !named then
    op ":"
    let _ ← g.pattern true
  else if boxed then
    let after ← get
    let consumed := before.input.take (before.input.length - after.input.length)
    set { after with written := consumed.reverse ++ before.written }

/-- Reads the braces of a struct pattern. -/
def structPattern (g : Grammar) : Reader Unit :=
  group .brace (do
    for _ in List.range (← steps) do
      if ← atEnd then break
      let _ ← outerAttrs g
      if ← peekOp ".." then
        op ".."
        break
      fieldPattern g
      if ← atEnd then break
      op ",")

/-- Reads a pattern that starts with a path: a macro, a struct, a tuple struct, a range or the
path alone. -/
def pathPattern (g : Grammar) : Reader PatternForm := do
  let (qself, form) ← qualifiedPath g true
  if !qself && (← peekOp "!") && !(← peekOp "!=") && form.modStyle then
    op "!"
    let _ ← delimited
    return .other
  if ← peekGroup .brace then
    structPattern g
    return .other
  if ← peekGroup .paren then
    group .paren (patternList g false)
    return .other
  if ← peekOp ".." then rangeRest g
  else return .other

/-- Reads a pattern that starts with a literal or `const` block, with an optional range after it. -/
def literalPattern (g : Grammar) : Reader PatternForm := do
  let _ ← rangeBound g
  if ← peekOp ".." then rangeRest g
  else return .other

/-- Reads a pattern without alternatives. -/
def singlePattern (g : Grammar) : Reader PatternForm := do
  let identFirst := (← peekIdent) &&
    ((← peekOpAt 1 "::") || (← peekOpAt 1 "!") || (← peekGroupAt 1 .brace) ||
      (← peekGroupAt 1 .paren) || (← peekOpAt 1 ".."))
  if identFirst || ((← peekWord "self") && (← peekOpAt 1 "::")) || (← peekOp "::") ||
      (← peekOp "<") || (← peekWord "Self") || (← peekWord "super") || (← peekWord "crate") then
    pathPattern g
  else if ← peekWord "_" then
    copy
    return .other
  else if ← peekWord "box" then
    let before ← get
    keyword "box"
    let _ ← g.pattern false
    let after ← get
    let consumed := before.input.take (before.input.length - after.input.length)
    set { after with written := consumed.reverse ++ before.written }
    return .other
  else if (← peekOp "-") || (← peekLit) || (← peekWord "const") then
    literalPattern g
  else if (← peekWord "ref") || (← peekWord "mut") || (← peekWord "self") || (← peekIdent) then
    bindingPattern g
  else if ← peekOp "&" then
    op "&"
    let _ ← optionalKeyword "mut"
    let _ ← g.pattern false
    return .other
  else if ← peekGroup .paren then
    group .paren (patternList g false)
    return .other
  else if ← peekGroup .bracket then
    group .bracket (patternList g true)
    return .other
  else if (← peekOp "..") && !(← peekOp "...") then
    let closed ← (do
      if ← peekOp "..=" then
        op "..="
        return true
      else
        op ".."
        return false)
    let hasEnd ← rangeBound g
    if hasEnd then return .openRange
    if closed then fail "expected range upper bound"
    return .rest
  else
    let dots := if ← peekOp ".." then [] else ["`..`"]
    expected (["identifier", "`::`", "`<`", "`_`", "literal", "`const`", "`ref`", "`mut`", "`&`",
      "parentheses", "square brackets"] ++ dots)

/-- Reads a pattern with alternatives separated by `|`, optionally after a leading `|`. -/
def multiPattern (g : Grammar) (leadingVert : Bool) : Reader PatternForm := do
  let vert ← if leadingVert then optionalOp "|" else pure false
  let first ← singlePattern g
  let more := (← peekOp "|") && !(← peekOp "||") && !(← peekOp "|=")
  if !(vert || more) then return first
  for _ in List.range (← steps) do
    if !((← peekOp "|") && !(← peekOp "||") && !(← peekOp "|=")) then break
    op "|"
    let _ ← singlePattern g
  return .other

end Syntax

end Ebml
