import Ebml.Syntax.Patterns

/-!
# Expressions and statements

Expressions are read by precedence climbing over prefix operators, atoms and their trailers;
comparisons do not chain, a range is never a left operand, and a cast takes no trailer. Where a
struct literal is not allowed a path before braces ends the expression, a block-like expression
ends a statement unless `.` or `?` follows, and the grammar's readers are tied together level by
level by fuel.
-/

namespace Ebml

namespace Syntax

open Tokens Reader

/-- Reads a block of statements in braces, without inner attributes. -/
def plainBlock (g : Grammar) : Reader Unit :=
  group .brace g.statements

/-- Whether an expression may start here. -/
def canBeginExpr : Reader Bool := do
  return (← peekAnyIdentAt 0) || (← peekGroup .paren) || (← peekGroup .bracket) ||
    (← peekGroup .brace) || (← peekLit) || ((← peekOp "!") && !(← peekOp "!=")) ||
    ((← peekOp "-") && !(← peekOp "-=") && !(← peekOp "->")) ||
    ((← peekOp "*") && !(← peekOp "*=")) || ((← peekOp "|") && !(← peekOp "|=")) ||
    ((← peekOp "&") && !(← peekOp "&=")) || (← peekOp "..") ||
    ((← peekOp "<") && !(← peekOp "<=") && !(← peekOp "<<=")) || (← peekOp "::") ||
    (← peekLifetime) || (← peekOp "#")

/-- The binary operators with their precedence, in the order they are tried: a compound
assignment before the operator it starts with, and a two-character operator before its first
character. -/
def binaryOperators : List (String × Precedence) :=
  [("+=", .assign), ("-=", .assign), ("*=", .assign), ("/=", .assign), ("%=", .assign),
   ("^=", .assign), ("&=", .assign), ("|=", .assign), ("<<=", .assign), (">>=", .assign),
   ("&&", .and), ("||", .or), ("<<", .shift), (">>", .shift), ("==", .compare),
   ("<=", .compare), ("!=", .compare), (">=", .compare), ("+", .sum), ("-", .sum),
   ("*", .product), ("/", .product), ("%", .product), ("^", .bitXor), ("&", .bitAnd),
   ("|", .bitOr), ("<", .compare), (">", .compare)]

/-- The binary operator next, if any, with its precedence. -/
def peekBinaryOp : Reader (Option (String × Precedence)) := do
  for (s, p) in binaryOperators do
    if ← peekOp s then return some (s, p)
  return none

/-- The precedence of what follows an operand: a binary operator, an assignment, a range, a
cast, or nothing that continues the expression. -/
def peekPrecedence : Reader Precedence := do
  match ← peekBinaryOp with
  | some (_, p) => return p
  | none =>
    if (← peekOp "=") && !(← peekOp "=>") then return .assign
    else if ← peekOp ".." then return .range
    else if ← peekWord "as" then return .cast
    else return .jump

/-- Reads the limits of a range expression, `..` or `..=`; says whether it is closed. -/
def rangeLimits : Reader Bool := do
  if ← peekOp "..=" then
    op "..="
    return true
  else if (← peekOp "..") && !(← peekOp "...") then
    op ".."
    return false
  else if ← peekOp ".." then expected ["`..=`"]
  else expected ["`..`"]

/-- Whether an open range ends here, before what follows it. -/
def rangeEndsHere (allowStruct : Bool) : Reader Bool := do
  return (← atEnd) || (← peekOp ",") || (← peekOp ";") ||
    ((← peekOp ".") && !(← peekOp "..")) || (← peekOp "?") || (← peekOp "=>") ||
    (!allowStruct && (← peekGroup .brace)) || (← peekOp "=") || (← peekOp "+") ||
    (← peekOp "/") || (← peekOp "%") || (← peekOp "^") || (← peekOp ">") || (← peekOp "<=") ||
    (← peekOp "!=") || (← peekOp "-=") || (← peekOp "*=") || (← peekOp "&=") ||
    (← peekOp "|=") || (← peekOp "<<=") || (← peekWord "as")

/-- Fails if a trailer follows a cast. -/
def checkCast : Reader Unit := do
  let kind : Option String ←
    if (← peekOp ".") && !(← peekOp "..") then
      if ← peekWordAt 1 "await" then pure (some "`.await`")
      else if (← peekIdentAt 1) && ((← peekGroupAt 2 .paren) || (← peekOpAt 2 "::")) then
        pure (some "a method call")
      else pure (some "a field access")
    else if ← peekOp "?" then pure (some "`?`")
    else if ← peekGroup .bracket then pure (some "indexing")
    else if ← peekGroup .paren then pure (some "a function call")
    else pure none
  match kind with
  | some k => fail ("casts cannot be followed by " ++ k)
  | none => pure ()

/-- Reads the right operand of an operator of the given precedence, with whatever binds more
tightly after it. -/
def operand (g : Grammar) (allowStruct : Bool) (prec : Precedence) : Reader Unit := do
  let mut rhs ← g.unary allowStruct
  for _ in List.range (← steps) do
    let next ← peekPrecedence
    if next.rank > prec.rank || (next == prec && prec == .assign) then
      let before := (← rest).length
      rhs ← g.exprTail rhs allowStruct next
      if (← rest).length == before then break
    else break

/-- Reads the end of a range, unless the range is open and ends here. -/
def rangeEnd (g : Grammar) (closed allowStruct : Bool) : Reader Unit := do
  if !closed && (← rangeEndsHere allowStruct) then return
  operand g allowStruct .range

/-- Reads what follows a left operand: operators binding at least as tightly as `base`. -/
def exprTailWith (g : Grammar) (lhs : ExprForm) (allowStruct : Bool) (base : Precedence) :
    Reader ExprForm := do
  let mut lhs := lhs
  for _ in List.range (← steps) do
    if lhs == .range then break
    match ← peekBinaryOp with
    | some (s, p) =>
      if p.lt base then break
      if p == .compare && lhs == .comparison then fail "comparison operators cannot be chained"
      op s
      operand g allowStruct p
      lhs := if p == .compare then .comparison else .other
    | none =>
      if base.le .assign && (← peekOp "=") && !(← peekOp "=>") then
        op "="
        operand g allowStruct .assign
        lhs := .other
      else if base.le .range && (← peekOp "..") then
        let closed ← rangeLimits
        rangeEnd g closed allowStruct
        lhs := .range
      else if base.le .cast && (← peekWord "as") then
        keyword "as"
        let _ ← g.type false
        checkCast
        lhs := .other
      else break
  return lhs

/-- Reads expressions separated by commas, to the end of their group. -/
def exprList (g : Grammar) : Reader Unit := do
  for _ in List.range (← steps) do
    if ← atEnd then break
    let _ ← g.expr true
    if ← atEnd then break
    op ","

/-- Reads a field of a struct literal: a member, and `:` and a value unless it is a name alone. -/
def fieldValue (g : Grammar) : Reader Unit := do
  let _ ← outerAttrs g
  let named ← member
  if (← peekOp ":") || !named then
    op ":"
    let _ ← g.expr true

/-- Reads the braces of a struct literal: fields, then optionally `..` and a base. -/
def structLiteral (g : Grammar) : Reader Unit :=
  group .brace (do
    for _ in List.range (← steps) do
      if ← atEnd then break
      if ← peekOp ".." then
        op ".."
        if !(← atEnd) then let _ ← g.expr true
        break
      fieldValue g
      if ← atEnd then break
      op ",")

/-- Reads an expression that starts with a path: a macro invocation, a struct literal or the
path alone. -/
def pathExpr (g : Grammar) (allowStruct : Bool) : Reader ExprForm := do
  let (qself, form) ← qualifiedPath g true
  if !qself && (← peekOp "!") && !(← peekOp "!=") && form.modStyle then
    op "!"
    let d ← delimited
    return .macroCall (d == .brace)
  if allowStruct && (← peekGroup .brace) then
    structLiteral g
  return .other

/-- The trees inside the parentheses of the unit value, which is printed as `(/*ERROR*/)`. -/
def unitMarker : List TokenTree := [.literal "/*ERROR*/"]

/-- Reads parentheses: the unit value, an expression in parentheses, or a tuple. -/
def parenOrTuple (g : Grammar) : Reader ExprForm := do
  group .paren (do
    if ← atEnd then
      writeAll unitMarker
      return
    let _ ← g.expr true
    for _ in List.range (← steps) do
      if ← atEnd then break
      op ","
      if ← atEnd then break
      let _ ← g.expr true)
  return .other

/-- Reads square brackets: an array, or a value repeated `; n` times. -/
def arrayOrRepeat (g : Grammar) : Reader ExprForm := do
  group .bracket (do
    if ← atEnd then return
    let _ ← g.expr true
    if (← atEnd) || (← peekOp ",") then
      for _ in List.range (← steps) do
        if ← atEnd then break
        op ","
        if ← atEnd then break
        let _ ← g.expr true
    else if ← peekOp ";" then
      op ";"
      let _ ← g.expr true
    else fail "expected `,` or `;`")
  return .other

/-- Reads a parameter of a closure: a pattern and an optional type. -/
def closureParam (g : Grammar) : Reader Unit := do
  let _ ← outerAttrs g
  let _ ← g.pattern false
  if ← peekOp ":" then
    op ":"
    let _ ← g.type true

/-- Reads a closure: its binder and modifiers, its parameters between bars, and either a return
type and a block or a body expression. -/
def closure (g : Grammar) (allowStruct : Bool) : Reader ExprForm := do
  let _ ← binder g
  let _ ← optionalKeyword "const"
  let _ ← optionalKeyword "static"
  let _ ← optionalKeyword "async"
  let _ ← optionalKeyword "move"
  op "|"
  for _ in List.range (← steps) do
    if ← peekOp "|" then break
    closureParam g
    if ← peekOp "|" then break
    op ","
  op "|"
  if ← peekOp "->" then
    op "->"
    let _ ← g.type true
    plainBlock g
  else let _ ← g.expr allowStruct
  return .other

/-- Reads `break`, with an optional label and value. -/
def breakExpr (g : Grammar) (allowStruct : Bool) : Reader ExprForm := do
  keyword "break"
  if (← peekLifetime) && (← peekOpAt 2 ":") then
    let _ ← g.expr true
    failPlain "parentheses required"
  if ← peekLifetime then let _ ← lifetime
  if (← canBeginExpr) && (allowStruct || !(← peekGroup .brace)) then
    let _ ← g.expr true
  return .other

/-- Reads an `if` expression with its `else if` and `else` branches. -/
def ifExpr (g : Grammar) : Reader ExprForm := do
  for _ in List.range (← steps) do
    keyword "if"
    let _ ← g.expr false
    plainBlock g
    if !(← peekWord "else") then break
    keyword "else"
    if ← peekWord "if" then continue
    else if ← peekGroup .brace then
      plainBlock g
      break
    else expected ["`if`", "curly braces"]
  return .blockLike

/-- Reads a `while` loop after its label. -/
def whileExpr (g : Grammar) : Reader ExprForm := do
  keyword "while"
  let _ ← g.expr false
  braceBlock g
  return .blockLike

/-- Reads a `for` loop after its label. -/
def forExpr (g : Grammar) : Reader ExprForm := do
  keyword "for"
  let _ ← g.pattern true
  keyword "in"
  let _ ← g.expr false
  braceBlock g
  return .blockLike

/-- Reads a `loop` after its label. -/
def loopExpr (g : Grammar) : Reader ExprForm := do
  keyword "loop"
  braceBlock g
  return .blockLike

/-- Reads the arms of a match, to the end of their group: attributes, a pattern, a guard, `=>`
and a body, with a comma after a body that is not block-like unless it is the last. -/
def matchArms (g : Grammar) : Reader Unit := do
  for _ in List.range (← steps) do
    if ← atEnd then break
    let _ ← outerAttrs g
    let _ ← g.pattern true
    if ← peekWord "if" then
      keyword "if"
      let _ ← g.expr true
    op "=>"
    let body ← g.statementExpr
    if body != .blockLike && !(← atEnd) then op ","
    else let _ ← optionalOp ","

/-- Reads a `match` expression. -/
def matchExpr (g : Grammar) : Reader ExprForm := do
  keyword "match"
  let _ ← g.expr false
  group .brace (do
    innerAttrs g
    matchArms g)
  return .blockLike

/-- Reads a labeled loop or block. -/
def labeled (g : Grammar) : Reader ExprForm := do
  let _ ← lifetime
  op ":"
  if ← peekWord "while" then whileExpr g
  else if ← peekWord "for" then forExpr g
  else if ← peekWord "loop" then loopExpr g
  else if ← peekGroup .brace then
    braceBlock g
    return .blockLike
  else fail "expected loop or block expression"

/-- Reads `let` in an expression: a pattern, `=`, and a value binding more tightly than `&&`. -/
def letExpr (g : Grammar) (allowStruct : Bool) : Reader ExprForm := do
  keyword "let"
  let _ ← g.pattern true
  op "="
  let lhs ← g.unary allowStruct
  let _ ← g.exprTail lhs allowStruct .compare
  return .other

/-- Reads an atom: a literal, a block of some kind, a closure, a path, a group, a jump, a loop,
a conditional, a range without start, `_` or a labeled block. -/
def atomExpr (g : Grammar) (allowStruct : Bool) : Reader ExprForm := do
  if ← peekLit then
    lit
    return .other
  if (← peekWord "async") &&
      ((← peekGroupAt 1 .brace) || ((← peekWordAt 1 "move") && (← peekGroupAt 2 .brace))) then
    keyword "async"
    let _ ← optionalKeyword "move"
    plainBlock g
    return .other
  if (← peekWord "try") && (← peekGroupAt 1 .brace) then
    keyword "try"
    plainBlock g
    return .blockLike
  if (← peekOp "|") || (← peekWord "move") ||
      ((← peekWord "for") && (← peekOpAt 1 "<") && ((← peekLifetimeAt 2) || (← peekOpAt 2 ">"))) ||
      ((← peekWord "const") && !(← peekGroupAt 1 .brace)) || (← peekWord "static") ||
      ((← peekWord "async") && ((← peekOpAt 1 "|") || (← peekWordAt 1 "move"))) then
    return ← closure g allowStruct
  if (← peekWord "builtin") && (← peekOpAt 1 "#") then
    let before ← get
    keyword "builtin"
    op "#"
    let _ ← ident
    group .paren (modify fun r => { r with input := [] })
    keepVerbatimSince before
    return .verbatim
  if (← peekIdent) || (← peekOp "::") || (← peekOp "<") || (← peekWord "self") ||
      (← peekWord "Self") || (← peekWord "super") || (← peekWord "crate") ||
      ((← peekWord "try") && ((← peekOpAt 1 "!") || (← peekOpAt 1 "::"))) then
    return ← pathExpr g allowStruct
  if ← peekGroup .paren then return ← parenOrTuple g
  if ← peekWord "break" then return ← breakExpr g allowStruct
  if ← peekWord "continue" then
    keyword "continue"
    if ← peekLifetime then let _ ← lifetime
    return .other
  if ← peekWord "return" then
    keyword "return"
    if ← canBeginExpr then let _ ← g.expr true
    return .other
  if ← peekWord "become" then
    let before ← get
    keyword "become"
    let _ ← g.expr true
    keepVerbatimSince before
    return .verbatim
  if ← peekGroup .bracket then return ← arrayOrRepeat g
  if ← peekWord "let" then return ← letExpr g allowStruct
  if ← peekWord "if" then return ← ifExpr g
  if ← peekWord "while" then return ← whileExpr g
  if ← peekWord "for" then return ← forExpr g
  if ← peekWord "loop" then return ← loopExpr g
  if ← peekWord "match" then return ← matchExpr g
  if ← peekWord "yield" then
    keyword "yield"
    if ← canBeginExpr then let _ ← g.expr true
    return .other
  if ← peekWord "unsafe" then
    keyword "unsafe"
    braceBlock g
    return .blockLike
  if ← peekWord "const" then
    keyword "const"
    braceBlock g
    return .blockLike
  if ← peekGroup .brace then
    braceBlock g
    return .blockLike
  if ← peekOp ".." then
    let closed ← rangeLimits
    rangeEnd g closed allowStruct
    return .range
  if ← peekWord "_" then
    copy
    return .other
  if ← peekLifetime then return ← labeled g
  fail "expected an expression"

/-- Reads the positions of a tuple index written as a float literal, `t.0.1`: each is a member.
Says whether the literal ended with a dot, which then stands before a further member. -/
def tupleIndices (text : String) : Reader Bool := do
  let trailing := text.endsWith "."
  let body := if trailing then text.dropEnd 1 |>.toString else text
  let parts := body.splitOn "."
  for (part, i) in parts.zipIdx do
    if i > 0 then write (.punct '.' .alone)
    match integerValue part with
    | some (v, suffix) =>
      if !suffix.isEmpty then failPlain "expected unsuffixed integer"
      else if v ≥ Int.pow 2 32 then failPlain "number too large to fit in target type"
      else write (.literal (toString v))
    | none => failPlain "expected integer literal"
  if trailing then write (.punct '.' .alone)
  return trailing

/-- Reads the trailers after an atom: calls, `.await`, method calls, fields, tuple indices,
indexing and `?`. -/
def trailers (g : Grammar) (form : ExprForm) : Reader ExprForm := do
  let mut form := form
  for _ in List.range (← steps) do
    if ← peekGroup .paren then
      group .paren (exprList g)
      form := .other
    else if (← peekOp ".") && !(← peekOp "..") && form != .range then
      op "."
      form := .other
      match ← peekTree with
      | some (.literal text) =>
        if isNumber text && (integerValue text).isNone then
          skip
          if !(← tupleIndices text) then continue
      | _ => pure ()
      if ← peekWord "await" then
        keyword "await"
        continue
      let named ← member
      let turbofish := named && (← peekOp "::")
      if turbofish then
        op "::"
        let _ ← angleArgs g
      if named && (turbofish || (← peekGroup .paren)) then
        group .paren (exprList g)
    else if ← peekGroup .bracket then
      group .bracket (do let _ ← g.expr true)
      form := .other
    else if (← peekOp "?") && form != .range then
      op "?"
      form := .other
    else break
  return form

/-- Reads a unary expression: attributes, prefix operators, an atom and its trailers. -/
def unaryExpr (g : Grammar) (allowStruct : Bool) : Reader ExprForm := do
  let before ← get
  let attrs ← outerAttrs g
  if ← peekOp "&" then
    op "&"
    if (← peekWord "raw") && ((← peekWordAt 1 "mut") || (← peekWordAt 1 "const")) then
      keyword "raw"
      if !(← optionalKeyword "mut") then keyword "const"
    else let _ ← optionalKeyword "mut"
    let _ ← g.unary allowStruct
    return .other
  if (← peekOp "*") || (← peekOp "!") || (← peekOp "-") then
    match ← peekTree with
    | some (.punct c _) =>
      skip
      write (.punct c .alone)
    | _ => pure ()
    let _ ← g.unary allowStruct
    return .other
  let atom ← atomExpr g allowStruct
  let form ← trailers g atom
  if form == .verbatim then
    keepVerbatimSince before
    return .other
  if !attrs.isEmpty && form == .range then
    failPlain "attributes are not allowed on range expressions starting with `..`"
  return form

/-- Reads the expression of a statement or match arm: a block-like expression ends it unless a
trailer follows. -/
def statementExprWith (g : Grammar) : Reader ExprForm := do
  let _ ← outerAttrs g
  let form ←
    if ← peekWord "if" then ifExpr g
    else if ← peekWord "while" then whileExpr g
    else if (← peekWord "for") &&
        !((← peekOpAt 1 "<") && ((← peekLifetimeAt 2) || (← peekOpAt 2 ">"))) then forExpr g
    else if ← peekWord "loop" then loopExpr g
    else if ← peekWord "match" then matchExpr g
    else if (← peekWord "try") && (← peekGroupAt 1 .brace) then
      keyword "try"
      plainBlock g
      pure .blockLike
    else if ← peekWord "unsafe" then
      keyword "unsafe"
      braceBlock g
      pure .blockLike
    else if (← peekWord "const") && (← peekGroupAt 1 .brace) then
      keyword "const"
      braceBlock g
      pure .blockLike
    else if ← peekGroup .brace then
      braceBlock g
      pure .blockLike
    else if ← peekLifetime then labeled g
    else g.unary true
  if form != .blockLike then return ← g.exprTail form true .jump
  if ((← peekOp ".") && !(← peekOp "..")) || (← peekOp "?") then
    let form ← trailers g form
    return ← g.exprTail form true .jump
  return form

/-- The number of trees a module-style path takes here, if one is next. -/
def modPathLength : Reader (Option Nat) := do
  let saved ← get
  match modPath.run saved.input with
  | .ok (_, after) => return some (saved.input.length - after.input.length)
  | .error _ => return none

/-- Whether an item starts here. -/
def peekItem : Reader Bool := do
  let staticItem := (← peekWord "static") &&
    ((← peekWordAt 1 "mut") ||
      ((← peekIdentAt 1) &&
        !((← peekWordAt 1 "async") && ((← peekWordAt 2 "move") || (← peekOpAt 2 "|")))))
  let constItem := (← peekWord "const") &&
    !((← peekGroupAt 1 .brace) || (← peekWordAt 1 "static") ||
      ((← peekWordAt 1 "async") &&
        !((← peekWordAt 2 "unsafe") || (← peekWordAt 2 "extern") || (← peekWordAt 2 "fn"))) ||
      (← peekWordAt 1 "move") || (← peekOpAt 1 "|"))
  return (← peekWord "pub") || ((← peekWord "crate") && !(← peekOpAt 1 "::")) ||
    (← peekWord "extern") || (← peekWord "use") || staticItem || constItem ||
    ((← peekWord "unsafe") && !(← peekGroupAt 1 .brace)) ||
    ((← peekWord "async") &&
      ((← peekWordAt 1 "unsafe") || (← peekWordAt 1 "extern") || (← peekWordAt 1 "fn"))) ||
    (← peekWord "fn") || (← peekWord "mod") || (← peekWord "type") || (← peekWord "struct") ||
    (← peekWord "enum") || ((← peekWord "union") && (← peekIdentAt 1)) ||
    ((← peekWord "auto") && (← peekWordAt 1 "trait")) || (← peekWord "trait") ||
    ((← peekWord "default") && ((← peekWordAt 1 "impl") || (← peekWordAt 1 "unsafe"))) ||
    (← peekWord "impl") || (← peekWord "macro")

/-- Whether a constant or static item with a plain name and type is next: `const X:` or
`static mut X:`. -/
def peekValueItem : Reader Bool := do
  if ← peekWord "const" then
    return ((← peekIdentAt 1) || (← peekWordAt 1 "_")) && (← peekOpAt 2 ":") &&
      !(← peekOpAt 2 "::")
  if ← peekWord "static" then
    let n := if ← peekWordAt 1 "mut" then 2 else 1
    return (← peekIdentAt n) && (← peekOpAt (n + 1) ":") && !(← peekOpAt (n + 1) "::")
  return false

/-- Reads a constant or static item: its keyword, name, type, value and `;`. One without a value
is kept as written. -/
def valueItem (g : Grammar) : Reader Unit := do
  let before ← get
  if ← peekWord "const" then
    keyword "const"
    let _ ← anyIdent
  else
    keyword "static"
    let _ ← optionalKeyword "mut"
    let _ ← ident
  op ":"
  let _ ← g.type true
  if ← peekOp ";" then
    op ";"
    keepVerbatimSince before
    return
  op "="
  let _ ← g.expr true
  op ";"

/-- Reads an item inside a block as written: up to and including a `;` or a group in braces. -/
def itemAsWritten : Reader Unit := do
  for _ in List.range (← steps) do
    match ← peekTree with
    | none => break
    | some t =>
      copy
      match t with
      | .punct ';' _ => break
      | .group .brace _ => break
      | _ => pure ()

/-- Reads a `let` statement. -/
def localStatement (g : Grammar) : Reader Unit := do
  keyword "let"
  let _ ← g.pattern false
  if ← peekOp ":" then
    op ":"
    let _ ← g.type true
  if ← peekOp "=" then
    op "="
    let _ ← g.expr true
    let trailingBrace := match (← get).written with
      | .group .brace _ :: _ => true
      | _ => false
    if !trailingBrace && (← peekWord "else") then
      keyword "else"
      plainBlock g
  op ";"

/-- Reads one statement; says whether a `;` must follow it before another statement. -/
def statement (g : Grammar) : Reader Bool := do
  let _ ← outerAttrs g
  let mut itemMacro := false
  match ← modPathLength with
  | some n =>
    if ← peekOpAt n "!" then
      if (← peekIdentAt (n + 1)) || (← peekWordAt (n + 1) "try") then itemMacro := true
      else if (← peekGroupAt (n + 1) .brace) &&
          !(((← peekOpAt (n + 2) ".") && !(← peekOpAt (n + 2) "..")) ||
            (← peekOpAt (n + 2) "?")) then
        let _ ← modPath
        op "!"
        let _ ← delimited
        let _ ← optionalOp ";"
        return false
  | none => pure ()
  if ← peekWord "let" then
    localStatement g
    return false
  if itemMacro || (← peekItem) then
    if !itemMacro && (← peekValueItem) then valueItem g else itemAsWritten
    return false
  let form ← g.statementExpr
  if ← optionalOp ";" then return false
  match form with
  | .blockLike => return false
  | .macroCall braced => return !braced
  | _ => return true

/-- Reads statements to the end of their group. -/
def statementsWith (g : Grammar) : Reader Unit := do
  for _ in List.range (← steps) do
    for _ in List.range (← steps) do
      if !(← peekOp ";") then break
      op ";"
    if ← atEnd then break
    let needsSemi ← statement g
    if ← atEnd then break
    if needsSemi then fail "unexpected token, expected `;`"

end Syntax

/-! ## The grammar, level by level

Each level of the grammar reads one level of nesting with the readers of this library and hands
what is nested to the level below. A level reads at least one tree before it calls the level
below it, save for a bounded number of calls, so eight levels per tree of the input (nested trees
counted) and a few more are always enough; below the last level every reader fails. -/

namespace Syntax

open Tokens Reader

/-- The level of the grammar above a given one. -/
def Grammar.next (g : Grammar) : Grammar where
  type allowPlus := typeWith g allowPlus
  bound allowPrecise allowConst := boundWith g allowPrecise allowConst
  expr allowStruct := do
    let lhs ← unaryExpr g allowStruct
    exprTailWith g lhs allowStruct .jump
  unary allowStruct := unaryExpr g allowStruct
  exprTail lhs allowStruct base := exprTailWith g lhs allowStruct base
  statementExpr := statementExprWith g
  statements := statementsWith g
  pattern alternatives := if alternatives then multiPattern g true else singlePattern g

/-- The grammar with the given number of levels. -/
def grammar : Nat → Grammar
  | 0 => .exhausted
  | n + 1 => (grammar n).next

mutual
/-- The number of trees, nested ones included. -/
def treeCount : List TokenTree → Nat
  | [] => 0
  | t :: rest => treeSize t + treeCount rest

/-- The number of trees in a tree, itself included. -/
def treeSize : TokenTree → Nat
  | .group _ ts => 1 + treeCount ts
  | _ => 1
end

/-- Runs a reader written against the grammar on trees, with levels enough for them. Trees left
unread inside a group are reported before trees left over at the end. -/
def readAll {α : Type} (r : Grammar → Reader α) (ts : List TokenTree) : Except String α := do
  let (a, after) ← (r (grammar (8 * treeCount ts + 16))).run ts
  match after.unread with
  | some d => throw (Parser.leftoverMessage d)
  | none => pure ()
  if !after.input.isEmpty then throw (Parser.leftoverMessage .none)
  return a

end Syntax

end Ebml
