import Ebml.Syntax.Attrs

/-!
# Paths, bounds and types

A path is `::`-separated segments with generic arguments, after `::` in an expression, possibly
qualified as `<T as Trait>::Name`, and a type path may end in `Fn(u8) -> u8`. Bounds are
lifetimes, traits and `use<…>`, and types are read with the usual parser's lookahead: tuples,
`fn` pointers, paths and macros, trait objects, arrays and slices, pointers, references, `!`,
`impl` traits and `_`.
-/

namespace Ebml

namespace Syntax

open Tokens Reader

/-- The arguments of a path segment: none, in angle brackets (and whether there were none
inside), or in parentheses. -/
inductive SegmentArgs where
  | none
  | angle (empty : Bool)
  | paren
  deriving DecidableEq, Inhabited

/-- What a caller needs to know about a path just read. -/
structure PathForm where
  leadingColon : Bool := false
  segments : Nat := 1
  /-- Whether no segment has arguments. -/
  modStyle : Bool := true
  lastArgs : SegmentArgs := .none
  deriving Inhabited

/-- Whether the last segment has no arguments (or empty angle brackets). -/
def PathForm.lastArgsEmpty (p : PathForm) : Bool :=
  match p.lastArgs with
  | .none => true
  | .angle empty => empty
  | .paren => false

/-- Whether a path may name an associated item in a generic argument: one segment, no leading
`::`, and no parenthesized arguments. -/
def PathForm.simple (p : PathForm) : Bool :=
  p.segments = 1 && !p.leadingColon && p.lastArgs != .paren

/-- A generic parameter as printed, in pieces: its attributes, its name, and its bounds, type
or default (each empty when absent). -/
inductive GenericParam where
  | lifetime (attrs : List TokenTree) (name : String × Bool) (bounds : List TokenTree)
  | type (attrs : List TokenTree) (name : String × Bool) (bounds : List TokenTree)
      (default : List TokenTree)
  | const (attrs : List TokenTree) (name : String × Bool) (ty : List TokenTree)
      (default : List TokenTree)
  deriving Inhabited

/-- The trees of a lifetime. -/
def lifetimeTrees (name : String × Bool) : List TokenTree :=
  [.punct '\'' .joint, .ident name.1 name.2]

/-- A colon and bounds, when there are bounds. -/
def colonBounds (bounds : List TokenTree) : List TokenTree :=
  if bounds.isEmpty then [] else .punct ':' .alone :: bounds

/-- An equals sign and a default, when there is a default. -/
def equalsDefault (default : List TokenTree) : List TokenTree :=
  if default.isEmpty then [] else .punct '=' .alone :: default

/-- A generic parameter printed in full. -/
def GenericParam.trees : GenericParam → List TokenTree
  | .lifetime attrs n bounds => attrs ++ lifetimeTrees n ++ colonBounds bounds
  | .type attrs n bounds default =>
    attrs ++ [.ident n.1 n.2] ++ colonBounds bounds ++ equalsDefault default
  | .const attrs n ty default =>
    attrs ++ [.word "const", .ident n.1 n.2, .punct ':' .alone] ++ ty ++ equalsDefault default

/-- Reads a block in braces: inner attributes, then statements. -/
def braceBlock (g : Grammar) : Reader Unit :=
  group .brace (do innerAttrs g; g.statements)

/-- Reads a constant generic argument: a literal, an identifier or a block. -/
def constArgument (g : Grammar) : Reader Unit := do
  if ← peekLit then lit
  else if ← peekIdent then let _ ← ident
  else if ← peekGroup .brace then braceBlock g
  else expected []

/-- Reads the bounds of a lifetime parameter, up to `,` or `>`. -/
def lifetimeBounds : Reader Unit := do
  for _ in List.range (← steps) do
    if (← peekOp ",") || (← peekOp ">") then break
    let _ ← lifetime
    if !(← peekOp "+") then break
    op "+"

/-- Reads the bounds of a type parameter or associated constraint, up to the given stops. -/
def typeBounds (g : Grammar) (stops : List String) : Reader Unit := do
  for _ in List.range (← steps) do
    let mut stop := false
    for s in stops do
      if ← peekOp s then stop := true
    if stop then break
    let _ ← g.bound false true
    if !(← peekOp "+") then break
    op "+"

/-- Reads a lifetime parameter after its attributes. -/
def lifetimeParam (attrs : List TokenTree) : Reader GenericParam := do
  let (n, _) ← capture lifetime
  let mut bounds : List TokenTree := []
  if ← peekOp ":" then
    dropOp ":"
    let (_, bs) ← capture lifetimeBounds
    bounds := bs
  return .lifetime attrs n bounds

/-- Reads a type parameter after its attributes. -/
def typeParam (g : Grammar) (attrs : List TokenTree) : Reader GenericParam := do
  let (n, _) ← capture ident
  let mut bounds : List TokenTree := []
  if ← peekOp ":" then
    dropOp ":"
    let (_, bs) ← capture (typeBounds g [",", ">", "="])
    bounds := bs
  let mut default : List TokenTree := []
  if ← peekOp "=" then
    dropOp "="
    let (_, d) ← capture (g.type true)
    default := d
  return .type attrs n bounds default

/-- Reads a constant parameter after its attributes. -/
def constParam (g : Grammar) (attrs : List TokenTree) : Reader GenericParam := do
  let _ ← capture (keyword "const")
  let (n, _) ← capture ident
  dropOp ":"
  let (_, ty) ← capture (g.type true)
  let mut default : List TokenTree := []
  if ← peekOp "=" then
    dropOp "="
    let (_, d) ← capture (constArgument g)
    default := d
  return .const attrs n ty default

/-- Reads a generic parameter of a binder `for<…>`. -/
def binderParam (g : Grammar) : Reader GenericParam := do
  let (_, attrs) ← capture (outerAttrs g)
  if ← peekIdent then typeParam g attrs
  else if ← peekLifetime then lifetimeParam attrs
  else if ← peekWord "const" then constParam g attrs
  else expected ["identifier", "lifetime", "`const`"]

/-- Reads a binder `for<…>` if one is next; says whether it was. -/
def binder (g : Grammar) : Reader Bool := do
  if !(← peekWord "for") then return false
  keyword "for"
  op "<"
  for _ in List.range (← steps) do
    if ← peekOp ">" then break
    let p ← binderParam g
    writeAll p.trees
    if ← peekOp ">" then break
    op ","
  op ">"
  return true

/-- Reads one generic argument: a lifetime, a constant, an associated type or constant binding
`Name = …`, an associated constraint `Name: Bounds`, or a type. -/
def genericArgument (g : Grammar) : Reader Unit := do
  if (← peekLifetime) && !(← peekOpAt 2 "+") then
    let _ ← lifetime
    return
  if (← peekLit) || (← peekGroup .brace) then
    constArgument g
    return
  let form ← g.type true
  if form == .simplePath then
    if ← peekOp "=" then
      op "="
      if (← peekLit) || (← peekGroup .brace) then constArgument g
      else let _ ← g.type true
    else if ← peekOp ":" then
      op ":"
      typeBounds g [",", ">"]

/-- Reads generic arguments in angle brackets, after an optional `::`; says whether there were
none inside. -/
def angleArgs (g : Grammar) : Reader Bool := do
  let _ ← optionalOp "::"
  op "<"
  let mut empty := true
  for _ in List.range (← steps) do
    if ← peekOp ">" then break
    genericArgument g
    empty := false
    if ← peekOp ">" then break
    op ","
  op ">"
  return empty

/-- Reads a path segment: its identifier and arguments in angle brackets. In an expression the
arguments need a `::` first. -/
def pathSegment (g : Grammar) (exprStyle : Bool) : Reader SegmentArgs := do
  if (← peekWord "super") || (← peekWord "self") || (← peekWord "crate") ||
      (← peekWord "try") then
    let _ ← anyIdent
    return .none
  if ← peekWord "Self" then let _ ← anyIdent else let _ ← ident
  let angle := (!exprStyle && (← peekOp "<") && !(← peekOp "<=") && !(← peekOp "<<=")) ||
    ((← peekOp "::") && (← peekOpAt 2 "<"))
  if angle then return .angle (← angleArgs g)
  return .none

/-- Records a further segment in a path's form. -/
def PathForm.push (p : PathForm) (args : SegmentArgs) : PathForm :=
  { p with segments := p.segments + 1, modStyle := p.modStyle && args == .none, lastArgs := args }

/-- Reads further segments after `::`, as long as the `::` is not before parentheses. -/
def pathRest (g : Grammar) (exprStyle : Bool) (form : PathForm) : Reader PathForm := do
  let mut form := form
  for _ in List.range (← steps) do
    if !((← peekOp "::") && !(← peekGroupAt 2 .paren)) then break
    op "::"
    form := form.push (← pathSegment g exprStyle)
  return form

/-- Reads a path. -/
def path (g : Grammar) (exprStyle : Bool) : Reader PathForm := do
  let leading ← optionalOp "::"
  let first ← pathSegment g exprStyle
  pathRest g exprStyle { leadingColon := leading, modStyle := first == .none, lastArgs := first }

/-- Reads a path that may be qualified, `<T as Trait>::Name`; says whether it was qualified. -/
def qualifiedPath (g : Grammar) (exprStyle : Bool) : Reader (Bool × PathForm) := do
  if ← peekOp "<" then
    op "<"
    let _ ← g.type true
    if ← peekWord "as" then
      keyword "as"
      let _ ← path g false
    op ">"
    op "::"
    let mut form : PathForm := { segments := 0 }
    for _ in List.range (← steps) do
      form := form.push (← pathSegment g exprStyle)
      if !(← peekOp "::") then break
      op "::"
    return (true, form)
  else return (false, ← path g exprStyle)

/-- Reads a return type `-> T`, if there is one. -/
def returnType (g : Grammar) (allowPlus : Bool) : Reader TypeForm := do
  if ← peekOp "->" then
    op "->"
    g.type allowPlus
  else return .other

/-- Reads parenthesized arguments and their return type; says whether the return type was
absent or a parenthesized type, after which associated items may follow. -/
def parenArgs (g : Grammar) : Reader Bool := do
  group .paren (do
    for _ in List.range (← steps) do
      if ← atEnd then break
      let _ ← g.type true
      if ← atEnd then break
      op ",")
  if ← peekOp "->" then
    let out ← returnType g false
    return out == .paren
  else return true

/-- Reads the path of a type, with parenthesized arguments on its last segment. -/
def typePath (g : Grammar) : Reader (Bool × PathForm) := do
  let (qself, form) ← qualifiedPath g false
  let mut form := form
  for _ in List.range (← steps) do
    if !(form.lastArgsEmpty &&
        ((← peekGroup .paren) || ((← peekOp "::") && (← peekGroupAt 2 .paren)))) then break
    if ← peekOp "::" then dropOp "::"
    let assoc ← parenArgs g
    form := { form with modStyle := false, lastArgs := .paren }
    if assoc then form ← pathRest g false form
  return (qself, form)

/-- Reads a trait bound: a binder, a constness, a `?`, a path and parenthesized arguments. Says
whether it is a trait bound proper; a `const` one is kept verbatim by the caller. -/
def traitBound (g : Grammar) (allowConst : Bool) : Reader Bool := do
  let mut binderFound ← binder g
  let condConst ← peekOp "~"
  let uncondConst ← peekWord "const"
  if condConst then
    op "~"
    keyword "const"
  else if allowConst && uncondConst then keyword "const"
  let maybe ← peekOp "?"
  if maybe then op "?"
  if !binderFound && maybe then binderFound ← binder g
  let form ← path g false
  if form.lastArgsEmpty &&
      ((← peekGroup .paren) || ((← peekOp "::") && (← peekGroupAt 2 .paren))) then
    if ← peekOp "::" then dropOp "::"
    let _ ← parenArgs g
  if binderFound && maybe then
    failPlain "`for<...>` binder not allowed with `?` trait polarity modifier"
  return !(condConst || (allowConst && uncondConst))

/-- Reads a precise capture `use<…>`. -/
def preciseCapture : Reader Unit := do
  keyword "use"
  op "<"
  for _ in List.range (← steps) do
    if ← peekLifetime then let _ ← lifetime
    else if (← peekIdent) || (← peekWord "Self") then let _ ← anyIdent
    else if ← peekOp ">" then break
    else expected ["lifetime", "identifier", "`>`"]
    if ← peekOp "," then op ","
    else if ← peekOp ">" then break
    else expected ["`,`", "`>`"]
  op ">"

/-- Reads one bound. -/
def boundWith (g : Grammar) (allowPrecise allowConst : Bool) : Reader BoundForm := do
  if ← peekLifetime then
    let _ ← lifetime
    return .lifetime
  if ← peekWord "use" then
    preciseCapture
    if allowPrecise then return .other
    else failPlain "`use<...>` precise capturing syntax is not allowed here"
  let before ← get
  let proper ←
    if ← peekGroup .paren then group .paren (traitBound g allowConst)
    else traitBound g allowConst
  if proper then return .trait
  let after ← get
  let consumed := before.input.take (before.input.length - after.input.length)
  set { after with written := consumed.reverse ++ before.written }
  return .other

/-- Reads bounds joined by `+`: after each `+` another bound follows only if it can start one. -/
def boundList (g : Grammar) (allowPlus allowPrecise allowConst : Bool) :
    Reader (List BoundForm) := do
  let mut forms : List BoundForm := []
  for _ in List.range (← steps) do
    forms := forms ++ [← g.bound allowPrecise allowConst]
    if !(allowPlus && (← peekOp "+")) then break
    op "+"
    if !((← peekAnyIdentAt 0) || (← peekOp "::") || (← peekOp "?") || (← peekLifetime) ||
        (← peekGroup .paren) || (← peekOp "~")) then break
  return forms

/-- Reads the bounds of a trait object, of which at least one must be a trait. -/
def objectBounds (g : Grammar) (allowPlus : Bool) : Reader Unit := do
  let forms ← boundList g allowPlus false false
  if !forms.contains .trait then
    failPlain "at least one trait is required for an object type"

/-- Reads further bounds after a `+` that follows a first bound written already. -/
def moreBounds (g : Grammar) (allowPlus : Bool) : Reader Bool := do
  let mut more := false
  for _ in List.range (← steps) do
    if !(← peekOp "+") then break
    op "+"
    more := true
    if !allowPlus then
      let _ ← g.bound false false
      continue
    if !((← peekAnyIdentAt 0) || (← peekOp "::") || (← peekOp "?") || (← peekLifetime) ||
        (← peekGroup .paren)) then break
    let _ ← g.bound false false
  return more

/-- Reads a function pointer type after its binder: `unsafe`, `extern "abi"`, `fn`, the
arguments (named or not, with a trailing variadic `...`) and the return type. -/
def bareFn (g : Grammar) : Reader Unit := do
  let _ ← optionalKeyword "unsafe"
  if ← peekWord "extern" then
    keyword "extern"
    if ← peekStr then lit
  keyword "fn"
  group .paren (do
    let mut count := 0
    let mut trailing := true
    for _ in List.range (← steps) do
      if ← atEnd then break
      let _ ← outerAttrs g
      let named := ((← peekIdent) || (← peekWord "_")) && (← peekOpAt 1 ":") &&
        (← peekOpAt 2 "...")
      if trailing && ((← peekOp "...") || named) then
        if (← peekIdent) || (← peekWord "_") then
          let _ ← anyIdent
          op ":"
        op "..."
        let _ ← optionalOp ","
        break
      let hasName := ((← peekIdent) || (← peekWord "_") || (← peekWord "self")) &&
        (← peekOpAt 1 ":") && !(← peekOpAt 1 "::")
      if hasName then
        let _ ← anyIdent
        op ":"
      if count = 0 && !hasName && (← peekWord "self") then copy
      else let _ ← g.type true
      count := count + 1
      trailing := false
      if ← atEnd then break
      op ","
      trailing := true)
  let _ ← returnType g false

/-- Reads a type; the flag allows `+` to join bounds after a path into a trait object. -/
def typeWith (g : Grammar) (allowPlus : Bool) : Reader TypeForm := do
  let mut hasBinder := false
  if ← peekWord "for" then
    let _ ← binder g
    hasBinder := true
    let ok := (← peekIdent) || (← peekWord "fn") || (← peekWord "unsafe") ||
      (← peekWord "extern") || (← peekWord "super") || (← peekWord "self") ||
      (← peekWord "Self") || (← peekWord "crate")
    if !ok || (← peekWord "dyn") then
      expected ["identifier", "`fn`", "`unsafe`", "`extern`", "`super`", "`self`", "`Self`",
        "`crate`"]
  if ← peekGroup .paren then
    -- 0: unit or tuple, 1: parenthesized trait object, 2: `?` bound, 3: one type
    let (kind, first) ← group .paren (do
      if ← atEnd then return (0, TypeForm.other)
      if ← peekLifetime then
        objectBounds g true
        return (1, TypeForm.other)
      if ← peekOp "?" then
        let _ ← traitBound g false
        return (2, TypeForm.other)
      let first ← g.type true
      if ← peekOp "," then
        op ","
        for _ in List.range (← steps) do
          if ← atEnd then break
          let _ ← g.type true
          if ← atEnd then break
          op ","
        return (0, TypeForm.other)
      return (3, first))
    if kind = 0 then return .other
    if kind = 1 then return .paren
    if kind = 2 then
      for _ in List.range (← steps) do
        if !(← peekOp "+") then break
        op "+"
        let _ ← g.bound false false
      return .other
    if allowPlus && (← peekOp "+") &&
        (first == .simplePath || first == .path || first == .bareObject) then
      for _ in List.range (← steps) do
        if !(← peekOp "+") then break
        op "+"
        let _ ← g.bound false false
      return .other
    return .paren
  if (← peekWord "fn") || (← peekWord "unsafe") || (← peekWord "extern") then
    bareFn g
    return .other
  if (← peekIdent) || (← peekWord "super") || (← peekWord "self") || (← peekWord "Self") ||
      (← peekWord "crate") || (← peekOp "::") || (← peekOp "<") then
    let (qself, form) ← typePath g
    if qself then return .other
    if (← peekOp "!") && !(← peekOp "!=") && form.modStyle then
      op "!"
      let _ ← delimited
      return .other
    if hasBinder || (allowPlus && (← peekOp "+")) then
      let more ← if allowPlus then moreBounds g true else pure false
      return if more then .other else .bareObject
    return if form.simple then .simplePath else .path
  if ← peekWord "dyn" then
    let before ← get
    keyword "dyn"
    let star ← peekOp "*"
    if star then op "*"
    objectBounds g allowPlus
    if star then
      let after ← get
      let consumed := before.input.take (before.input.length - after.input.length)
      set { after with written := consumed.reverse ++ before.written }
    return .other
  if ← peekGroup .bracket then
    group .bracket (do
      let _ ← g.type true
      if ← peekOp ";" then
        op ";"
        let _ ← g.expr true)
    return .other
  if ← peekOp "*" then
    op "*"
    if ← peekWord "const" then keyword "const"
    else if ← peekWord "mut" then keyword "mut"
    else expected ["`const`", "`mut`"]
    let _ ← g.type false
    return .other
  if ← peekOp "&" then
    op "&"
    if ← peekLifetime then let _ ← lifetime
    let _ ← optionalKeyword "mut"
    let _ ← g.type false
    return .other
  if ← peekOp "!" then
    op "!"
    return .other
  if ← peekWord "impl" then
    keyword "impl"
    let forms ← boundList g allowPlus true true
    if !forms.contains .trait then failPlain "at least one trait must be specified"
    return .other
  if ← peekWord "_" then
    copy
    return .other
  if ← peekLifetime then
    objectBounds g true
    return .other
  expected ["`for`", "parentheses", "`fn`", "`unsafe`", "`extern`", "identifier", "`::`", "`<`",
    "`dyn`", "square brackets", "`*`", "`&`", "`!`", "`impl`", "`_`", "lifetime"]

end Syntax

end Ebml
