import Ebml.Syntax.Exprs

/-!
# Items

An item is a struct, enum or union declaration read from token trees by the grammar of
`Ebml.Syntax`; code generation keeps its name, its generics as printed and, for a struct with
named fields, each field's name and attributes. Generics are printed back in an impl form
(lifetimes first, bounds kept, defaults dropped) and a type form (names only), and the where
clause only when it has predicates.
-/

namespace Ebml

namespace Codegen

open Tokens Syntax Reader

/-- A named field: its name and attributes. -/
structure Field where
  name : String × Bool
  attrs : List Attr
  deriving Inhabited

/-- The body of an item. -/
inductive Body where
  /-- A struct with named fields. -/
  | named (fields : List Field)
  /-- A tuple struct. -/
  | tuple
  /-- A struct without fields. -/
  | unit
  | enum
  | union
  deriving Inhabited

/-- The generics of an item: its parameters, each with whether a comma followed it, and the
predicates of its where clause as printed. -/
structure Generics where
  params : List (GenericParam × Bool) := []
  predicates : List TokenTree := []
  deriving Inhabited

/-- A declaration of a struct, enum or union. -/
structure Item where
  name : String × Bool
  generics : Generics
  body : Body
  deriving Inhabited

/-- Reads a visibility, if there is one: `pub`, `pub(crate)`, `pub(self)`, `pub(super)` or
`pub(in path)`. Parentheses holding anything else are left for what follows. -/
def visibility : Reader Unit := do
  if !(← peekWord "pub") then return
  keyword "pub"
  match ← peekTree with
  | some (.group .paren [.ident w false]) =>
    if ["crate", "self", "super"].contains w then copy
  | some (.group .paren (.ident "in" false :: _)) =>
    group .paren (do
      keyword "in"
      let _ ← modPath)
  | _ => pure ()

/-- Reads generic parameters in angle brackets, if there are any, each with whether a comma
followed it. -/
def genericParams (g : Grammar) : Reader (List (GenericParam × Bool)) := do
  if !(← peekOp "<") then return []
  dropOp "<"
  let mut params : List (GenericParam × Bool) := []
  for _ in List.range (← steps) do
    if ← peekOp ">" then break
    let (_, attrs) ← capture (outerAttrs g)
    let p ←
      if ← peekLifetime then lifetimeParam attrs
      else if ← peekIdent then typeParam g attrs
      else if ← peekWord "const" then constParam g attrs
      else if ← peekWord "_" then do
        let (n, _) ← capture anyIdent
        pure (GenericParam.type attrs n [] [])
      else expected ["lifetime", "identifier", "`const`"]
    if ← peekOp ">" then
      params := params ++ [(p, false)]
      break
    dropOp ","
    params := params ++ [(p, true)]
  dropOp ">"
  return params

/-- Stops the bounds of a where predicate: the end, braces, `,`, `;`, `=`, or `:` (also `::`
for lifetimes). -/
def boundsEnd (colonPath : Bool) : Reader Bool := do
  return (← atEnd) || (← peekGroup .brace) || (← peekOp ",") || (← peekOp ";") ||
    ((← peekOp ":") && (colonPath || !(← peekOp "::"))) || (← peekOp "=")

/-- Reads a where predicate: a lifetime and its bounds, or a binder, a type and its bounds. -/
def wherePredicate (g : Grammar) : Reader Unit := do
  if (← peekLifetime) && (← peekOpAt 2 ":") then
    let _ ← lifetime
    op ":"
    for _ in List.range (← steps) do
      if ← boundsEnd true then break
      let _ ← lifetime
      if !(← peekOp "+") then break
      op "+"
  else
    let _ ← binder g
    let _ ← g.type true
    op ":"
    for _ in List.range (← steps) do
      if ← boundsEnd false then break
      let _ ← g.bound false true
      if !(← peekOp "+") then break
      op "+"

/-- Reads a where clause after `where`: its predicates as printed. -/
def wherePredicates (g : Grammar) : Reader (List TokenTree) := do
  keyword "where"
  let (_, preds) ← capture (do
    for _ in List.range (← steps) do
      if (← atEnd) || (← peekGroup .brace) || (← peekOp ",") || (← peekOp ";") ||
          ((← peekOp ":") && !(← peekOp "::")) || (← peekOp "=") then break
      wherePredicate g
      if !(← peekOp ",") then break
      op ",")
  return preds

/-- Reads an optional where clause. -/
def whereClause (g : Grammar) : Reader (List TokenTree) := do
  if ← peekWord "where" then wherePredicates g else return []

/-- Reads named fields in braces, separated by commas. -/
def namedFields (g : Grammar) : Reader (List Field) :=
  group .brace (do
    let mut fields : List Field := []
    for _ in List.range (← steps) do
      if ← atEnd then break
      let attrs ← outerAttrs g
      visibility
      let unnamed ← peekWord "_"
      let n ← if unnamed then anyIdent else ident
      dropOp ":"
      if unnamed && ((← peekWord "struct") || ((← peekWord "union") && (← peekGroupAt 1 .brace))) then
        let _ ← anyIdent
        let _ ← namedFieldsInner g
      else let _ ← g.type true
      fields := fields ++ [⟨n, attrs⟩]
      if ← atEnd then break
      op ","
    return fields)
where
  /-- The fields of an anonymous struct or union in a field's type. -/
  namedFieldsInner (g : Grammar) : Reader Unit :=
    group .brace (do
      for _ in List.range (← steps) do
        if ← atEnd then break
        let _ ← outerAttrs g
        visibility
        if ← peekWord "_" then let _ ← anyIdent else let _ ← ident
        dropOp ":"
        let _ ← g.type true
        if ← atEnd then break
        op ",")

/-- Reads unnamed fields in parentheses, separated by commas. -/
def unnamedFields (g : Grammar) : Reader Unit :=
  group .paren (do
    for _ in List.range (← steps) do
      if ← atEnd then break
      let _ ← outerAttrs g
      visibility
      let _ ← g.type true
      if ← atEnd then break
      op ",")

/-- Reads the rest of a struct after its generic parameters: its where clause and body. -/
def structData (g : Grammar) : Reader (List TokenTree × Body) := do
  let hasWhere ← peekWord "where"
  let preds ← whereClause g
  if !hasWhere && (← peekGroup .paren) then
    unnamedFields g
    if ← peekWord "where" then
      let preds ← wherePredicates g
      if ← peekOp ";" then
        dropOp ";"
        return (preds, .tuple)
      else expected ["`;`"]
    if ← peekOp ";" then
      dropOp ";"
      return (preds, .tuple)
    else expected ["`where`", "`;`"]
  else if ← peekGroup .brace then
    let fields ← namedFields g
    return (preds, .named fields)
  else if ← peekOp ";" then
    dropOp ";"
    return (preds, .unit)
  else if hasWhere then expected ["curly braces", "`;`"]
  else expected ["`where`", "parentheses", "curly braces", "`;`"]

/-- Reads the variants of an enum in braces: attributes, visibility, a name, fields, and an
optional discriminant. -/
def variants (g : Grammar) : Reader Unit :=
  group .brace (do
    for _ in List.range (← steps) do
      if ← atEnd then break
      let _ ← outerAttrs g
      visibility
      let _ ← ident
      if ← peekGroup .brace then let _ ← namedFields g
      else if ← peekGroup .paren then unnamedFields g
      if ← peekOp "=" then
        op "="
        let _ ← g.expr true
      if ← atEnd then break
      op ",")

/-- Reads an item. -/
def item (g : Grammar) : Reader Item := do
  let _ ← outerAttrs g
  visibility
  if ← peekWord "struct" then
    keyword "struct"
    let n ← ident
    let params ← genericParams g
    let (preds, body) ← structData g
    return ⟨n, ⟨params, preds⟩, body⟩
  else if ← peekWord "enum" then
    keyword "enum"
    let n ← ident
    let params ← genericParams g
    let preds ← whereClause g
    variants g
    return ⟨n, ⟨params, preds⟩, .enum⟩
  else if ← peekWord "union" then
    keyword "union"
    let n ← ident
    let params ← genericParams g
    let preds ← whereClause g
    let _ ← namedFields g
    return ⟨n, ⟨params, preds⟩, .union⟩
  else expected ["`struct`", "`enum`", "`union`"]

/-- The message when source text does not lex. -/
def lexFailure : String := "cannot parse string into token stream"

/-- Reads an item from source text. -/
def parseItem (source : String) : Except String Item :=
  match lex source with
  | none => .error lexFailure
  | some ts => readAll item ts

/-- A comma. -/
def comma : TokenTree := .punct ',' .alone

namespace Generics

/-- Whether the parameter is a lifetime. -/
def isLifetime : GenericParam → Bool
  | .lifetime .. => true
  | _ => false

/-- The parameters other than lifetimes, after the lifetimes: a comma is put before the first
of them when the lifetimes did not end with one. -/
def afterLifetimes (g : Generics) (lifetimesClosed : Bool) (print : GenericParam → List TokenTree) :
    List TokenTree :=
  let others := g.params.filter fun (p, _) => !isLifetime p
  let rec go : List (GenericParam × Bool) → Bool → List TokenTree
    | [], _ => []
    | (p, c) :: rest, closed =>
      (if closed then [] else [comma]) ++ print p ++ (if c then [comma] else []) ++ go rest true
  go others lifetimesClosed

/-- Whether the lifetimes end with a comma (or there are none). -/
def lifetimesClosed (g : Generics) : Bool :=
  match (g.params.filter fun (p, _) => isLifetime p).getLast? with
  | some (_, c) => c
  | none => true

/-- The generics of an impl: lifetimes first, with attributes and bounds, without defaults. -/
def implTrees (g : Generics) : List TokenTree :=
  if g.params.isEmpty then []
  else
    let lifetimes := g.params.flatMap fun
      | (.lifetime attrs n bounds, c) =>
        attrs ++ lifetimeTrees n ++ colonBounds bounds ++ (if c then [comma] else [])
      | _ => []
    let others := g.afterLifetimes g.lifetimesClosed fun
      | .type attrs (n, raw) bounds _ => attrs ++ [.ident n raw] ++ colonBounds bounds
      | .const attrs (n, raw) ty _ =>
        attrs ++ [.word "const", .ident n raw, .punct ':' .alone] ++ ty
      | .lifetime .. => []
    .punct '<' .alone :: lifetimes ++ others ++ [.punct '>' .alone]

/-- The generics of the type an impl is for: the parameters' names, lifetimes first. -/
def typeTrees (g : Generics) : List TokenTree :=
  if g.params.isEmpty then []
  else
    let lifetimes := g.params.flatMap fun
      | (.lifetime _ n _, c) => lifetimeTrees n ++ (if c then [comma] else [])
      | _ => []
    let others := g.afterLifetimes g.lifetimesClosed fun
      | .type _ (n, raw) _ _ => [.ident n raw]
      | .const _ (n, raw) _ _ => [.ident n raw]
      | .lifetime .. => []
    .punct '<' .alone :: lifetimes ++ others ++ [.punct '>' .alone]

/-- The where clause, if it has predicates. -/
def whereTrees (g : Generics) : List TokenTree :=
  if g.predicates.isEmpty then [] else .word "where" :: g.predicates

end Generics

end Codegen

end Ebml
