import Ebml.Syntax.Reader

/-!
# The nonterminals of the grammar

Types, bounds, expressions, statements and patterns refer to one another, so each reader is
written against a `Grammar`, a record of readers for the nonterminals it uses, built level by
level by fuel so that every reader is an ordinary function; a reader returns the form of what
it read.
-/

namespace Ebml

namespace Syntax

/-- What a caller needs to know about a type just read. -/
inductive TypeForm where
  /-- A path of one segment, without qualification or leading `::`, whose arguments are absent
  or in angle brackets. -/
  | simplePath
  /-- Any other path without qualification. -/
  | path
  /-- A trait object without `dyn` that has a single bound and no trailing `+`. -/
  | bareObject
  /-- A type in parentheses, or a trait object in parentheses that starts with a lifetime. -/
  | paren
  | other
  deriving DecidableEq, Inhabited

/-- What a caller needs to know about a bound just read. -/
inductive BoundForm where
  | trait
  | lifetime
  /-- A precise capture `use<…>` or a bound kept verbatim. -/
  | other
  deriving DecidableEq, Inhabited

/-- What a caller needs to know about an expression just read. -/
inductive ExprForm where
  /-- A range, which no binary operator may follow. -/
  | range
  /-- A comparison, which may not be chained. -/
  | comparison
  /-- A block, `if`, `match`, loop, `unsafe`, `const` or `try` block: it ends a statement or a
  match arm without a separator. -/
  | blockLike
  /-- A macro invocation, and whether its delimiter is a brace. -/
  | macroCall (braced : Bool)
  /-- An expression kept as written: `builtin # …` or `become …`. -/
  | verbatim
  | other
  deriving DecidableEq, Inhabited

/-- What a caller needs to know about a pattern just read. -/
inductive PatternForm where
  /-- The rest pattern `..`. -/
  | rest
  /-- A range pattern missing one of its ends. -/
  | openRange
  | other
  deriving DecidableEq, Inhabited

/-- The binding strength of an operator, loosest first. -/
inductive Precedence where
  | jump
  | assign
  | range
  | or
  | and
  | letBinding
  | compare
  | bitOr
  | bitXor
  | bitAnd
  | shift
  | sum
  | product
  | cast
  | prefixOp
  | unambiguous
  deriving DecidableEq, Inhabited

namespace Precedence

/-- The rank of a precedence, loosest lowest. -/
def rank : Precedence → Nat
  | jump => 0 | assign => 1 | range => 2 | or => 3 | and => 4 | letBinding => 5 | compare => 6
  | bitOr => 7 | bitXor => 8 | bitAnd => 9 | shift => 10 | sum => 11 | product => 12
  | cast => 13 | prefixOp => 14 | unambiguous => 15

/-- Whether a precedence binds strictly less tightly than another. -/
def lt (a b : Precedence) : Bool := a.rank < b.rank

/-- Whether a precedence binds at most as tightly as another. -/
def le (a b : Precedence) : Bool := a.rank ≤ b.rank

end Precedence

/-- Readers for the nonterminals that other readers refer to. -/
structure Grammar where
  /-- A type; the flag allows `+` to join bounds into a trait object after a path. -/
  type : Bool → Reader TypeForm
  /-- One bound; the flags allow a precise capture `use<…>` and a `const` bound. -/
  bound : Bool → Bool → Reader BoundForm
  /-- An expression; the flag allows a struct literal after a path. -/
  expr : Bool → Reader ExprForm
  /-- An expression without binary operators: prefix operators, an atom and its trailers. -/
  unary : Bool → Reader ExprForm
  /-- The binary operators, assignments, ranges and casts after a left operand, binding at least
  as tightly as the given precedence. -/
  exprTail : ExprForm → Bool → Precedence → Reader ExprForm
  /-- The expression of an expression statement or match arm, which ends after a block-like
  expression. -/
  statementExpr : Reader ExprForm
  /-- The statements of a block, up to the end of its group. -/
  statements : Reader Unit
  /-- A pattern; the flag allows alternatives separated by `|`, with one before the first. -/
  pattern : Bool → Reader PatternForm

/-- The message when the nesting of the input exceeds what the readers were built for. -/
def Grammar.depthMessage : String := "recursion limit reached"

/-- The grammar that refuses everything, below the last level of nesting. -/
def Grammar.exhausted : Grammar where
  type _ := throw Grammar.depthMessage
  bound _ _ := throw Grammar.depthMessage
  expr _ := throw Grammar.depthMessage
  unary _ := throw Grammar.depthMessage
  exprTail _ _ _ := throw Grammar.depthMessage
  statementExpr := throw Grammar.depthMessage
  statements := throw Grammar.depthMessage
  pattern _ := throw Grammar.depthMessage

end Syntax

end Ebml
