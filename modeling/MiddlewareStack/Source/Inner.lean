import MiddlewareStack.Source.TokenReader
import MiddlewareStack.Source.TypeExpr

/-!
# What stands inside what

Types, patterns, expressions, statements and items contain one another. A reader of one of them
takes the readers of what may stand inside it as an argument.
-/

namespace MiddlewareStack.Source

/-- What the rules around an expression depend on. -/
inductive ExpressionKind where
  | range
  | comparison
  /-- A block, or what ends with one. No semicolon is needed behind it. -/
  | block
  /-- A macro with its arguments in braces. -/
  | bracedMacro
  | other
  deriving DecidableEq, Repr

structure Expression where
  kind : ExpressionKind := .other
  /-- Whether its first operand is written as it stands. No attributes can be put before it. -/
  startsRaw : Bool := false
  tokens : List Token

namespace Expression

def isRange (e : Expression) : Bool :=
  e.kind = .range

/-- Whether its last token is a group in braces. -/
def endsInBraces (e : Expression) : Bool :=
  match e.tokens.getLast? with
  | some (.group .brace _) => true
  | _ => false

def withAttributes (attributes : List Token) (e : Expression) : Expression :=
  if e.startsRaw then e else { e with tokens := attributes ++ e.tokens }

/-- Something put behind an expression that makes it a larger one. -/
def extend (e : Expression) (kind : ExpressionKind) (behind : List Token) : Expression :=
  { kind, startsRaw := e.startsRaw, tokens := e.tokens ++ behind }

end Expression

/-- A pattern, as its tokens. -/
structure Pattern where
  /-- The name of the whole value. -/
  name? : Option String := none
  /-- Whether it is a range of which one end is missing. -/
  isOpenRange : Bool := false
  /-- Whether it is written as it stands. -/
  isRaw : Bool := false
  tokens : List Token

/-- The readers of what stands inside something else. -/
structure Inner where
  /-- More than four times the number of tokens. -/
  limit : Nat
  /-- A type, where the argument says whether more bounds may follow a plus. -/
  type : Bool → TokenReader TypeExpr
  bound : TokenReader Bound
  /-- A pattern without alternatives. -/
  pattern : TokenReader Pattern
  /-- An expression without operators between operands, where the argument says whether a brace
  behind a path starts a structure. -/
  operand : Bool → TokenReader Expression
  /-- An expression that ends with its block if it starts with one, as a statement does. -/
  bounded : TokenReader Expression
  /-- The statements of a block, up to its end. -/
  statements : TokenReader (List Token)
  item : TokenReader (List Token)

end MiddlewareStack.Source
