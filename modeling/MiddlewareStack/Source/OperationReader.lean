import MiddlewareStack.Source.Inner
import MiddlewareStack.Source.Operator

/-!
# Reading operations

An expression is a sequence of operands with operators between them. Comparisons do not follow one
another, and a range is no operand of what follows it.
-/

namespace MiddlewareStack.Source

open TokenReader

/-- Whether a member or a method may come next. -/
def startsMember (tokens : List Token) : Bool :=
  Lookahead.operator "." tokens && !Lookahead.operator ".." tokens

/-- Whether one of some operators comes next. -/
def atOperator (texts : List String) (tokens : List Token) : Bool :=
  texts.any fun text => Lookahead.operator text tokens

/-- What may not follow a conversion to a type. -/
def continuesOperand (tokens : List Token) : Bool :=
  startsMember tokens || Lookahead.operator "?" tokens || Lookahead.group .bracket tokens ||
    Lookahead.group .parenthesis tokens

/-- Whether a range that excludes its end has none. -/
def endsRange (structures : Bool) (tokens : List Token) : Bool :=
  tokens.isEmpty || startsMember tokens || (!structures && Lookahead.group .brace tokens) ||
    Lookahead.word "as" tokens ||
    atOperator [",", ";", "?", "=", "+", "/", "%", "^", ">", "<=", "!=", "-=", "*=", "&=", "|=",
      "<<="] tokens

/-- The dots of a range: two, with an equals sign if the end is included. -/
def rangeDots : TokenReader String := do
  require fun tokens => Lookahead.operator ".." tokens && !Lookahead.operator "..." tokens
  let dots := if ← ahead (Lookahead.operator "..=") then "..=" else ".."
  operator dots
  return dots

section Inner

variable (inner : Inner) (structures : Bool)

/-- The type behind `as`. -/
def castType : TokenReader (List Token) := do
  word "as"
  let type ← inner.type false
  require fun tokens => !continuesOperand tokens
  return .ident "as" :: type.tokens

mutual

/-- What follows an expression by operators that are at least as strong as `least`. -/
def operationsFrom (least : Strength) : Nat → Expression → TokenReader Expression
  | 0, _ => failure
  | bound + 1, left => do
    let tokens ← remaining
    if left.isRange then return left
    match binaryOperator? tokens with
    | some (text, strength) =>
      if strength < least then return left
      if strength = .compare && left.kind = .comparison then failure
      operator text
      let right ← rightSide strength bound
      let kind := if strength = .compare then .comparison else .other
      operationsFrom least bound (left.extend kind (Token.operator text ++ right.tokens))
    | none =>
      if least ≤ .assign && startsAssignment tokens then
        operator "="
        let right ← rightSide .assign bound
        operationsFrom least bound (left.extend .other (Token.operator "=" ++ right.tokens))
      else if least ≤ .range && Lookahead.operator ".." tokens then
        let dots ← rangeDots
        let ending ← rangeEnd dots bound
        return { kind := .range, tokens := left.tokens ++ Token.operator dots ++ ending }
      else if least ≤ .cast && Lookahead.word "as" tokens then
        operationsFrom least bound (left.extend .other (← castType inner))
      else return left

/-- What stands on the right of an operator, with everything that belongs to it by stronger ones. -/
def rightSide (strength : Strength) : Nat → TokenReader Expression
  | 0 => failure
  | bound + 1 => do rightSideFrom strength bound (← inner.operand structures)

def rightSideFrom (strength : Strength) : Nat → Expression → TokenReader Expression
  | 0, _ => failure
  | bound + 1, right => do
    let tokens ← remaining
    let next := nextStrength tokens
    if next > strength || (next = strength && strength = .assign) then
      let longer ← operationsFrom next bound right
      if (← remaining).length = tokens.length then return longer
      rightSideFrom strength bound longer
    else return right

/-- The end of a range, which one that includes its end has to have. -/
def rangeEnd (dots : String) : Nat → TokenReader (List Token)
  | 0 => failure
  | bound + 1 => do
    if dots = ".." && (← ahead (endsRange structures)) then return []
    return (← rightSide .range bound).tokens

end

/-- What follows an operand by operators that are at least as strong as `least`. Every fourth step
of reading it takes a token. -/
def operations (least : Strength) (left : Expression) : TokenReader Expression :=
  operationsFrom inner structures least inner.limit left

/-- An expression. -/
def expression : TokenReader Expression := do
  operations inner structures .none (← inner.operand structures)

/-- A range without a start. -/
def rangeToEnd : TokenReader (List Token) := do
  let dots ← rangeDots
  return Token.operator dots ++ (← rangeEnd inner structures dots inner.limit)

end Inner

/-- The tokens of an expression in which structures may stand. -/
def expressionTokens (inner : Inner) : TokenReader (List Token) :=
  return (← expression inner true).tokens

end MiddlewareStack.Source
