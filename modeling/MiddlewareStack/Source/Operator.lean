import MiddlewareStack.Source.TokenReader

/-!
# Operators between expressions

Every operator has a strength. What stands between two operators belongs to the stronger one, and to
the left one of two equally strong ones unless they assign.
-/

namespace MiddlewareStack.Source

abbrev Strength := Nat

namespace Strength

/-- Weaker than any operator. -/
def none : Strength := 0

def assign : Strength := 1
def range : Strength := 2
def or : Strength := 3
def and : Strength := 4
def compare : Strength := 6
def bitOr : Strength := 7
def bitXor : Strength := 8
def bitAnd : Strength := 9
def shift : Strength := 10
def sum : Strength := 11
def product : Strength := 12
def cast : Strength := 13

end Strength

/-- The operators with an operand on either side. Where one is the start of another, the longer one
comes first. -/
def binaryOperators : List (String × Strength) := [
  ("+=", .assign), ("-=", .assign), ("*=", .assign), ("/=", .assign), ("%=", .assign),
  ("^=", .assign), ("&=", .assign), ("|=", .assign), ("<<=", .assign), (">>=", .assign),
  ("&&", .and), ("||", .or), ("<<", .shift), (">>", .shift), ("==", .compare), ("<=", .compare),
  ("!=", .compare), (">=", .compare), ("+", .sum), ("-", .sum), ("*", .product), ("/", .product),
  ("%", .product), ("^", .bitXor), ("&", .bitAnd), ("|", .bitOr), ("<", .compare), (">", .compare)]

/-- The operator that comes next. -/
def binaryOperator? (tokens : List Token) : Option (String × Strength) :=
  binaryOperators.find? fun operator => Lookahead.operator operator.1 tokens

/-- Whether a value is assigned next, which is not the case at the arrow of a match. -/
def startsAssignment (tokens : List Token) : Bool :=
  Lookahead.operator "=" tokens && !Lookahead.operator "=>" tokens

/-- The strength with which what comes next goes on with an expression. -/
def nextStrength (tokens : List Token) : Strength :=
  match binaryOperator? tokens with
  | some (_, strength) => strength
  | none =>
    if startsAssignment tokens then .assign
    else if Lookahead.operator ".." tokens then .range
    else if Lookahead.word "as" tokens then .cast
    else .none

end MiddlewareStack.Source
