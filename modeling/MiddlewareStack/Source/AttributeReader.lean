import MiddlewareStack.Source.OperationReader

/-!
# Reading attributes and blocks

An attribute is a path, alone, with arguments in a group, or with a value. A block may start with
attributes of its own.
-/

namespace MiddlewareStack.Source

open TokenReader

/-- A path without arguments, as attributes, visibilities and macros have it. -/
def plainPath : TokenReader PathExpr := do
  let rooted ← skipOperator "::"
  let first ← segment
  let others ← whileAhead (Lookahead.operator "::") do
    operator "::"
    segment
  return { rooted, segments := first :: others }
where
  segment : TokenReader Segment := do
    require Lookahead.pathName
    return { name := ← anyName, arguments := .none }

def attributeName : TokenReader (List Token) := do
  if ← skipWord "unsafe" then return [.ident "unsafe"]
  return (← plainPath).tokens

section Inner

variable (inner : Inner)

/-- What stands between the brackets of an attribute. A value is an expression without
attributes. -/
def attributeBody : TokenReader (List Token) := do
  let name ← attributeName
  if ← ahead Lookahead.anyGroup then return name ++ [← anyGroup]
  if ← skipOperator "=" then
    require fun tokens => !Lookahead.operator "#" tokens
    return name ++ Token.operator "=" ++ (← expressionTokens inner)
  return name

/-- One attribute of what follows. -/
def outerAttribute : TokenReader (List Token) := do
  operator "#"
  return Token.operator "#" ++ [.group .bracket (← inside .bracket (attributeBody inner))]

def outerAttributes : TokenReader (List Token) :=
  return (← whileAhead (Lookahead.operator "#") (outerAttribute inner)).flatten

/-- Attributes of what they stand in, at its start. -/
def innerAttributes : TokenReader (List Token) :=
  return (← whileAhead isInner do
    operator "#"
    operator "!"
    return Token.operator "#" ++ Token.operator "!" ++
      [.group .bracket (← inside .bracket (attributeBody inner))]).flatten
where
  isInner (tokens : List Token) : Bool :=
    Lookahead.operator "#" tokens && Lookahead.operator "!" (Lookahead.rest tokens)

/-- Statements in braces. -/
def plainBlock : TokenReader (List Token) :=
  return [.group .brace (← inside .brace inner.statements)]

/-- Statements in braces, which may have attributes in front of them. -/
def block : TokenReader (List Token) :=
  return [.group .brace (← inside .brace do
    return (← innerAttributes inner) ++ (← inner.statements))]

end Inner

end MiddlewareStack.Source
