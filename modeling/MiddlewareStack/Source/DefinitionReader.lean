import MiddlewareStack.Source.StatementReader

/-!
# Reading parts of items

Items and their members share visibilities, parameters, conditions, values, macros and the
definitions of constants and types. A part that may be missing says whether it is there.
-/

namespace MiddlewareStack.Source

open TokenReader
open Copier

/-- The end of an item that has no body. -/
def semicolon : Copier Unit :=
  takeOperator ";"

/-- Whether an item or a member is marked as visible elsewhere. -/
def visibility : Copier Bool := do
  if !(← takeWordIf "pub") then return false
  match ← remaining with
  | .group .parenthesis [.ident scope] :: _ =>
    if scope ∈ ["crate", "self", "super"] then takeNext
  | .group .parenthesis (.ident "in" :: _) :: _ =>
    takeInside .parenthesis do
      takeWord "in"
      copy do return (← plainPath).tokens
  | _ => pure ()
  return true

/-- What follows a word if it is there. -/
def withoutWord (text : String) (tokens : List Token) : List Token :=
  if Lookahead.word text tokens then Lookahead.rest tokens else tokens

/-- Whether a function starts here, after the words that may stand before it. -/
def startsFunctionAfter (words : List String) (tokens : List Token) : Bool :=
  let behind := words.foldl (fun tokens text => withoutWord text tokens) tokens
  let behind :=
    if Lookahead.word "extern" behind then
      let behind := Lookahead.rest behind
      if Lookahead.string behind then Lookahead.rest behind else behind
    else behind
  Lookahead.word "fn" behind

def startsFunction : List Token → Bool :=
  startsFunctionAfter ["const", "async", "unsafe"]

/-- Whether the path of a macro may start here. -/
def startsMacro (tokens : List Token) : Bool :=
  Lookahead.name tokens || Lookahead.oneOf ["self", "super", "crate"] tokens ||
    Lookahead.operator "::" tokens

/-- The arguments of a macro, behind which a semicolon stands unless they are in braces. -/
def macroArguments : Copier Unit := do
  let braced ← ahead (Lookahead.group .brace)
  write [← anyGroup]
  unless braced do semicolon

def macroCall : Copier Unit := do
  require startsMacro
  copy do return (← plainPath).tokens
  takeOperator "!"
  macroArguments

/-- A macro that may be given a name. -/
def macroItem : Copier Unit := do
  require startsMacro
  copy do return (← plainPath).tokens
  takeOperator "!"
  if ← ahead fun tokens => Lookahead.name tokens || Lookahead.word "try" tokens then takeNext
  macroArguments

/-- A macro that is declared like a function. -/
def macroDeclaration : Copier Unit := do
  takeWord "macro"
  let _ ← takeName
  if ← ahead (Lookahead.group .parenthesis) then takeNext
  require (Lookahead.group .brace)
  takeNext

section Inner

variable (inner : Inner)

def takeAttributes : Copier Unit :=
  copy (outerAttributes inner)

/-- Parameters in angle brackets, and whether the brackets are there. -/
def takeGenerics : Copier Bool := do
  let written ← ahead (Lookahead.operator "<")
  copy (optionalGenerics inner)
  return written

/-- Conditions, and whether there is a word that introduces them. -/
def takeConditions : Copier Bool := do
  let written ← ahead (Lookahead.word "where")
  copy (optionalConditions inner)
  return written

/-- Bounds behind a colon, and whether the colon is there. A colon alone is not written. -/
def takeBounds (stop : List Token → Bool) : Copier (Bool × List Bound) := do
  if !(← skipOperator ":") then return (false, [])
  let (bounds, trailing) ← separated stop "+" inner.bound
  unless bounds.isEmpty do
    write (Token.operator ":" ++ separatedBy (Token.operator "+") trailing (boundTokens bounds))
  return (true, bounds)

def takeAnyType : Copier TypeExpr :=
  takeType (inner.type true)

def takeSignature : Copier Signature := do
  let signature ← signature inner
  write signature.tokens
  return signature

/-- A value behind an equals sign, and whether it is there. -/
def takeValue : Copier Bool := do
  if !(← takeOperatorIf "=") then return false
  takeExpression inner
  return true

/-- A constant: whether it has a value, and whether it depends on nothing. -/
def constantItem : Copier (Bool × Bool) := do
  takeWord "const"
  let _ ← takeIdent nameOrUnderscore
  let generic ← takeGenerics inner
  takeOperator ":"
  let _ ← takeAnyType inner
  let valued ← takeValue inner
  let conditional ← takeConditions inner
  semicolon
  return (valued, !generic && !conditional)

/-- A variable: whether it has a type and a value. -/
def staticItem : Copier Bool := do
  takeWord "static"
  let _ ← takeWordIf "mut"
  let _ ← takeName
  let typed ← takeOperatorIf ":"
  if typed then
    let _ ← takeAnyType inner
  let valued ← takeValue inner
  if !typed && !valued then failure
  semicolon
  return typed && valued

/-- Where the conditions of a type definition stand. -/
inductive ConditionsPlace where
  | beforeType
  | behindType
  | either
  deriving DecidableEq

structure TypeDefinition where
  name : String
  isBounded : Bool
  isDefined : Bool

/-- A type alias or an associated type. -/
def typeDefinition (place : ConditionsPlace) : Copier TypeDefinition := do
  takeWord "type"
  let name ← takeName
  let _ ← takeGenerics inner
  let stop (tokens : List Token) : Bool :=
    Lookahead.word "where" tokens || atOperator ["=", ";"] tokens
  let (isBounded, _) ← takeBounds inner stop
  let conditional ← if place = .behindType then pure false else takeConditions inner
  let isDefined ← takeOperatorIf "="
  if isDefined then
    let _ ← takeAnyType inner
  unless place = .beforeType || conditional do
    let _ ← takeConditions inner
  semicolon
  return { name, isBounded, isDefined }

/-- A body, which may start with attributes. -/
def bodyIfAhead : Copier Bool := do
  if !(← ahead (Lookahead.group .brace)) then return false
  takeBlock inner
  return true

end Inner

end MiddlewareStack.Source
