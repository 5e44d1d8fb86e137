import MiddlewareStack.Source.OperandReader

/-!
# Reading statements

A block holds declarations of values, items, macros and expressions. Behind an expression that is no
block a semicolon stands, unless it is the last.
-/

namespace MiddlewareStack.Source

open TokenReader
open Copier

/-- What follows the path of a macro that may come next. -/
def macroRest? (tokens : List Token) : Option (List Token) :=
  match plainPath.run tokens with
  | some (_, rest) => if Lookahead.operator "!" rest then some (Lookahead.rest rest) else none
  | none => none

/-- Whether a macro comes next that is given a name. -/
def startsNamedMacro (tokens : List Token) : Bool :=
  (macroRest? tokens).any fun rest => Lookahead.name rest || Lookahead.word "try" rest

/-- Whether a macro in braces comes next that is a statement of its own. -/
def startsMacroStatement (tokens : List Token) : Bool :=
  (macroRest? tokens).any fun rest =>
    let behind := Lookahead.rest rest
    Lookahead.group .brace rest && !startsMember behind && !Lookahead.operator "?" behind

/-- Whether an item comes next, where an expression could stand as well. -/
def startsItem (tokens : List Token) : Bool :=
  let second := Lookahead.rest tokens
  let third := Lookahead.rest second
  let starts (text : String) : Bool := Lookahead.word text tokens
  let function := ["unsafe", "extern", "fn"]
  Lookahead.oneOf ["pub", "extern", "use", "fn", "mod", "type", "struct", "enum", "trait", "impl",
      "macro"] tokens ||
    (starts "crate" && !Lookahead.operator "::" second) ||
    (starts "static" && (Lookahead.word "mut" second || Lookahead.name second)) ||
    (starts "const" &&
      !(Lookahead.group .brace second || Lookahead.oneOf ["static", "move"] second ||
        (Lookahead.word "async" second && !Lookahead.oneOf function third) ||
        Lookahead.operator "|" second)) ||
    (starts "unsafe" && !Lookahead.group .brace second) ||
    (starts "async" && Lookahead.oneOf function second) ||
    (starts "union" && Lookahead.name second) ||
    (starts "auto" && Lookahead.word "trait" second) ||
    (starts "default" && Lookahead.oneOf ["unsafe", "impl"] second) ||
    startsNamedMacro tokens

section Inner

variable (inner : Inner)

/-- The declaration of values by a pattern, and what happens if the value does not fit. -/
def declaration : Copier Unit := do
  takeWord "let"
  copy do return (← inner.pattern).tokens
  if ← takeOperatorIf ":" then
    let _ ← takeType (inner.type true)
  if ← takeOperatorIf "=" then
    let value ← expression inner true
    write value.tokens
    if !value.endsInBraces && (← takeWordIf "else") then takePlainBlock inner
  takeOperator ";"

/-- A macro whose arguments are in braces. -/
def macroStatement : Copier Unit := do
  copy do return (← plainPath).tokens
  takeOperator "!"
  takeNext
  let _ ← takeOperatorIf ";"

/-- An expression, with whether a semicolon is missing behind it. -/
def expressionStatement (attributes : List Token) : Copier Bool := do
  let e ← inner.bounded
  write (e.withAttributes attributes).tokens
  if ← takeOperatorIf ";" then return false
  return e.kind ≠ .block && e.kind ≠ .bracedMacro

/-- Whether an item comes next, as a statement. -/
def startsItemStatement (tokens : List Token) : Bool :=
  !startsMacroStatement tokens && !Lookahead.word "let" tokens && startsItem tokens

/-- A statement, with whether it can only be the last. An item is read with its attributes. -/
def statement : Copier Bool := do
  match ← unlessBefore startsItemStatement (outerAttributes inner) with
  | none =>
    copy inner.item
    return false
  | some attributes =>
    let tokens ← remaining
    if startsMacroStatement tokens then
      write attributes
      macroStatement
      return false
    if Lookahead.word "let" tokens then
      write attributes
      declaration inner
      return false
    expressionStatement inner attributes

/-- Statements up to the end, at most as many as tokens in the argument. -/
def statementsFrom : List Token → Copier Unit
  | [] => return
  | _ :: count => do
    if ← takeOperatorIf ";" then statementsFrom count
    else if ← ahead List.isEmpty then return
    else
      let last ← statement inner
      if last then require List.isEmpty else statementsFrom count

/-- The statements of a block up to its end. Semicolons may stand alone. -/
def statementsShape : TokenReader (List Token) := do
  (statementsFrom inner (← remaining)).tokens

end Inner

end MiddlewareStack.Source
