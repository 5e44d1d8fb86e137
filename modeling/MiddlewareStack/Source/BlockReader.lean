import MiddlewareStack.Source.Copier
import MiddlewareStack.Source.Signature

/-!
# Reading blocks

A block stands alone or behind a word: a condition, a loop, a choice between patterns. An expression
in front of a block contains no structures outside of brackets, because their braces would start it.
-/

namespace MiddlewareStack.Source

open TokenReader
open Copier

/-- Whether parameters come next that the word before them introduces. -/
def startsBinder (tokens : List Token) : Bool :=
  Lookahead.word "for" tokens && startsParameters (Lookahead.rest tokens)

/-- Whether a word with a block behind it comes next. -/
def startsWordBlock (word : String) (tokens : List Token) : Bool :=
  Lookahead.word word tokens && Lookahead.group .brace (Lookahead.rest tokens)

/-- Whether a block comes next, or what ends with one. -/
def startsBlock (tokens : List Token) : Bool :=
  Lookahead.oneOf ["if", "while", "loop", "match", "unsafe"] tokens ||
    (Lookahead.word "for" tokens && !startsBinder tokens) ||
    startsWordBlock "try" tokens || startsWordBlock "const" tokens ||
    Lookahead.group .brace tokens || Lookahead.lifetime tokens

section Inner

variable (inner : Inner)

/-- An expression before a block, in which a brace starts the block. -/
def takeUnbraced : Copier Unit :=
  copy do return (← expression inner false).tokens

def takeExpression : Copier Unit :=
  copy (expressionTokens inner)

def takePattern : Copier Unit :=
  copy do return (← alternatives inner).tokens

def takeBlock : Copier Unit :=
  copy (block inner)

def takePlainBlock : Copier Unit :=
  copy (plainBlock inner)

/-- A condition with its block, and what follows if it does not hold. There are at most as many
conditions as tokens in the argument. -/
def conditional : List Token → Copier Unit
  | [] => failure
  | _ :: count => do
    takeWord "if"
    takeUnbraced inner
    takePlainBlock inner
    if ← takeWordIf "else" then
      if ← ahead (Lookahead.word "if") then conditional count else takePlainBlock inner

/-- What may have a label. -/
def loopOrBlock : Copier Unit := do
  if ← takeWordIf "while" then
    takeUnbraced inner
    takeBlock inner
  else if ← takeWordIf "for" then
    takePattern inner
    takeWord "in"
    takeUnbraced inner
    takeBlock inner
  else
    let _ ← takeWordIf "loop"
    takeBlock inner

/-- A pattern with the expression for it, behind which a comma stands unless it is a block or the
last one. -/
def arm : Copier Unit := do
  copy (outerAttributes inner)
  takePattern inner
  if ← takeWordIf "if" then takeExpression inner
  takeOperator "=>"
  let body ← inner.bounded
  write body.tokens
  if body.kind ≠ .block && !(← ahead List.isEmpty) then takeOperator ","
  else
    let _ ← takeOperatorIf ","

/-- A block, or what ends with one. -/
def blockLike : Copier Unit := do
  let tokens ← remaining
  if Lookahead.word "if" tokens then conditional inner tokens
  else if Lookahead.word "match" tokens then
    takeWord "match"
    takeUnbraced inner
    takeInside .brace do
      copy (innerAttributes inner)
      let _ ← takeToEnd (arm inner)
  else if ← takeWordIf "try" then takePlainBlock inner
  else if ← takeWordIf "unsafe" then takeBlock inner
  else if ← takeWordIf "const" then takeBlock inner
  else
    if Lookahead.lifetime tokens then
      copy do return Token.lifetime (← lifetime)
      takeOperator ":"
    loopOrBlock inner

end Inner

end MiddlewareStack.Source
