import MiddlewareStack.Source.BlockReader
import MiddlewareStack.Source.Member

/-!
# Reading operands

An operand is a literal, a path, something in brackets, a block or a word with what belongs to it,
with signs before it and calls, members and the like behind it. What a word opens extends as far as
it can.
-/

namespace MiddlewareStack.Source

open TokenReader
open Copier

/-- Whether a value may stand here. -/
def startsValue (tokens : List Token) : Bool :=
  (Lookahead.anyName tokens && !Lookahead.word "as" tokens) || Lookahead.anyGroup tokens ||
    Lookahead.literal tokens || Lookahead.lifetime tokens || atOperator ["..", "::", "#"] tokens ||
    starts "!" ["!="] || starts "-" ["-=", "->"] || starts "*" ["*="] || starts "|" ["|="] ||
    starts "&" ["&="] || starts "<" ["<=", "<<="]
where
  starts (text : String) (longer : List String) : Bool :=
    Lookahead.operator text tokens && !atOperator longer tokens

def startsClosure (tokens : List Token) : Bool :=
  let behind := Lookahead.rest tokens
  Lookahead.operator "|" tokens || Lookahead.oneOf ["move", "static"] tokens ||
    startsBinder tokens ||
    (Lookahead.word "const" tokens && !Lookahead.group .brace behind) ||
    (Lookahead.word "async" tokens &&
      (Lookahead.operator "|" behind || Lookahead.word "move" behind))

/-- Whether a block that runs on its own comes next. -/
def startsAsync (tokens : List Token) : Bool :=
  let behind := Lookahead.rest tokens
  Lookahead.word "async" tokens &&
    (Lookahead.group .brace behind || startsWordBlock "move" behind)

/-- Whether a path comes next. The word `try` is only one if more of the path or a macro follows. -/
def startsPath (tokens : List Token) : Bool :=
  Lookahead.pathName tokens || atOperator ["::", "<"] tokens ||
    (Lookahead.word "try" tokens && atOperator ["!", "::"] (Lookahead.rest tokens))

section Inner

variable (inner : Inner)

/-- An input of a closure. -/
def closureInput : TokenReader (List Token) := do
  let attributes ← outerAttributes inner
  let pattern ← inner.pattern
  if ← skipOperator ":" then
    let type ← inner.type true
    return attributes ++ pattern.tokens ++ Token.operator ":" ++ type.tokens
  return if pattern.isRaw then pattern.tokens else attributes ++ pattern.tokens

/-- A closure with its body, which is a block if the type of the result is given. -/
def closure (structures : Bool) : Copier Unit := do
  copy (optionalBinder inner)
  for word in ["const", "static", "async", "move"] do
    let _ ← takeWordIf word
  takeOperator "|"
  copy (separatedTokens (Lookahead.operator "|") "," (closureInput inner))
  takeOperator "|"
  if ← takeOperatorIf "->" then
    let _ ← takeType (inner.type true)
    takePlainBlock inner
  else copy do return (← expression inner structures).tokens

/-- The fields of a structure up to the end, the last of which may be all others. There are at most
as many as tokens in the argument. -/
def structureFields : List Token → Copier Unit
  | [] => return
  | _ :: count => do
    if ← ahead List.isEmpty then return
    if ← takeOperatorIf ".." then
      unless ← ahead List.isEmpty do takeExpression inner
      return
    copy (outerAttributes inner)
    let (member, named) ← member
    write [member]
    if !named || (← ahead (Lookahead.operator ":")) then
      takeOperator ":"
      takeExpression inner
    unless ← ahead List.isEmpty do
      takeOperator ","
      structureFields count

/-- A path, a macro, or a structure. -/
def pathOperand (structures : Bool) : Copier ExpressionKind := do
  let plain ←
    if ← ahead (Lookahead.operator "<") then do
      copy (qualifiedPath inner true)
      pure false
    else do
      let path ← path inner true
      write path.tokens
      pure path.isPlain
  if plain && (← ahead startsInvocation) then
    takeOperator "!"
    let braced ← ahead (Lookahead.group .brace)
    write [← anyGroup]
    return if braced then .bracedMacro else .other
  if structures && (← ahead (Lookahead.group .brace)) then
    takeInside .brace do structureFields inner (← remaining)
  return .other

/-- A list of items, or an item with a number of times. -/
def arrayItems : Copier Unit := do
  if ← ahead List.isEmpty then return
  takeExpression inner
  if ← takeOperatorIf ";" then takeExpression inner
  else if ← takeOperatorIf "," then copy (commaTokens (expressionTokens inner))

/-- A pattern that a value has to fit. -/
def letOperand (structures : Bool) : Copier Unit := do
  takeWord "let"
  takePattern inner
  takeOperator "="
  let value ← inner.operand structures
  copy do return (← operations inner structures .compare value).tokens

/-- A value that may be missing. -/
def optionalValue : Copier Unit := do
  if ← ahead startsValue then takeExpression inner

/-- A jump out of a block, with its label and its value. A label is not one of a block behind it. -/
def breakOperand (structures : Bool) : Copier Unit := do
  takeWord "break"
  if ← ahead Lookahead.lifetime then
    copy do return Token.lifetime (← lifetime)
    require fun tokens => !Lookahead.operator ":" tokens
  if structures || !(← ahead (Lookahead.group .brace)) then optionalValue inner

/-- An operand without anything before or behind it. -/
def bareOperand (structures : Bool) : Copier ExpressionKind := do
  let tokens ← remaining
  if Lookahead.literal tokens then
    takeNext
    return .other
  if startsAsync tokens then
    takeWord "async"
    let _ ← takeWordIf "move"
    takePlainBlock inner
    return .other
  if startsBlock tokens then
    blockLike inner
    return .block
  if startsClosure tokens then
    closure inner structures
    return .other
  if startsPath tokens then return ← pathOperand inner structures
  if Lookahead.operator ".." tokens then
    copy (rangeToEnd inner structures)
    return .range
  if Lookahead.group .parenthesis tokens then
    takeInside .parenthesis do copy (commaTokens (expressionTokens inner))
  else if Lookahead.group .bracket tokens then takeInside .bracket (arrayItems inner)
  else if Lookahead.word "break" tokens then breakOperand inner structures
  else if Lookahead.word "let" tokens then letOperand inner structures
  else if ← takeWordIf "continue" then
    if ← ahead Lookahead.lifetime then
      copy do return Token.lifetime (← lifetime)
  else if ← takeWordIf "return" then optionalValue inner
  else if ← takeWordIf "yield" then optionalValue inner
  else takeWord "_"
  return .other

/-- An operand that is written as it stands. -/
def rawOperand : TokenReader Unit := do
  if ← ahead startsBuiltin then builtin
  else
    word "become"
    let _ ← expression inner true

def startsRawOperand (tokens : List Token) : Bool :=
  startsBuiltin tokens || Lookahead.word "become" tokens

/-- An operand with nothing behind it. -/
def atom (structures : Bool) : TokenReader Expression := do
  let before ← remaining
  if startsRawOperand before then
    rawOperand inner
    return { startsRaw := true, tokens := ← takenSince before }
  let (kind, tokens) ← (bareOperand inner structures).result
  return { kind, tokens }

/-- The arguments between the angle brackets behind a method's name. -/
def methodArguments : TokenReader (List Token) := do
  if ← ahead (Lookahead.operator "::") then return (← angledArguments inner).tokens
  return []

/-- What a point puts behind an expression: members, a method with its arguments, or a wait. -/
def memberOf : Copier Unit := do
  takeOperator "."
  if let .literal text :: _ ← remaining then
    if let some (positions, pending) := dottedMembers? text.toList then
      let _ ← next
      let point := Token.operator "."
      write (separatedBy point pending (positions.map fun position => [positionToken position]))
      if !pending then return
  if ← takeWordIf "await" then return
  let (member, named) ← member
  write [member]
  if named then
    let arguments ← methodArguments inner
    write arguments
    if !arguments.isEmpty || (← ahead (Lookahead.group .parenthesis)) then
      takeInside .parenthesis do copy (commaTokens (expressionTokens inner))

/-- Calls, members and the like behind an operand, at most as many as tokens in the argument. -/
def trailersFrom : List Token → Expression → TokenReader Expression
  | [], e => return e
  | _ :: count, e => do
    let tokens ← remaining
    let extended (behind : Copier Unit) : TokenReader Expression := do
      return { tokens := e.tokens ++ (← behind.tokens) }
    if Lookahead.group .parenthesis tokens then
      let behind := takeInside .parenthesis do copy (commaTokens (expressionTokens inner))
      trailersFrom count (← extended behind)
    else if Lookahead.group .bracket tokens then
      trailersFrom count (← extended (takeInside .bracket (takeExpression inner)))
    else if startsMember tokens && !e.isRange then
      trailersFrom count (← extended (memberOf inner))
    else if Lookahead.operator "?" tokens && !e.isRange then
      trailersFrom count (← extended (takeOperator "?"))
    else return e

def trailers (e : Expression) : TokenReader Expression := do
  trailersFrom inner (← remaining) e

/-- The borrowing of an operand, in the raw form with a word that says how it is accessed. -/
def borrowed (structures : Bool) : Copier Unit := do
  takeOperator "&"
  let tokens ← remaining
  if Lookahead.word "raw" tokens && Lookahead.oneOf ["mut", "const"] (Lookahead.rest tokens) then
    takeNext
    takeNext
  else
    let _ ← takeWordIf "mut"
  copy do return (← inner.operand structures).tokens

/-- An operand with what is before and behind it, where attributes cannot stand before a range. -/
def operandShape (structures : Bool) : TokenReader Expression := do
  let before ← remaining
  let attributes ← outerAttributes inner
  let tokens ← remaining
  if Lookahead.operator "&" tokens then
    return { tokens := attributes ++ (← (borrowed inner structures).tokens) }
  if atOperator ["*", "!", "-"] tokens then
    let signed : Copier Unit := do
      takeNextSign
      copy do return (← inner.operand structures).tokens
    return { tokens := attributes ++ (← signed.tokens) }
  let e ← trailers inner (← atom inner structures)
  if e.startsRaw then return { e with tokens := ← takenSince before }
  if e.isRange && !attributes.isEmpty then failure
  return e.withAttributes attributes
where
  takeNextSign : Copier Unit := do
    match ← next with
    | .punct sign _ => write [.punct sign false]
    | _ => failure

/-- An expression that ends with its block if it starts with one, and goes on behind it only with a
member or a question mark. -/
def boundedShape : TokenReader Expression := do
  let attributes ← outerAttributes inner
  if ← ahead startsBlock then
    let ((), tokens) ← (blockLike inner).result
    let e : Expression := { kind := .block, tokens := attributes ++ tokens }
    let goesOn (tokens : List Token) : Bool :=
      startsMember tokens || Lookahead.operator "?" tokens
    if ← ahead goesOn then operations inner true .none (← trailers inner e) else return e
  else
    let e ← inner.operand true
    operations inner true .none (e.withAttributes attributes)

end Inner

end MiddlewareStack.Source
