import MiddlewareStack.Source.DefinitionReader

/-!
# Reading the members of items

Between the braces of an interface or an implementation stand methods, constants, types and macros,
and methods count only in some forms. Between the braces of foreign items nothing counts.
-/

namespace MiddlewareStack.Source

open TokenReader
open Copier

/-- Whether a function starts here that is marked as safe to call. -/
def startsSafeFunction : List Token → Bool :=
  startsFunctionAfter ["const", "async", "safe"]

/-- Whether a variable starts here that may be marked as safe to use or not. -/
def startsForeignVariable (tokens : List Token) : Bool :=
  Lookahead.word "static" tokens ||
    (Lookahead.oneOf ["unsafe", "safe"] tokens && Lookahead.word "static" (Lookahead.rest tokens))

section Inner

variable (inner : Inner)

/-- A member: a method that counts, or none that does. It is nothing if it is written as it
stands. -/
abbrev BodyMember := Option (Option Signature)

/-- A member, which is written as it stands if it is `raw`. -/
def memberUnless (raw : Bool) (method? : Option Signature) : BodyMember :=
  if raw then none else some method?

/-- A member of an interface. Only methods without further marks count. -/
def interfaceMember : Copier BodyMember := do
  takeAttributes inner
  let visible ← visibility
  let marked := (← takeWordIf "default") || visible
  let tokens ← remaining
  if startsFunction tokens then
    let method ← takeSignature inner
    if !(← bodyIfAhead inner) then semicolon
    return memberUnless marked (some method)
  else if Lookahead.word "const" tokens then
    let (_, plain) ← constantItem inner
    return memberUnless (marked || !plain) none
  else if Lookahead.word "type" tokens then
    let _ ← typeDefinition inner .behindType
    return memberUnless marked none
  else
    if marked then failure
    macroCall
    return some none

/-- A member of an implementation. Only methods with a body count. -/
def implementationMember : Copier BodyMember := do
  takeAttributes inner
  let visible ← visibility
  let tokens ← remaining
  let default := Lookahead.word "default" tokens && !Lookahead.operator "!" (Lookahead.rest tokens)
  if default then takeWord "default"
  let tokens ← remaining
  if startsFunction tokens then
    let method ← takeSignature inner
    if ← takeOperatorIf ";" then return none
    takeBlock inner
    return some (some method)
  else if Lookahead.word "const" tokens then
    let (valued, plain) ← constantItem inner
    return memberUnless (!valued || !plain) none
  else if Lookahead.word "type" tokens then
    let found ← typeDefinition inner .behindType
    return memberUnless (!found.isDefined || found.isBounded) none
  else
    if visible || default then failure
    macroCall
    return some none

/-- What stands between braces, behind attributes of the whole. -/
def takeBraced {α : Type} (item : Copier (Option α)) : Copier (List α) :=
  takeInside .brace do
    copy (innerAttributes inner)
    return (← takeToEnd (orAsItStands item)).filterMap id

/-- The methods that count among the members between braces. -/
def members (member : Copier BodyMember) : Copier (List Signature) :=
  return (← takeBraced inner member).filterMap id

/-- A function that is defined elsewhere, without a body. -/
def foreignFunction : Copier (Option Unit) := do
  let safe ← ahead fun tokens => startsSafeFunction tokens && !startsFunction tokens
  if safe then
    for word in ["const", "async", "safe"] do
      let _ ← takeWordIf word
  let _ ← takeSignature inner
  if ← bodyIfAhead inner then return none
  semicolon
  return if safe then none else some ()

/-- A variable that is defined elsewhere, without a value. -/
def foreignVariable : Copier (Option Unit) := do
  let marked ← ahead fun tokens => !Lookahead.word "static" tokens
  if marked then takeNext
  takeWord "static"
  let _ ← takeWordIf "mut"
  let _ ← takeName
  takeOperator ":"
  let _ ← takeAnyType inner
  let valued ← takeValue inner
  semicolon
  return if marked || valued then none else some ()

/-- A declaration of something that is defined elsewhere. -/
def foreignItem : Copier (Option Unit) := do
  takeAttributes inner
  let visible ← visibility
  let tokens ← remaining
  if startsFunction tokens || startsSafeFunction tokens then foreignFunction inner
  else if startsForeignVariable tokens then foreignVariable inner
  else if Lookahead.word "type" tokens then
    let found ← typeDefinition inner .either
    return if found.isBounded || found.isDefined then none else some ()
  else
    if visible then failure
    macroCall
    return some ()

end Inner

end MiddlewareStack.Source
