import MiddlewareStack.Source.BodyReader
import MiddlewareStack.Source.FieldReader
import MiddlewareStack.Source.Item

/-!
# Reading items

Items are read together with what they are written as again. Some forms are read but do not count;
those are written as they stand, and reading one gives nothing.
-/

namespace MiddlewareStack.Source

open TokenReader
open Copier

section Inner

variable (inner : Inner)

/-- An interface, which may be an alias for bounds if nothing is marked. -/
def interfaceItem : Copier Item := do
  let guarded ← takeWordIf "unsafe"
  let automatic ← takeWordIf "auto"
  takeWord "trait"
  let name ← takeName
  let _ ← takeGenerics inner
  if !guarded && !automatic && (← takeOperatorIf "=") then
    let stop (tokens : List Token) : Bool :=
      Lookahead.word "where" tokens || Lookahead.operator ";" tokens
    copy (separatedTokens stop "+" (Bound.tokens <$> boundShape inner false false))
    let _ ← takeConditions inner
    semicolon
    return .other
  let stop (tokens : List Token) : Bool :=
    Lookahead.word "where" tokens || Lookahead.group .brace tokens
  let (_, embeds) ← takeBounds inner stop
  let _ ← takeConditions inner
  return .interface name embeds (← members inner (interfaceMember inner))

/-- The mark of an implementation as `const`. -/
def constMark : Copier Bool := do
  let tokens ← remaining
  if Lookahead.operator "?" tokens && Lookahead.word "const" (Lookahead.rest tokens) then
    takeOperator "?"
  takeWordIf "const"

/-- The type that an implementation is for, behind the interface if one is named. It is none if what
is named is no path. -/
def implementedType (negative : Bool) : Copier (Option TypeExpr) := do
  let first ← takeAnyType inner
  if ← takeWordIf "for" then
    let type ← takeAnyType inner
    return match first with
      | .path _ => some type
      | _ => none
  if negative then failure
  return some first

/-- Methods of a type. A block that is marked as visible or as `const` does not count. -/
def implementationItem (visible : Bool) : Copier (Option Item) := do
  let _ ← takeWordIf "default"
  let _ ← takeWordIf "unsafe"
  takeWord "impl"
  if ← ahead startsParameters then
    let _ ← takeGenerics inner
  let const ← constMark
  let tokens ← remaining
  let negative :=
    Lookahead.operator "!" tokens && !Lookahead.group .brace (Lookahead.rest tokens)
  if negative then takeOperator "!"
  let type ← implementedType inner negative
  let _ ← takeConditions inner
  let methods ← members inner (implementationMember inner)
  return if visible || const then none else type.map fun type => .implementation type methods

/-- A function with its body. One without a body is written as it stands. -/
def functionItem : Copier (Option Item) := do
  let _ ← takeSignature inner
  if ← takeOperatorIf ";" then return none
  takeBlock inner
  return some .other

def crateItem : Copier Unit := do
  takeWord "extern"
  takeWord "crate"
  if !(← takeWordIf "self") then
    let _ ← takeName
  if ← takeWordIf "as" then
    let _ ← takeIdent nameOrUnderscore
  semicolon

/-- Declarations of what is defined elsewhere. -/
def foreignItems : Copier Unit := do
  let _ ← takeWordIf "unsafe"
  require (Lookahead.word "extern")
  copy optionalAbi
  let _ ← takeBraced inner (foreignItem inner)

/-- A module, with `item` reading what is in it. -/
def moduleItem (item : Copier Item) : Copier Item := do
  let _ ← takeWordIf "unsafe"
  takeWord "mod"
  let name ← takeIdent do
    require fun tokens => Lookahead.name tokens || Lookahead.word "try" tokens
    anyName
  if ← takeOperatorIf ";" then return .distantModule name
  return .module name (← takeBraced inner (some <$> item))

/-- An item behind its attributes and its visibility. -/
def itemBehind (item : Copier Item) (visible : Bool) : Copier (Option Item) := do
  let tokens ← remaining
  let behind := Lookahead.rest tokens
  let startsInterface (tokens : List Token) : Bool :=
    Lookahead.word "trait" tokens ||
      (Lookahead.word "auto" tokens && Lookahead.word "trait" (Lookahead.rest tokens))
  let other (copier : Copier Unit) : Copier (Option Item) := do
    copier
    return some .other
  let concrete (copier : Copier String) : Copier (Option Item) := do
    return some (.concrete (← copier))
  if startsFunction tokens then functionItem inner
  else if Lookahead.word "extern" tokens then
    if Lookahead.word "crate" behind then other crateItem
    else if visible then failure
    else other (foreignItems inner)
  else if Lookahead.word "use" tokens then return (← useTree).map .imports
  else if Lookahead.word "static" tokens then
    return if ← staticItem inner then some .other else none
  else if Lookahead.word "const" tokens then
    let (valued, plain) ← constantItem inner
    return if valued && plain then some .other else none
  else if Lookahead.word "unsafe" tokens then
    if startsInterface behind then some <$> interfaceItem inner
    else if Lookahead.word "impl" behind then implementationItem inner visible
    else if Lookahead.word "extern" behind then
      if visible then failure else other (foreignItems inner)
    else some <$> moduleItem inner item
  else if Lookahead.word "mod" tokens then some <$> moduleItem inner item
  else if Lookahead.word "type" tokens then
    let found ← typeDefinition inner .beforeType
    return if found.isDefined && !found.isBounded then some (.synonym found.name) else none
  else if Lookahead.word "struct" tokens then concrete (structureItem inner)
  else if Lookahead.word "enum" tokens then concrete (enumerationItem inner)
  else if Lookahead.word "union" tokens && Lookahead.name behind then concrete (unionItem inner)
  else if startsInterface tokens then some <$> interfaceItem inner
  else if Lookahead.word "impl" tokens ||
      (Lookahead.word "default" tokens && !Lookahead.operator "!" behind) then
    implementationItem inner visible
  else if Lookahead.word "macro" tokens then
    macroDeclaration
    return none
  else
    if visible then failure
    other macroItem

/-- An item with at most `depth` levels of modules inside it. One that is written as it stands is
none of those that count. -/
def itemWithin : Nat → Copier Item
  | 0 => failure
  | depth + 1 => do
    let item? ← orAsItStands do
      takeAttributes inner
      let visible ← visibility
      itemBehind inner (itemWithin depth) visible
    return item?.getD .other

end Inner

end MiddlewareStack.Source
