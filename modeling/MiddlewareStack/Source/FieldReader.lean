import MiddlewareStack.Source.DefinitionReader

/-!
# Reading structures, enumerations and unions

Fields are named, in braces, or positional, in parentheses. Named fields may bring in the fields of
a structure or a union without a name of its own.
-/

namespace MiddlewareStack.Source

open TokenReader
open Copier

section Inner

variable (inner : Inner)

/-- Whether the type of a field without a name is written out. -/
def startsUnnamedFields (tokens : List Token) : Bool :=
  Lookahead.word "struct" tokens ||
    (Lookahead.word "union" tokens && Lookahead.group .brace (Lookahead.rest tokens))

/-- Named fields in braces, with at most `depth` levels of fields without a name. -/
def namedFieldsWithin : Nat → TokenReader (List Token)
  | 0 => failure
  | depth + 1 => do
    let fields ← inside .brace (commaTokens (Copier.tokens do
      takeAttributes inner
      let _ ← visibility
      let name ← takeIdent nameOrUnderscore
      takeOperator ":"
      if name = "_" && (← ahead startsUnnamedFields) then
        takeRaw do
          let _ ← next
          let _ ← namedFieldsWithin depth
      else
        let _ ← takeAnyType inner))
    return [.group .brace fields]

def namedFields : Copier Unit := do
  copy (namedFieldsWithin inner inner.limit)

def positionalFields : Copier Unit := do
  let _ ← takeInside .parenthesis (takeCommaSeparated do
    takeAttributes inner
    let _ ← visibility
    let _ ← takeAnyType inner)

def structureItem : Copier String := do
  takeWord "struct"
  let name ← takeName
  let _ ← takeGenerics inner
  if ← ahead (Lookahead.group .parenthesis) then
    positionalFields inner
    let _ ← takeConditions inner
    semicolon
  else
    let _ ← takeConditions inner
    if ← ahead (Lookahead.group .brace) then namedFields inner else semicolon
  return name

/-- A variant with its fields and its number. It is written without its visibility. -/
def variant : Copier Unit := do
  takeAttributes inner
  let _ ← visibility.result
  let _ ← takeName
  if ← ahead (Lookahead.group .brace) then namedFields inner
  else if ← ahead (Lookahead.group .parenthesis) then positionalFields inner
  let _ ← takeValue inner

def enumerationItem : Copier String := do
  takeWord "enum"
  let name ← takeName
  let _ ← takeGenerics inner
  let _ ← takeConditions inner
  let _ ← takeInside .brace (takeCommaSeparated (variant inner))
  return name

def unionItem : Copier String := do
  takeWord "union"
  let name ← takeName
  let _ ← takeGenerics inner
  let _ ← takeConditions inner
  namedFields inner
  return name

end Inner

end MiddlewareStack.Source
