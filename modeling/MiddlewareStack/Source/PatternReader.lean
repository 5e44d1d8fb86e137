import MiddlewareStack.Source.Member
import MiddlewareStack.Source.TypeReader

/-!
# Reading patterns

A pattern is kept as its tokens and, where it binds the whole value, the name it binds it to.
-/

namespace MiddlewareStack.Source

open TokenReader

/-- Where a range without an end stops. -/
def stopsRange (tokens : List Token) : Bool :=
  tokens.isEmpty || Lookahead.word "if" tokens || atOperator ["|", "=", ",", ";"] tokens ||
    (Lookahead.operator ":" tokens && !Lookahead.operator "::" tokens)

/-- Whether another alternative follows. -/
def startsAlternative (tokens : List Token) : Bool :=
  Lookahead.operator "|" tokens && !Lookahead.operator "||" tokens &&
    !Lookahead.operator "|=" tokens

section Inner

variable (inner : Inner)

/-- A pattern with its alternatives, in front of which a bar may stand. -/
def alternatives : TokenReader Pattern := do
  let leading ← skipOperator "|"
  let first ← inner.pattern
  let others ← whileAhead startsAlternative do
    operator "|"
    inner.pattern
  if !leading && others.isEmpty then return first
  let bar := Token.operator "|"
  return {
    tokens := (if leading then bar else []) ++
      separatedBy bar false ((first :: others).map Pattern.tokens) }

/-- A path as a value. -/
def valuePath : TokenReader (List Token) := do
  if ← ahead (Lookahead.operator "<") then qualifiedPath inner true
  else return (← path inner true).tokens

/-- An end of a range: a literal, a path or a constant block. -/
def rangeBound : TokenReader (List Token) := do
  if ← ahead Lookahead.literal then literalTokens
  else if ← skipWord "const" then return .ident "const" :: (← block inner)
  else valuePath inner

/-- What follows the dots of a range, and whether nothing does. Only a range that excludes its end
may have none. -/
def rangeRest (dots : String) : TokenReader (List Token × Bool) := do
  operator dots
  if dots = ".." && (← ahead stopsRange) then return (Token.operator "..", true)
  let dots := if dots = ".." then ".." else "..="
  return (Token.operator dots ++ (← rangeBound inner), false)

/-- The dots of a range. Three mean the same as two with an equals sign, and are written so. -/
def patternDots : TokenReader String := do
  if ← ahead (Lookahead.operator "...") then return "..."
  if ← ahead (Lookahead.operator "..=") then return "..="
  require (Lookahead.operator "..")
  return ".."

/-- A range that starts with an end, or that end alone. -/
def rangeFrom (first : List Token) : TokenReader Pattern := do
  if !(← ahead (Lookahead.operator "..")) then return { tokens := first }
  let (rest, isOpenRange) ← rangeRest inner (← patternDots)
  return { isOpenRange, tokens := first ++ rest }

/-- A field of a structure pattern. A name alone, after words or not, stands for the field of that
name. -/
def fieldPattern : TokenReader (List Token) := do
  let words := (← optionalWord "box") ++ (← optionalWord "ref") ++ (← optionalWord "mut")
  if !words.isEmpty then return words ++ [.ident (← name)]
  let (member, named) ← member
  if named && !(← ahead (Lookahead.operator ":")) then return [member]
  operator ":"
  return member :: Token.operator ":" ++ (← alternatives inner).tokens

/-- The fields of a structure pattern up to the end, at most as many as tokens in the argument. Dots
stand for all others. -/
def fieldPatterns : List Token → TokenReader (List Token)
  | [] => return []
  | _ :: count => do
    if ← ahead List.isEmpty then return []
    let attributes ← outerAttributes inner
    if ← skipOperator ".." then return attributes ++ Token.operator ".."
    let field := attributes ++ (← fieldPattern inner)
    if ← ahead List.isEmpty then return field
    operator ","
    return field ++ comma ++ (← fieldPatterns count)

/-- Patterns between commas. -/
def patternList : TokenReader (List Token) :=
  commaTokens do return (← alternatives inner).tokens

/-- Patterns between commas that are the items of a slice. A range of them has both ends. -/
def sliceList : TokenReader (List Token) :=
  commaTokens do
    let item ← alternatives inner
    if item.isOpenRange then failure
    return item.tokens

/-- A pattern that starts with a path: the path itself, a macro, fields, or a range. -/
def pathPattern : TokenReader Pattern := do
  let qualified ← ahead (Lookahead.operator "<")
  let (tokens, plain) ←
    if qualified then pure (← qualifiedPath inner true, false)
    else do
      let path ← path inner true
      pure (path.tokens, path.isPlain)
  if plain && (← ahead startsInvocation) then
    operator "!"
    return { tokens := tokens ++ Token.operator "!" ++ [← anyGroup] }
  if ← ahead (Lookahead.group .brace) then
    let fields ← inside .brace do fieldPatterns inner (← remaining)
    return { tokens := tokens ++ [.group .brace fields] }
  if ← ahead (Lookahead.group .parenthesis) then
    return { tokens := tokens ++ [.group .parenthesis (← inside .parenthesis (patternList inner))] }
  rangeFrom inner tokens

/-- Whether a pattern starts with a path and not with a name it binds. -/
def startsPathPattern (tokens : List Token) : Bool :=
  let behind := Lookahead.rest tokens
  (Lookahead.name tokens &&
      (atOperator ["::", "!", ".."] behind || Lookahead.group .brace behind ||
        Lookahead.group .parenthesis behind)) ||
    (Lookahead.word "self" tokens && Lookahead.operator "::" behind) ||
    atOperator ["::", "<"] tokens || Lookahead.oneOf ["Self", "super", "crate"] tokens

/-- A name for the whole value, and a pattern for it behind an at sign. -/
def namePattern : TokenReader Pattern := do
  let words := (← optionalWord "ref") ++ (← optionalWord "mut")
  let name ← if ← skipWord "self" then pure "self" else name
  let inside ←
    if ← skipOperator "@" then pure (Token.operator "@" ++ (← inner.pattern).tokens) else pure []
  return { name? := some name, tokens := words ++ .ident name :: inside }

/-- A pattern without alternatives. -/
def patternShape : TokenReader Pattern := do
  let tokens ← remaining
  if startsPathPattern tokens then pathPattern inner
  else if Lookahead.word "_" tokens then
    word "_"
    return { tokens := [.ident "_"] }
  else if Lookahead.word "box" tokens then
    word "box"
    let _ ← inner.pattern
    return { isRaw := true, tokens := ← takenSince tokens }
  else if Lookahead.literal tokens || Lookahead.word "const" tokens then
    rangeFrom inner (← rangeBound inner)
  else if Lookahead.name tokens || Lookahead.oneOf ["ref", "mut", "self"] tokens then
    namePattern inner
  else if Lookahead.operator "&" tokens then
    operator "&"
    let mutable ← optionalWord "mut"
    return { tokens := Token.operator "&" ++ mutable ++ (← inner.pattern).tokens }
  else if Lookahead.group .parenthesis tokens then
    return { tokens := [.group .parenthesis (← inside .parenthesis (patternList inner))] }
  else if Lookahead.group .bracket tokens then
    return { tokens := [.group .bracket (← inside .bracket (sliceList inner))] }
  else
    require fun tokens => !Lookahead.operator "..." tokens
    let (rest, bare) ← rangeRest inner (← patternDots)
    return { isOpenRange := !bare, tokens := rest }

end Inner

end MiddlewareStack.Source
