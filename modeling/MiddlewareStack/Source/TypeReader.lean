import MiddlewareStack.Source.PathReader

/-!
# Reading types

Only types that name declarations keep their shape. All others are written as tokens at once.
-/

namespace MiddlewareStack.Source

open TokenReader

/-- The bounds behind a first one. After a plus, `starts` says whether another one follows. There
are at most as many as tokens in the last argument. -/
def moreBounds (bound : TokenReader Bound) (starts : List Token → Bool) :
    List Token → TokenReader (List Bound × Bool)
  | [] => return ([], false)
  | _ :: count => do
    if !(← skipOperator "+") then return ([], false)
    if !(← ahead starts) then return ([], true)
    let first ← bound
    let (rest, trailing) ← moreBounds bound starts count
    return (first :: rest, trailing)

/-- Bounds of which more than one may stand here if `plus`, and at least one has to name a trait. -/
def bounds (bound : TokenReader Bound) (plus const : Bool) : TokenReader (List Bound × Bool) := do
  let first ← bound
  let (rest, trailing) ←
    if plus then moreBounds bound (startsBound const) (← remaining) else pure ([], false)
  if (first :: rest).any Bound.namesTrait then return (first :: rest, trailing) else failure

/-- The calling convention of a function. -/
def optionalAbi : TokenReader (List Token) := do
  if !(← skipWord "extern") then return []
  if ← ahead Lookahead.string then return [.ident "extern", ← next]
  return [.ident "extern"]

section Inner

variable (inner : Inner)

/-- Bounds of a trait object behind a first one. -/
def objectBounds (first : Bound) (starts : List Token → Bool) : TokenReader TypeExpr := do
  let bound := boundShape inner false false
  let (rest, trailing) ← moreBounds bound starts (← remaining)
  return .traitObject false (first :: rest) trailing

/-- The bound that a type between parentheses is when a plus follows. -/
def TypeExpr.parenthesizedBound? : TypeExpr → Option Bound
  | .path target => some (.trait true false [] target)
  | .traitObject false [.trait _ maybe binder target] false =>
    some (.trait true maybe binder target)
  | .traitObject false [only] false => some only
  | _ => none

/-- A tuple of at least one type. -/
def tupleRest (first : TypeExpr) : TokenReader TypeExpr := do
  operator ","
  let (others, trailing) ← commaSeparated (inner.type true)
  let items := separatedBy comma trailing ((first :: others).map TypeExpr.tokens)
  return .verbatim [.group .parenthesis items]

/-- What is between the parentheses of a type, with whether it is a bound already. -/
def parenthesized : TokenReader (TypeExpr ⊕ Bound) := do
  let tokens ← remaining
  if tokens.isEmpty then return .inl (.verbatim [.group .parenthesis []])
  if Lookahead.lifetime tokens then
    let (bounds, trailing) ← bounds (boundShape inner false false) true false
    return .inl (.paren (.traitObject false bounds trailing))
  if Lookahead.operator "?" tokens then
    match ← traitBound inner false true with
    | some bound => return .inr bound
    | none => failure
  let first ← inner.type true
  if ← ahead (Lookahead.operator ",") then return .inl (← tupleRest inner first)
  return .inl (.paren first)

/-- A tuple, a type in parentheses, or a bound in parentheses and what is added to it. -/
def parenthesizedType (plus : Bool) : TokenReader TypeExpr := do
  match ← inside .parenthesis (parenthesized inner) with
  | .inr bound => objectBounds inner bound fun _ => true
  | .inl (.paren first) =>
    if plus && (← ahead (Lookahead.operator "+")) then
      match first.parenthesizedBound? with
      | some bound => objectBounds inner bound fun _ => true
      | none => return .paren first
    else return .paren first
  | .inl other => return other

/-- Whether the name of an argument and a colon come next. -/
def startsNamed (receiver : Bool) (tokens : List Token) : Bool :=
  let behind := Lookahead.rest tokens
  (Lookahead.name tokens || Lookahead.word "_" tokens ||
      (receiver && Lookahead.word "self" tokens)) &&
    Lookahead.operator ":" behind && !Lookahead.operator "::" behind

/-- Whether a receiver that is changed comes next. -/
def startsChanged (tokens : List Token) : Bool :=
  Lookahead.word "mut" tokens && Lookahead.word "self" (Lookahead.rest tokens)

/-- One argument of a function pointer. Only the first may be a receiver, and one that is changed is
written as it stands. -/
def pointerArgument (first : Bool) : TokenReader (List Token) := do
  let before ← remaining
  let changed := first && startsChanged before
  if changed then word "mut"
  let tokens ← remaining
  let named := startsNamed first tokens
  let name ←
    if named then do
      let name ← anyName
      operator ":"
      pure (.ident name :: Token.operator ":")
    else pure []
  if first && (← ahead startsChanged) && !(named && Lookahead.word "self" tokens) then
    word "mut"
    word "self"
    takenSince before
  else if changed && !named then
    word "self"
    takenSince before
  else
    let type ← inner.type true
    if changed then takenSince before else return name ++ type.tokens

/-- Whether arguments that are not declared come next. -/
def startsVariadic (tokens : List Token) : Bool :=
  let behind := Lookahead.rest tokens
  Lookahead.operator "..." tokens ||
    ((Lookahead.name tokens || Lookahead.word "_" tokens) && Lookahead.operator ":" behind &&
      Lookahead.operator "..." (Lookahead.rest behind))

def variadicArgument : TokenReader (List Token) := do
  let named ← ahead fun tokens => !Lookahead.operator "..." tokens
  let name ← if named then pure [Token.ident (← anyName)] else pure []
  if named then operator ":"
  operator "..."
  let trailing ← skipOperator ","
  return name ++ (if named then Token.operator ":" else []) ++ Token.operator "..." ++
    (if trailing then comma else [])

/-- The arguments of a function pointer up to the end, at most as many as tokens in the last
argument. -/
def pointerArguments (first : Bool) : List Token → TokenReader (List Token)
  | [] => return []
  | _ :: count => do
    if ← ahead List.isEmpty then return []
    let attributes ← outerAttributes inner
    if ← ahead startsVariadic then return attributes ++ (← variadicArgument)
    let argument ← pointerArgument inner first
    if ← ahead List.isEmpty then return attributes ++ argument
    operator ","
    return attributes ++ argument ++ comma ++ (← pointerArguments false count)

/-- A function pointer. `binder` is what stands before it. -/
def functionPointer (binder : List Token) : TokenReader TypeExpr := do
  let qualifier ← optionalWord "unsafe"
  let abi ← optionalAbi
  word "fn"
  let arguments ← inside .parenthesis do pointerArguments inner true (← remaining)
  let output ← optionalOutput (inner.type false)
  return .verbatim (binder ++ qualifier ++ abi ++
    [.ident "fn", .group .parenthesis arguments] ++ outputTokens output)

/-- A path that starts from an item of a type. -/
def qualifiedPath (expression : Bool) : TokenReader (List Token) := do
  operator "<"
  let subject ← inner.type true
  let view ←
    if ← skipWord "as" then pure (.ident "as" :: (← path inner false).tokens) else pure []
  operator ">"
  operator "::"
  let first ← segment inner expression
  let others ← whileAhead (Lookahead.operator "::") do
    operator "::"
    segment inner expression
  return angleBrackets (subject.tokens ++ view) ++ Token.operator "::" ++
    separatedBy (Token.operator "::") false (segmentTokens (first :: others))

/-- Whether no segment has arguments. -/
def PathExpr.isPlain (p : PathExpr) : Bool :=
  p.segments.all fun segment =>
    match segment.arguments with
    | .none => true
    | _ => false

/-- The exclamation mark of a macro, which is not the start of an inequality. -/
def startsInvocation (tokens : List Token) : Bool :=
  Lookahead.operator "!" tokens && !Lookahead.operator "!=" tokens

/-- A path, a macro, or a list of bounds that starts with a path. -/
def pathType (plus : Bool) (binder : List Token) : TokenReader TypeExpr := do
  if ← ahead (Lookahead.operator "<") then return .verbatim (← qualifiedPath inner false)
  let found ← path inner false
  let tokens ← remaining
  if found.isPlain && startsInvocation tokens then
    operator "!"
    return .verbatim (found.tokens ++ Token.operator "!" ++ [← anyGroup])
  if plus && Lookahead.operator "+" tokens then
    objectBounds inner (.trait false false binder found) (startsBound false)
  else if binder.isEmpty then return .path found
  else return .traitObject false [.trait false false binder found] false

/-- A slice, or an array with its length. -/
def bracketedType : TokenReader TypeExpr := do
  let item ← inner.type true
  if ← skipOperator ";" then
    let length ← expressionTokens inner
    return .verbatim [.group .bracket (item.tokens ++ Token.operator ";" ++ length)]
  return .verbatim [.group .bracket item.tokens]

def dynType (plus : Bool) : TokenReader TypeExpr := do
  let before ← remaining
  word "dyn"
  let pointer ← skipOperator "*"
  let (bounds, trailing) ← bounds (boundShape inner false false) plus false
  if pointer then return .verbatim (← takenSince before)
  return .traitObject true bounds trailing

def pointerType : TokenReader TypeExpr := do
  operator "*"
  require (Lookahead.oneOf ["const", "mut"])
  let access ← next
  return .verbatim (Token.operator "*" ++ [access] ++ (← inner.type false).tokens)

def referenceType : TokenReader TypeExpr := do
  operator "&"
  let lifetime ← optionalLifetime
  let mutable ← skipWord "mut"
  return .reference lifetime mutable (← inner.type false)

def implType (plus : Bool) : TokenReader TypeExpr := do
  word "impl"
  let (bounds, trailing) ← bounds (boundShape inner true true) plus true
  return .implTrait bounds trailing

/-- What may follow a binder in front of a type. -/
def startsBindable (tokens : List Token) : Bool :=
  Lookahead.pathName tokens || Lookahead.oneOf ["fn", "unsafe", "extern"] tokens

/-- Whether something that is built into the compiler comes next. -/
def startsBuiltin (tokens : List Token) : Bool :=
  Lookahead.word "builtin" tokens && Lookahead.operator "#" (Lookahead.rest tokens)

/-- What is built into the compiler: its name and its arguments. -/
def builtin : TokenReader Unit := do
  word "builtin"
  operator "#"
  let _ ← name
  let _ ← content .parenthesis

def typeShape (plus : Bool) : TokenReader TypeExpr := do
  let before ← remaining
  let binder ← optionalBinder inner
  let tokens ← remaining
  if !binder.isEmpty && !startsBindable tokens then failure
  if startsBuiltin tokens then
    builtin
    return .verbatim (← takenSince before)
  else if Lookahead.group .parenthesis tokens then parenthesizedType inner plus
  else if Lookahead.oneOf ["fn", "unsafe", "extern"] tokens then functionPointer inner binder
  else if Lookahead.pathName tokens || atOperator ["::", "<"] tokens then
    pathType inner plus binder
  else if Lookahead.word "dyn" tokens then dynType inner plus
  else if Lookahead.group .bracket tokens then inside .bracket (bracketedType inner)
  else if Lookahead.operator "*" tokens then pointerType inner
  else if Lookahead.operator "&" tokens then referenceType inner
  else if Lookahead.operator "!" tokens then
    operator "!"
    return .verbatim (Token.operator "!")
  else if Lookahead.word "impl" tokens then implType inner plus
  else if Lookahead.word "_" tokens then
    word "_"
    return .verbatim [.ident "_"]
  else
    require Lookahead.lifetime
    let (bounds, trailing) ← bounds (boundShape inner false false) true false
    return .traitObject false bounds trailing

end Inner

end MiddlewareStack.Source
