import MiddlewareStack.Source.AttributeReader

/-!
# Reading paths, bounds and parameters

Types, paths and bounds contain one another. Here each takes the readers of the types and the bounds
inside it as an argument.
-/

namespace MiddlewareStack.Source

open TokenReader

/-- A literal, with its sign apart. -/
def literalTokens : TokenReader (List Token) := do
  require Lookahead.literal
  if ← skipOperator "-" then return [.punct '-' false, ← next]
  return [← next]

/-- Whether a constant other than a name comes next. -/
def startsConstant (tokens : List Token) : Bool :=
  Lookahead.literal tokens || Lookahead.group .brace tokens

/-- The type behind an arrow, if there is one. -/
def optionalOutput (type : TokenReader TypeExpr) : TokenReader (Option TypeExpr) := do
  if ← skipOperator "->" then return some (← type)
  return none

def outputTokens : Option TypeExpr → List Token
  | some type => Token.operator "->" ++ type.tokens
  | none => []

/-- What may stand after the plus of a list of bounds. -/
def startsBound (const : Bool) (tokens : List Token) : Bool :=
  Lookahead.anyName tokens || atOperator ["::", "?"] tokens || Lookahead.lifetime tokens ||
    Lookahead.group .parenthesis tokens || (const && Lookahead.group .bracket tokens)

section Inner

variable (inner : Inner)

/-- A constant where a type could stand: a literal, a name or a block. -/
def constantArgument : TokenReader (List Token) := do
  if ← ahead Lookahead.literal then literalTokens
  else if ← ahead Lookahead.name then return [.ident (← name)]
  else block inner

/-- The arguments of an angle bracket with one name, an equals sign or a colon behind it. -/
def namedArgument (subject : List Token) : TokenReader Argument := do
  if ← skipOperator "=" then
    let value ←
      if ← ahead startsConstant then constantArgument inner else pure (← inner.type true).tokens
    return .verbatim (subject ++ Token.operator "=" ++ value)
  operator ":"
  let (bounds, trailing) ← separated (atOperator [",", ">"]) "+" inner.bound
  return .verbatim
    (subject ++ Token.operator ":" ++
      separatedBy (Token.operator "+") trailing (boundTokens bounds))

/-- Whether a path can have an equals sign or a colon behind it as an argument. -/
def PathExpr.isSingleName : PathExpr → Bool
  | ⟨false, [⟨_, .none⟩]⟩ => true
  | ⟨false, [⟨_, .angled ..⟩]⟩ => true
  | _ => false

/-- One argument between angle brackets. -/
def angledArgument : TokenReader Argument := do
  let tokens ← remaining
  if Lookahead.lifetime tokens && !Lookahead.operator "+" (Lookahead.rest tokens) then
    return .lifetime (← lifetime)
  if startsConstant tokens then return .verbatim (← constantArgument inner)
  match ← inner.type true with
  | .path path =>
    if path.isSingleName && (← ahead (atOperator ["=", ":"])) then
      namedArgument inner path.tokens
    else return .type (.path path)
  | other => return .type other

/-- Arguments between angle brackets, with the separator before them. -/
def angledArguments : TokenReader Arguments := do
  let separator ← skipOperator "::"
  operator "<"
  let (arguments, trailing) ← separated (Lookahead.operator ">") "," (angledArgument inner)
  operator ">"
  return .angled separator arguments trailing

/-- A segment of a path. In an expression, arguments have a separator before them. -/
def segment (expression : Bool) : TokenReader Segment := do
  let tokens ← remaining
  if Lookahead.oneOf ["super", "self", "crate", "try"] tokens then
    return { name := ← anyName, arguments := .none }
  require fun tokens => Lookahead.name tokens || Lookahead.word "Self" tokens
  let name ← anyName
  let tokens ← remaining
  let plain := !expression && Lookahead.operator "<" tokens && !Lookahead.operator "<=" tokens
  let separator := Lookahead.operator "::" tokens && Lookahead.operator "<" (tokens.drop 2)
  if plain || separator then return { name, arguments := ← angledArguments inner }
  return { name, arguments := .none }

/-- A separator that does not stand before a parenthesis. -/
def continuesPath (tokens : List Token) : Bool :=
  Lookahead.operator "::" tokens && !Lookahead.group .parenthesis (tokens.drop 2)

def path (expression : Bool) : TokenReader PathExpr := do
  let rooted ← skipOperator "::"
  let first ← segment inner expression
  let others ← whileAhead continuesPath do
    operator "::"
    segment inner expression
  return { rooted, segments := first :: others }

/-- The arguments and the output of a function trait. -/
def functionArguments : TokenReader Arguments := do
  let _ ← skipOperator "::"
  let (inputs, trailing) ← inside .parenthesis (commaSeparated (inner.type true))
  let output ← optionalOutput (inner.type false)
  return .parenthesized
    (.group .parenthesis (separatedBy comma trailing (inputs.map TypeExpr.tokens)) ::
      outputTokens output)

/-- Whether arguments may still be put behind a name: it has none, or empty angle brackets. -/
def Arguments.isEmpty : Arguments → Bool
  | .none => true
  | .angled _ [] _ => true
  | _ => false

/-- The segments of a trait's path, where the last may have the arguments of a function trait. -/
def withFunctionArguments : List Segment → TokenReader (List Segment)
  | [] => return []
  | [last] => do
    let tokens ← remaining
    let follows := Lookahead.group .parenthesis tokens ||
      (Lookahead.operator "::" tokens && Lookahead.group .parenthesis (tokens.drop 2))
    if last.arguments.isEmpty && follows then
      return [{ last with arguments := ← functionArguments inner }]
    return [last]
  | first :: rest => return first :: (← withFunctionArguments rest)

/-- A lifetime with the lifetimes that it outlives. -/
def lifetimeParameter (attributes : List Token) : TokenReader ListItem := do
  let name ← lifetime
  let stop (tokens : List Token) : Bool := tokens.isEmpty || atOperator [",", ">"] tokens
  let (bounds, trailing) ←
    if ← skipOperator ":" then separated stop "+" lifetime else pure ([], true)
  let limits := separatedBy (Token.operator "+") trailing (bounds.map Token.lifetime)
  return {
    isLifetime := true
    tokens := attributes ++ Token.lifetime name ++
      (if bounds.isEmpty then [] else Token.operator ":" ++ limits) }

/-- A type with its bounds and its default. -/
def typeParameter (attributes : List Token) : TokenReader ListItem := do
  let name ← name
  let stop (tokens : List Token) : Bool := tokens.isEmpty || atOperator [",", ">", "="] tokens
  let (bounds, trailing) ←
    if ← skipOperator ":" then separated stop "+" inner.bound else pure ([], true)
  let default ←
    if ← skipOperator "=" then pure (Token.operator "=" ++ (← inner.type true).tokens) else pure []
  let limits := separatedBy (Token.operator "+") trailing (boundTokens bounds)
  return {
    isLifetime := false
    tokens := attributes ++ [.ident name] ++
      (if bounds.isEmpty then [] else Token.operator ":" ++ limits) ++ default }

/-- A constant with its type and its default. -/
def constantParameter (attributes : List Token) : TokenReader ListItem := do
  word "const"
  let name ← name
  operator ":"
  let ty ← inner.type true
  let default ←
    if ← skipOperator "=" then pure (Token.operator "=" ++ (← constantArgument inner)) else pure []
  return {
    isLifetime := false
    tokens := attributes ++ [.ident "const", .ident name] ++ Token.operator ":" ++ ty.tokens ++
      default }

def parameter : TokenReader ListItem := do
  let attributes ← outerAttributes inner
  let tokens ← remaining
  if Lookahead.lifetime tokens then lifetimeParameter attributes
  else if Lookahead.word "const" tokens then constantParameter inner attributes
  else typeParameter inner attributes

/-- What `for` introduces, none if it is not there. -/
def optionalBinder : TokenReader (List Token) := do
  if ← skipWord "for" then
    operator "<"
    let (parameters, trailing) ← separated (Lookahead.operator ">") "," (parameter inner)
    operator ">"
    return .ident "for" ::
      angleBrackets (separatedBy comma trailing (parameters.map ListItem.tokens))
  return []

/-- The mark of a bound that is implemented as `const`, in brackets if it may be. -/
def skipConstMark : TokenReader Bool := do
  if ← ahead (Lookahead.group .bracket) then
    inside .bracket (TokenReader.word "const")
    return true
  skipWord "const"

/-- A trait as a bound, none if it is to be implemented as `const`. -/
def traitBound (const parenthesized : Bool) :
    TokenReader (Option Bound) := do
  let before ← optionalBinder inner
  let marked ← skipConstMark
  if marked && !const then failure
  let maybe ← skipOperator "?"
  let binder ← if maybe && before.isEmpty then optionalBinder inner else pure before
  if maybe && !binder.isEmpty then failure
  let ⟨rooted, segments⟩ ← path inner false
  let segments ← withFunctionArguments inner segments
  if marked then return none
  return some (.trait parenthesized maybe binder { rooted, segments })

/-- What a type captures. -/
def captures : TokenReader Bound := do
  word "use"
  operator "<"
  let (captured, trailing) ← separated (Lookahead.operator ">") "," capture
  operator ">"
  return .capture (.ident "use" :: angleBrackets (lifetimesFirst trailing captured))
where
  capture : TokenReader ListItem := do
    if ← ahead Lookahead.lifetime then
      return { isLifetime := true, tokens := Token.lifetime (← lifetime) }
    require fun tokens => Lookahead.name tokens || Lookahead.word "Self" tokens
    return { isLifetime := false, tokens := [.ident (← anyName)] }

/-- One bound. `captured` and `const` say which of the rarer forms may occur. -/
def boundShape (captured const : Bool) : TokenReader Bound := do
  let tokens ← remaining
  if Lookahead.lifetime tokens then return .lifetime (← lifetime)
  if Lookahead.word "use" tokens then
    let found ← captures
    if captured then return found else failure
  let found ←
    if Lookahead.group .parenthesis tokens then
      inside .parenthesis (traitBound inner const true)
    else traitBound inner const false
  match found with
  | some found => return found
  | none => return .constant (← takenSince tokens)

end Inner

end MiddlewareStack.Source
