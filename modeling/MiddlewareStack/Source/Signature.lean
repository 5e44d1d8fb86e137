import MiddlewareStack.Source.PatternReader

/-!
# Signatures in source text

A function's name, its inputs and its output. What else belongs to it is kept as tokens, so that the
signature can be written back.
-/

namespace MiddlewareStack.Source

open TokenReader

inductive Input where
  /-- The value that a method is called on, borrowed with an optional lifetime, and with a type of
  its own if one is given. -/
  | receiver (attributes : List Token) (borrow : Option (Option String)) (mutable : Bool)
      (type : Option TypeExpr)
  | typed (attributes : List Token) (pattern : Pattern) (type : TypeExpr)

structure Signature where
  qualifiers : List Token
  name : String
  generics : List Token
  inputs : List Input
  /-- Whether a comma stands behind the last of them. -/
  trailing : Bool
  /-- The mark of further inputs that are not declared, in front of which a comma stands. -/
  variadic : List Token
  output : Option TypeExpr
  conditions : List Token

namespace Input

def tokens : Input → List Token
  | .receiver attributes borrow mutable type =>
    let borrowed (lifetime : Option String) : List Token :=
      Token.operator "&" ++ (lifetime.map Token.lifetime).getD []
    attributes ++ (borrow.map borrowed).getD [] ++
      (if mutable then [.ident "mut"] else []) ++ [.ident "self"] ++
      (type.map fun type => Token.operator ":" ++ type.tokens).getD []
  | .typed attributes pattern type =>
    attributes ++ pattern.tokens ++ Token.operator ":" ++ type.tokens

def isReceiver : Input → Bool
  | .receiver .. => true
  | _ => false

end Input

namespace Signature

def inputTokens (s : Signature) : List Token :=
  separatedBy comma s.trailing (s.inputs.map Input.tokens) ++ s.variadic

def tokens (s : Signature) : List Token :=
  s.qualifiers ++ [.ident "fn", .ident s.name] ++ s.generics ++
    [.group .parenthesis s.inputTokens] ++ outputTokens s.output ++ s.conditions

/-- The receiver, which can only be the first input. -/
def receiver? (s : Signature) : Option Input :=
  s.inputs.head?.filter Input.isReceiver

end Signature

section Inner

variable (inner : Inner)

/-- Whether angle brackets are those of parameters and not of a path. -/
def startsParameters (tokens : List Token) : Bool :=
  let second := Lookahead.rest tokens
  let third := Lookahead.rest second
  Lookahead.operator "<" tokens &&
    (atOperator [">", "#"] second || Lookahead.word "const" second ||
      ((Lookahead.lifetime second || Lookahead.name second) &&
        (atOperator [">", ",", "="] third ||
          (Lookahead.operator ":" third && !Lookahead.operator "::" third))))

/-- One parameter in angle brackets, an underscore standing for a type. -/
def anyParameter : TokenReader ListItem := do
  let attributes ← outerAttributes inner
  if ← skipWord "_" then return { isLifetime := false, tokens := attributes ++ [.ident "_"] }
  let item ← parameter inner
  return { item with tokens := attributes ++ item.tokens }

/-- Parameters in angle brackets. Without any, there are no brackets either. -/
def optionalGenerics : TokenReader (List Token) := do
  if !(← skipOperator "<") then return []
  let (parameters, trailing) ← separated (Lookahead.operator ">") "," (anyParameter inner)
  operator ">"
  if parameters.isEmpty then return []
  return angleBrackets (lifetimesFirst trailing parameters)

/-- Where a list of conditions stops. -/
def stopsConditions (tokens : List Token) : Bool :=
  tokens.isEmpty || Lookahead.group .brace tokens || atOperator [",", ";", "="] tokens ||
    (Lookahead.operator ":" tokens && !Lookahead.operator "::" tokens)

/-- The bounds of a lifetime or of a type. -/
def condition : TokenReader (List Token) := do
  let tokens ← remaining
  if Lookahead.lifetime tokens && Lookahead.operator ":" (Lookahead.rest tokens) then
    let subject ← lifetime
    operator ":"
    let (longer, trailing) ← separated stopsConditions "+" lifetime
    return Token.lifetime subject ++ Token.operator ":" ++
      separatedBy (Token.operator "+") trailing (longer.map Token.lifetime)
  let binder ← optionalBinder inner
  let subject ← inner.type true
  operator ":"
  let (bounds, trailing) ← separated stopsConditions "+" inner.bound
  return binder ++ subject.tokens ++ Token.operator ":" ++
    separatedBy (Token.operator "+") trailing (boundTokens bounds)

/-- The conditions behind `where`, which vanishes with nothing behind it. -/
def optionalConditions : TokenReader (List Token) := do
  if !(← skipWord "where") then return []
  require fun tokens => !startsParameters tokens
  let (conditions, trailing) ← separated stopsConditions "," (condition inner)
  if conditions.isEmpty then return []
  return .ident "where" :: separatedBy comma trailing conditions

/-- Whether a receiver comes next, and not a path that starts with the same word. -/
def startsReceiver (tokens : List Token) : Bool :=
  let tokens :=
    if Lookahead.operator "&" tokens then
      let behind := tokens.drop 1
      if Lookahead.lifetime behind then Lookahead.rest behind else behind
    else tokens
  let tokens := if Lookahead.word "mut" tokens then Lookahead.rest tokens else tokens
  Lookahead.word "self" tokens && !Lookahead.operator "::" (Lookahead.rest tokens)

def receiver (attributes : List Token) : TokenReader Input := do
  let borrow ←
    if ← skipOperator "&" then pure (some (← optionalLifetime)) else pure none
  let mutable ← skipWord "mut"
  word "self"
  if borrow.isNone && (← skipOperator ":") then
    return .receiver attributes borrow mutable (some (← inner.type true))
  return .receiver attributes borrow mutable none

/-- The pattern of an input that has none. -/
def wildcard : Pattern :=
  { name? := none, tokens := [.ident "_"] }

/-- A typed input, or the dots of a variadic function with the pattern before them. -/
def typedInput (attributes : List Token) : TokenReader (Input ⊕ List Token) := do
  let tokens ← remaining
  if Lookahead.name tokens && Lookahead.operator "<" (Lookahead.rest tokens) then
    return .inl (.typed attributes wildcard (← inner.type true))
  let pattern ← inner.pattern
  operator ":"
  if ← skipOperator "..." then
    return .inr (attributes ++ pattern.tokens ++ Token.operator ":" ++ Token.operator "...")
  return .inl (.typed attributes pattern (← inner.type true))

def anyInput (attributes : List Token) : TokenReader (Input ⊕ List Token) := do
  if ← skipOperator "..." then return .inr (attributes ++ Token.operator "...")
  if ← ahead startsReceiver then return .inl (← receiver inner attributes)
  typedInput inner attributes

/-- The inputs up to the end, whether a comma stands behind the last of them, and the mark of
further ones. Only the first may be a receiver. There are at most as many as tokens in the last
argument. -/
def inputs (first : Bool) : List Token → TokenReader (List Input × Bool × List Token)
  | [] => return ([], true, [])
  | _ :: count => do
    if ← ahead List.isEmpty then return ([], true, [])
    let attributes ← outerAttributes inner
    match ← anyInput inner attributes with
    | .inr dots =>
      require fun tokens => tokens.isEmpty || Lookahead.operator "," tokens
      let trailing ← skipOperator ","
      return ([], true, dots ++ (if trailing then comma else []))
    | .inl input =>
      if input.isReceiver && !first then failure
      if ← ahead List.isEmpty then return ([input], false, [])
      operator ","
      let (others, trailing, variadic) ← inputs false count
      return (input :: others, trailing, variadic)

def signature : TokenReader Signature := do
  let const ← optionalWord "const"
  let async ← optionalWord "async"
  let guarded ← optionalWord "unsafe"
  let abi ← optionalAbi
  word "fn"
  let name ← name
  let generics ← optionalGenerics inner
  let (inputs, trailing, variadic) ← inside .parenthesis do inputs inner true (← remaining)
  let output ← optionalOutput (inner.type true)
  let conditions ← optionalConditions inner
  return {
    qualifiers := const ++ async ++ guarded ++ abi
    name, generics, inputs, trailing, variadic, output, conditions }

end Inner

end MiddlewareStack.Source
