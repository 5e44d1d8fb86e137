import MiddlewareStack.Source.Token

/-!
# Reading tokens

A reader takes tokens from the front of a list, or fails. What it leaves is a rest of the list.
Looking ahead is a question about the list.
-/

namespace MiddlewareStack.Source

structure TokenReader (α : Type) where
  /-- The value that is read, and the tokens behind what it is read from. -/
  run : List Token → Option (α × List Token)
  leaves_suffix : ∀ {tokens value rest}, run tokens = some (value, rest) → rest <:+ tokens

/-- The words that are no names. -/
def reservedWords : List String :=
  ["_", "abstract", "as", "async", "await", "become", "box", "break", "const", "continue", "crate",
    "do", "dyn", "else", "enum", "extern", "false", "final", "fn", "for", "if", "impl", "in", "let",
    "loop", "macro", "match", "mod", "move", "mut", "override", "priv", "pub", "ref", "return",
    "Self", "self", "static", "struct", "super", "trait", "true", "try", "type", "typeof", "unsafe",
    "unsized", "use", "virtual", "where", "while", "yield"]

namespace Lookahead

def anyName : List Token → Bool
  | .ident _ :: _ => true
  | _ => false

def name : List Token → Bool
  | .ident name :: _ => name ∉ reservedWords
  | _ => false

def word (text : String) : List Token → Bool
  | .ident name :: _ => name == text
  | _ => false

def oneOf (words : List String) : List Token → Bool
  | .ident name :: _ => name ∈ words
  | _ => false

/-- The characters of an operator, with more punctuation behind them or not. -/
def operatorChars : List Char → List Token → Bool
  | [], _ => true
  | [last], .punct c _ :: _ => c == last
  | first :: rest, .punct c joint :: tokens => c == first && joint && operatorChars rest tokens
  | _, _ => false

def operator (text : String) (tokens : List Token) : Bool :=
  operatorChars text.toList tokens

def lifetime : List Token → Bool
  | .punct '\'' true :: .ident _ :: _ => true
  | _ => false

def group (d : Delimiter) : List Token → Bool
  | .group opened _ :: _ => opened == d
  | _ => false

def anyGroup : List Token → Bool
  | .group _ _ :: _ => true
  | _ => false

/-- A string literal, cooked or raw. -/
def string : List Token → Bool
  | .literal text :: _ => text.toList.head?.any fun c => c == '"' || c == 'r'
  | _ => false

/-- A literal, which a minus may negate if it is a number. -/
def literal : List Token → Bool
  | .literal _ :: _ => true
  | .ident name :: _ => name == "true" || name == "false"
  | .punct '-' _ :: .literal text :: _ => text.toList.head?.any Char.isDigit
  | _ => false

/-- What follows the first token. A lifetime counts as one. -/
def rest : List Token → List Token
  | .punct '\'' true :: .ident _ :: rest => rest
  | _ :: rest => rest
  | [] => []

/-- The words that may start a path although they are no names. -/
def pathWords : List String :=
  ["super", "self", "Self", "crate"]

def pathName (tokens : List Token) : Bool :=
  name tokens || oneOf pathWords tokens

end Lookahead

namespace TokenReader

variable {α β : Type}

/-- Take nothing. -/
def give (value : α) : TokenReader α where
  run tokens := some (value, tokens)
  leaves_suffix h := by
    cases h
    exact List.suffix_refl _

def andThen (reader : TokenReader α) (next : α → TokenReader β) : TokenReader β where
  run tokens :=
    match reader.run tokens with
    | some (value, rest) => (next value).run rest
    | none => none
  leaves_suffix h := by
    split at h
    · next first => exact ((next _).leaves_suffix h).trans (reader.leaves_suffix first)
    · cases h

instance : Monad TokenReader where
  pure := give
  bind := andThen

/-- The second reader starts where the first one did. -/
def orElse (reader : TokenReader α) (other : Unit → TokenReader α) : TokenReader α where
  run tokens := (reader.run tokens).or ((other ()).run tokens)
  leaves_suffix h := by
    rcases Option.or_eq_some_iff.mp h with first | ⟨_, second⟩
    · exact reader.leaves_suffix first
    · exact (other ()).leaves_suffix second

instance : Alternative TokenReader where
  failure := { run := fun _ => none, leaves_suffix := nofun }
  orElse := orElse

/-- A reader that is only put together when it is used. -/
def later (reader : Unit → TokenReader α) : TokenReader α where
  run tokens := (reader ()).run tokens
  leaves_suffix := (reader ()).leaves_suffix

/-- The tokens that are still to be read. -/
def remaining : TokenReader (List Token) where
  run tokens := some (tokens, tokens)
  leaves_suffix h := by
    cases h
    exact List.suffix_refl _

/-- Take a number of tokens, or all if there are fewer. -/
def drop (count : Nat) : TokenReader Unit where
  run tokens := some ((), tokens.drop count)
  leaves_suffix h := by
    cases h
    exact List.drop_suffix _ _

def next : TokenReader Token where
  run
    | first :: rest => some (first, rest)
    | [] => none
  leaves_suffix {tokens _ _} h := by
    cases tokens with
    | nil => cases h
    | cons first rest =>
      cases h
      exact List.suffix_cons _ _

/-- Read, but take nothing if a test holds of what is left. There is no value then. -/
def unlessBefore (test : List Token → Bool) (reader : TokenReader α) : TokenReader (Option α) where
  run tokens :=
    match reader.run tokens with
    | some (value, rest) => if test rest then some (none, tokens) else some (some value, rest)
    | none => none
  leaves_suffix h := by
    split at h
    · next first =>
      split at h
      · cases h
        exact List.suffix_refl _
      · cases h
        exact reader.leaves_suffix first
    · cases h

def ahead (test : List Token → Bool) : TokenReader Bool :=
  return test (← remaining)

/-- Fail unless a test holds of what follows. -/
def require (test : List Token → Bool) : TokenReader Unit := do
  if test (← remaining) then pure () else failure

def word (text : String) : TokenReader Unit := do
  require (Lookahead.word text)
  let _ ← next

/-- Take a word if it is next, and say whether it was. -/
def skipWord (text : String) : TokenReader Bool := do
  if ← ahead (Lookahead.word text) then
    let _ ← next
    return true
  return false

/-- The tokens of a word that may be there. -/
def optionalWord (text : String) : TokenReader (List Token) :=
  return if ← skipWord text then [.ident text] else []

/-- Any name or word. -/
def anyName : TokenReader String := do
  match ← next with
  | .ident name => return name
  | _ => failure

def name : TokenReader String := do
  require Lookahead.name
  anyName

/-- A name or an underscore. -/
def nameOrUnderscore : TokenReader String := do
  require fun tokens => Lookahead.name tokens || Lookahead.word "_" tokens
  anyName

def operator (text : String) : TokenReader Unit := do
  require (Lookahead.operator text)
  drop text.length

def skipOperator (text : String) : TokenReader Bool := do
  if ← ahead (Lookahead.operator text) then
    operator text
    return true
  return false

def lifetime : TokenReader String := do
  require Lookahead.lifetime
  let _ ← next
  anyName

def optionalLifetime : TokenReader (Option String) := do
  if ← ahead Lookahead.lifetime then return some (← lifetime)
  return none

/-- The content of a group. -/
def content (d : Delimiter) : TokenReader (List Token) := do
  require (Lookahead.group d)
  match ← next with
  | .group _ content => return content
  | _ => failure

def anyGroup : TokenReader Token := do
  require Lookahead.anyGroup
  next

/-- Read all of some tokens. -/
def within (tokens : List Token) (reader : TokenReader α) : TokenReader α :=
  match reader.run tokens with
  | some (value, []) => pure value
  | _ => failure

/-- Read all of a group. -/
def inside (d : Delimiter) (reader : TokenReader α) : TokenReader α := do
  within (← content d) reader

/-- What was taken since `before` was to be read, as it stands. -/
def takenSince (before : List Token) : TokenReader (List Token) :=
  return before.take (before.length - (← remaining).length)

/-- Read as long as a test holds. There are at most as many rounds as tokens in the last
argument. -/
def whileAheadFrom (test : List Token → Bool) (reader : TokenReader α) :
    List Token → TokenReader (List α)
  | [] => do if ← ahead test then failure else return []
  | _ :: bound => do
    if ← ahead test then
      let first ← reader
      return first :: (← whileAheadFrom test reader bound)
    return []

/-- Read as long as a test holds of what follows. Every round takes a token. -/
def whileAhead (test : List Token → Bool) (reader : TokenReader α) : TokenReader (List α) := do
  whileAheadFrom test reader (← remaining)

/-- Read until nothing is left. -/
def toEnd (reader : TokenReader α) : TokenReader (List α) :=
  whileAhead (fun tokens => !tokens.isEmpty) reader

/-- Items between separators, at most as many as tokens in the last argument. -/
def separatedFrom (stop : List Token → Bool) (separator : String) (reader : TokenReader α) :
    List Token → TokenReader (List α × Bool)
  | [] => do if ← ahead stop then return ([], true) else failure
  | _ :: bound => do
    if ← ahead stop then return ([], true)
    let first ← reader
    if ← skipOperator separator then
      let (rest, trailing) ← separatedFrom stop separator reader bound
      return (first :: rest, trailing)
    return ([first], false)

/-- Items up to where a test holds or no separator follows, and whether the last has a separator
behind it. Every item takes a token. -/
def separated (stop : List Token → Bool) (separator : String) (reader : TokenReader α) :
    TokenReader (List α × Bool) := do
  separatedFrom stop separator reader (← remaining)

/-- Items between commas up to the end. -/
def commaSeparated (reader : TokenReader α) : TokenReader (List α × Bool) :=
  separated List.isEmpty "," reader

/-- Read all of some tokens, with nothing before or after. -/
def readAll (reader : TokenReader α) (tokens : List Token) : Option α :=
  ((within tokens reader).run []).map Prod.fst

end TokenReader

end MiddlewareStack.Source
