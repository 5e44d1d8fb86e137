import MiddlewareStack.Source.Inner

/-!
# Copying tokens

A copier reads tokens and writes them. It writes what it takes in the same order, with only the
characters of one operator together, unless a rule asks for something else.
-/

namespace MiddlewareStack.Source

open TokenReader

/-- What was written, latest first. -/
structure Copy where
  latest : List Token := []

abbrev Copier (α : Type) := StateT Copy TokenReader α

namespace Copier

variable {α : Type}

def write (tokens : List Token) : Copier Unit :=
  modify fun copy => { latest := tokens.reverse ++ copy.latest }

/-- Write what a reader gives. -/
def copy (reader : TokenReader (List Token)) : Copier Unit := do
  write (← reader)

/-- The value of a copier and what it writes. -/
def result (copier : Copier α) : TokenReader (α × List Token) := do
  let (value, copy) ← StateT.run copier {}
  return (value, copy.latest.reverse)

/-- What a copier writes. -/
def tokens (copier : Copier Unit) : TokenReader (List Token) :=
  return (← copier.result).2

/-- Write what a copier takes as it stands if it has no value. -/
def orAsItStands (copier : Copier (Option α)) : Copier (Option α) := do
  let before ← remaining
  let (value?, written) ← copier.result
  if value?.isSome then write written else write (← takenSince before)
  return value?

/-- Take some tokens as they stand. -/
def takeRaw (reader : TokenReader Unit) : Copier Unit := do
  let before ← remaining
  reader
  copy (takenSince before)

def takeNext : Copier Unit := do
  write [← next]

def takeWord (text : String) : Copier Unit := do
  word text
  write [.ident text]

/-- Take a word if it is next, and say whether it was. -/
def takeWordIf (text : String) : Copier Bool := do
  if ← ahead (Lookahead.word text) then
    takeWord text
    return true
  return false

def takeOperator (text : String) : Copier Unit := do
  operator text
  write (Token.operator text)

/-- Take an operator if it is next, and say whether it was. -/
def takeOperatorIf (text : String) : Copier Bool := do
  if ← ahead (Lookahead.operator text) then
    takeOperator text
    return true
  return false

/-- Take a name or a word with a reader of it. -/
def takeIdent (reader : TokenReader String) : Copier String := do
  let name ← reader
  write [.ident name]
  return name

def takeName : Copier String :=
  takeIdent name

def takeType (reader : TokenReader TypeExpr) : Copier TypeExpr := do
  let type ← reader
  write type.tokens
  return type

/-- Take a group and all that is in it. -/
def takeInside (d : Delimiter) (copier : Copier α) : Copier α := do
  let (value, tokens) ← inside d copier.result
  write [.group d tokens]
  return value

/-- Take items as long as a test holds of what follows. -/
def takeWhileAhead (test : List Token → Bool) (copier : Copier α) : Copier (List α) := do
  let items ← whileAhead test copier.result
  write (items.flatMap Prod.snd)
  return items.map Prod.fst

/-- Take items up to the end. -/
def takeToEnd (copier : Copier α) : Copier (List α) :=
  takeWhileAhead (fun tokens => !tokens.isEmpty) copier

/-- Take items between commas, up to the end. -/
def takeCommaSeparated (copier : Copier α) : Copier (List α) := do
  let (items, trailing) ← commaSeparated copier.result
  write (separatedBy comma trailing (items.map Prod.snd))
  return items.map Prod.fst

end Copier

end MiddlewareStack.Source
