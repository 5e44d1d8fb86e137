import MiddlewareStack.Source.TokenReader
import MiddlewareStack.Text.Hex

/-!
# Members of structures and tuples

A member is named, or it is counted by an integer without a suffix. An integer is written in base
ten again.
-/

namespace MiddlewareStack.Source

open TokenReader

/-- A number beyond the last that can count a member. -/
def memberLimit : Nat := 0x100000000

/-- The value of digits of a base, between which underscores may stand. -/
def digitsValue? (base : Nat) (digits : List Char) : Option Nat :=
  let digits := digits.filter (· != '_')
  if digits.isEmpty then none
  else
    (digits.mapM fun c => (Text.hexValue? c).filter (· < base)).map fun values =>
      values.foldl (fun value digit => value * base + digit) 0

/-- The value of an integer without a suffix. -/
def integerValue? : List Char → Option Nat
  | '0' :: 'x' :: digits => digitsValue? 16 digits
  | '0' :: 'o' :: digits => digitsValue? 8 digits
  | '0' :: 'b' :: digits => digitsValue? 2 digits
  | digits => if digits.head? = some '_' then none else digitsValue? 10 digits

/-- The position that a member has by the text of an integer. -/
def position? (text : List Char) : Option Nat :=
  (integerValue? text).filter (· < memberLimit)

def positionToken (position : Nat) : Token :=
  .literal (toString position)

/-- A member, with whether it is named. -/
def member : TokenReader (Token × Bool) := do
  if ← ahead Lookahead.name then return (.ident (← name), true)
  match ← next with
  | .literal text =>
    match position? text.toList with
    | some position => return (positionToken position, false)
    | none => failure
  | _ => failure

/-- The parts of a text between dots. -/
def betweenDots : List Char → List (List Char)
  | [] => [[]]
  | '.' :: rest => [] :: betweenDots rest
  | c :: rest =>
    match betweenDots rest with
    | [] => [[c]]
    | first :: others => (c :: first) :: others

/-- Members of members that look like one number with a point, and whether the point of another
member stands behind them. -/
def dottedMembers? (text : List Char) : Option (List Nat × Bool) :=
  let parts := betweenDots text
  let pending := parts.getLast? = some []
  let parts := if pending then parts.dropLast else parts
  (parts.mapM position?).map fun positions => (positions, pending)

end MiddlewareStack.Source
