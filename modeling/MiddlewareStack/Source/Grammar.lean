import MiddlewareStack.Source.ItemReader
import MiddlewareStack.Source.Scan

/-!
# The grammar of source text

`innerWithin` ties the knot between the readers of types, patterns, expressions, statements and
items. From one of them to the next there are at most four steps for every token, so that the number
of tokens bounds the depth.
-/

namespace MiddlewareStack.Source

open TokenReader

/-- The readers of what has at most `depth` levels of something else inside it. -/
def innerWithin (limit : Nat) : Nat → Inner
  | 0 => {
      limit
      type := fun _ => failure
      bound := failure
      pattern := failure
      operand := fun _ => failure
      bounded := failure
      statements := failure
      item := failure }
  | depth + 1 => {
      limit
      type := fun plus => later fun _ => typeShape (innerWithin limit depth) plus
      bound := later fun _ => boundShape (innerWithin limit depth) false true
      pattern := later fun _ => patternShape (innerWithin limit depth)
      operand := fun structures => later fun _ => operandShape (innerWithin limit depth) structures
      bounded := later fun _ => boundedShape (innerWithin limit depth)
      statements := later fun _ => statementsShape (innerWithin limit depth)
      item := later fun _ =>
        Copier.tokens (discard (itemWithin (innerWithin limit depth) (depth + 1))) }

/-- The readers of what is inside some tokens. -/
def innerOf (tokens : List Token) : Inner :=
  let limit := 4 * Token.countAll tokens + 4
  innerWithin limit limit

/-- The type that some tokens are. -/
def TypeExpr.ofTokens? (tokens : List Token) : Option TypeExpr :=
  readAll ((innerOf tokens).type true) tokens

/-- The path that some tokens are. -/
def PathExpr.ofTokens? (tokens : List Token) : Option PathExpr :=
  readAll (path (innerOf tokens) false) tokens

/-- The signature that some tokens are. -/
def Signature.ofTokens? (tokens : List Token) : Option Signature :=
  readAll (signature (innerOf tokens)) tokens

/-- The items that some tokens are, behind attributes of the whole. -/
def itemsOf? (tokens : List Token) : Option (List Item) :=
  let inner := innerOf tokens
  let item : TokenReader Item :=
    return (← (itemWithin inner (Token.countAll tokens + 1)).result).1
  readAll (do let _ ← innerAttributes inner; toEnd item) tokens

/-- The text without its first line if that names an interpreter. What starts an attribute does
not. -/
def dropInterpreter (text : List Char) : List Char :=
  match text with
  | '#' :: '!' :: rest =>
    if startsAttribute (rest.length + 1) rest then text else text.dropWhile (· != '\n')
  | text => text
where
  /-- Whether a bracket comes next, after blanks and plain comments. -/
  startsAttribute : Nat → List Char → Bool
    | 0, _ => false
    | bound + 1, text =>
      match text with
      | [] => false
      | c :: rest =>
        if Text.isBlank c then startsAttribute bound rest
        else
          match comment? (c :: rest) with
          | some (.plain, rest) => startsAttribute bound rest
          | _ => c == '['

/-- The items of a source text. -/
def parse? (text : String) : Option (List Item) :=
  (scan? (dropInterpreter (dropOrderMark text.toList))).bind itemsOf?

end MiddlewareStack.Source
