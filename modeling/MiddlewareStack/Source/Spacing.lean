import MiddlewareStack.Source.Token
import MiddlewareStack.Text.Letter
import MiddlewareStack.Text.Replace

/-!
# The spacing of written types and signatures

Tokens are shown the way a person would write them. The rules work on the text, one after another,
and so on the text of literals too.
-/

namespace MiddlewareStack.Source

/-- What is replaced by what, in this order. -/
def spacingRules : List (String × String) := [
  (" :: ", "::"), (":: ", "::"), ("& ", "&"), ("< ", "<"), (" <", "<"), (" >", ">"), (" ,", ","),
  (" : ", ": "), ("( ", "("), (" )", ")")]

def closeUp (text : List Char) : List Char :=
  spacingRules.foldl (fun text rule => Text.replaceAll rule.1.toList rule.2.toList text) text

/-- Whether a parenthesis belongs to what stands before it: a name, or a list of arguments, but not
the arrow of a return type. -/
def ownsParenthesis (beforeLast last : Option Char) : Bool :=
  last.any fun c =>
    Text.isAlphanumeric c || c == '_' || (c == '>' && beforeLast != some '-')

/-- Remove the blank before a parenthesis that belongs to what stands before it. The first two
arguments are the characters before the text. -/
def attachFrom (beforeLast last : Option Char) : List Char → List Char
  | [] => []
  | c :: rest =>
    if c == ' ' && rest.head? == some '(' && ownsParenthesis beforeLast last then
      attachFrom last (some c) rest
    else c :: attachFrom last (some c) rest

def attachParentheses (text : List Char) : List Char :=
  attachFrom none none text

/-- The text of tokens as a person would space it. -/
def written (tokens : List Token) : String :=
  String.ofList (attachParentheses (closeUp (Token.charsOf tokens)))

end MiddlewareStack.Source
