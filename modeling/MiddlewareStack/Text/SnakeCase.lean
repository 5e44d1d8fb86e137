import MiddlewareStack.Text.Case

/-!
# Snake case

`ClientIdMiddleware` becomes `client_id_middleware` and `HTTPAuth` becomes `http_auth`: an
upper-case letter starts a word after a lower-case letter or a digit, and, after another upper-case
letter, when a lower-case letter follows.
-/

namespace MiddlewareStack.Text

/-- Whether an upper-case letter between `previous` and `next` starts a word. -/
def startsWord (previous next : Option Char) : Bool :=
  match previous with
  | none => false
  | some p =>
    if isLowercase p || p.isDigit then true
    else isUppercase p && next.any isLowercase

/-- `previous` is the letter before the rest, and `written` says whether the text so far ends with
an underscore. -/
def snakeFrom (previous : Option Char) (written : Bool) : List Char → List Char
  | [] => []
  | c :: rest =>
    if isUppercase c then
      let word := toLowercase c ++ snakeFrom (some c) false rest
      if startsWord previous rest.head? && !written then '_' :: word else word
    else c :: snakeFrom (some c) (c == '_') rest

def snakeChars (name : List Char) : List Char :=
  snakeFrom none false name

def snakeCase (name : String) : String :=
  String.ofList (snakeChars name.toList)

end MiddlewareStack.Text
