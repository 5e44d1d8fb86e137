import MiddlewareStack.Text.Printable

/-!
# Quoted text

Text between double quotes in which a quote, a backslash and every character that would not show are
escaped.
-/

namespace MiddlewareStack.Text

def hexText (n : Nat) : List Char :=
  Nat.toDigits 16 n

/-- A character inside double quotes. A single quote needs no escape there. -/
def escapeChar (c : Char) : List Char :=
  if c = '\x00' then ['\\', '0']
  else if c = '\t' then ['\\', 't']
  else if c = '\r' then ['\\', 'r']
  else if c = '\n' then ['\\', 'n']
  else if c = '"' then ['\\', '"']
  else if c = '\\' then ['\\', '\\']
  else if extendsGrapheme c || !isPrintable c then
    ['\\', 'u', '{'] ++ hexText c.toNat ++ ['}']
  else [c]

def escapeChars (cs : List Char) : List Char :=
  cs.flatMap escapeChar

def quoted (text : String) : String :=
  String.ofList ('"' :: escapeChars text.toList ++ ['"'])

/-- Escapes for a string literal, where a zero before an octal digit is written in full. -/
def escapeLiteral : List Char → List Char
  | [] => []
  | c :: rest =>
    if c = '\x00' && rest.head?.any (fun d => '0' ≤ d && d ≤ '7') then
      ['\\', 'x', '0', '0'] ++ escapeLiteral rest
    else escapeChar c ++ escapeLiteral rest

/-- The string literal that stands for a text. -/
def literalOf (text : List Char) : String :=
  String.ofList ('"' :: escapeLiteral text ++ ['"'])

end MiddlewareStack.Text
