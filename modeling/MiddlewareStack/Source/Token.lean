/-!
# Tokens of source text

Source text is a list of tokens, and what stands between two matching delimiters is one token.
Written out again, tokens are one blank apart, except that a joint punctuation character is followed
by the next token at once. A lifetime is a joint quote and a name.
-/

namespace MiddlewareStack.Source

inductive Delimiter where
  | parenthesis
  | bracket
  | brace
  deriving DecidableEq, Repr, Inhabited

inductive Token where
  | ident (name : String)
  /-- A joint character and the next one belong to one operator. -/
  | punct (char : Char) (joint : Bool)
  /-- A literal as written. -/
  | literal (text : String)
  | group (delimiter : Delimiter) (content : List Token)
  deriving Repr, Inhabited

namespace Delimiter

def opening : Delimiter → Char
  | .parenthesis => '('
  | .bracket => '['
  | .brace => '{'

def closing : Delimiter → Char
  | .parenthesis => ')'
  | .bracket => ']'
  | .brace => '}'

def ofOpening? : Char → Option Delimiter
  | '(' => some .parenthesis
  | '[' => some .bracket
  | '{' => some .brace
  | _ => none

def ofClosing? : Char → Option Delimiter
  | ')' => some .parenthesis
  | ']' => some .bracket
  | '}' => some .brace
  | _ => none

/-- The text of a group. Braces keep a blank on the inside. -/
def surround (d : Delimiter) (content : List Char) : List Char :=
  match d with
  | .brace =>
    if content.isEmpty then ['{', ' ', '}'] else '{' :: ' ' :: content ++ [' ', '}']
  | d => d.opening :: content ++ [d.closing]

end Delimiter

namespace Token

def isJoint : Token → Bool
  | .punct _ joint => joint
  | _ => false

/-- Whether a token is some punctuation character. -/
def isPunct (char : Char) : Token → Bool
  | .punct c _ => c == char
  | _ => false

mutual

/-- The number of tokens, those inside groups included. -/
def count : Token → Nat
  | .group _ content => countAll content + 1
  | _ => 1

def countAll : List Token → Nat
  | [] => 0
  | first :: rest => count first + countAll rest

end

mutual

def chars : Token → List Char
  | .ident name => name.toList
  | .punct c _ => [c]
  | .literal text => text.toList
  | .group d content => d.surround (charsOf content)

/-- The text of a list of tokens. -/
def charsOf : List Token → List Char
  | [] => []
  | first :: rest =>
    if rest.isEmpty || first.isJoint then chars first ++ charsOf rest
    else chars first ++ ' ' :: charsOf rest

end

/-- An operator, whose characters stand together. -/
def operatorOf : List Char → List Token
  | [] => []
  | [last] => [.punct last false]
  | first :: rest => .punct first true :: operatorOf rest

def operator (text : String) : List Token :=
  operatorOf text.toList

def lifetime (name : String) : List Token :=
  [.punct '\'' true, .ident name]

end Token

end MiddlewareStack.Source
