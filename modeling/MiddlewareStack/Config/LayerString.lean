import MiddlewareStack.Text.Hex

/-!
# Strings of configuration files

A string stands between double quotes, with escapes, or between single quotes, as it is. Between
three quotes it may have several lines.
-/

namespace MiddlewareStack.LayerText

/-- A reader of the front of a text. -/
abbrev CharReader (α : Type) := StateT (List Char) Option α

/-- Take a character if it is next, and say whether it was. -/
def skipChar (c : Char) : CharReader Bool := do
  match ← get with
  | first :: rest =>
    if first = c then
      set rest
      return true
    return false
  | [] => return false

def char (c : Char) : CharReader Unit := do
  if ← skipChar c then pure () else failure

def isBlank (c : Char) : Bool :=
  c == ' ' || c == '\t'

/-- A character that may stand in a string or a comment as it is. -/
def isVisible (c : Char) : Bool :=
  c == '\t' || (decide (0x20 ≤ c.toNat) && c.toNat != 0x7F)

/-- The rest behind a line end. -/
def newline? : List Char → Option (List Char)
  | '\n' :: rest => some rest
  | '\r' :: '\n' :: rest => some rest
  | _ => none

/-- The character of a code point written with `count` digits. -/
def codePoint? (count : Nat) (text : List Char) : Option (Char × List Char) :=
  match (text.take count).mapM Text.hexValue? with
  | none => none
  | some digits =>
    let value := digits.foldl (fun value digit => value * 16 + digit) 0
    if digits.length = count && value.isValidChar then some (Char.ofNat value, text.drop count)
    else none

/-- What an escape stands for, its backslash already read. -/
def escape? : List Char → Option (Char × List Char)
  | 'b' :: rest => some ('\x08', rest)
  | 't' :: rest => some ('\t', rest)
  | 'n' :: rest => some ('\n', rest)
  | 'f' :: rest => some ('\x0c', rest)
  | 'r' :: rest => some ('\r', rest)
  | 'e' :: rest => some ('\x1b', rest)
  | '"' :: rest => some ('"', rest)
  | '\\' :: rest => some ('\\', rest)
  | 'x' :: rest => codePoint? 2 rest
  | 'u' :: rest => codePoint? 4 rest
  | 'U' :: rest => codePoint? 8 rest
  | _ => none

/-- The rest behind blanks and line ends. -/
def skipLineEnds : List Char → List Char
  | '\r' :: '\n' :: rest => skipLineEnds rest
  | c :: rest => if isBlank c || c == '\n' then skipLineEnds rest else c :: rest
  | [] => []

/-- The rest behind an escaped line end, with all blanks and line ends that follow it. -/
def continuation? (text : List Char) : Option (List Char) :=
  (newline? (text.dropWhile isBlank)).map skipLineEnds

/-- The quotes that belong to a string although three of them close it. -/
def extraQuotes (quote : Char) (text : List Char) : List Char :=
  (text.take 2).takeWhile (· == quote)

/-- The content of a string and the rest, its opening quotes already read. Every round takes at
least one of the characters, of which there are at most `bound`. -/
def stringRest? (quote : Char) (multiline : Bool) : Nat → List Char → Option (List Char × List Char)
  | 0, _ => none
  | _, [] => none
  | bound + 1, c :: rest =>
    let push (before : List Char) (rest : List Char) : Option (List Char × List Char) :=
      (stringRest? quote multiline bound rest).map fun (text, rest) => (before ++ text, rest)
    if c == quote then
      if !multiline then some ([], rest)
      else if rest.take 2 == [quote, quote] then
        let extra := extraQuotes quote (rest.drop 2)
        some (extra, (rest.drop 2).drop extra.length)
      else push [c] rest
    else if c == '\\' && quote == '"' then
      match escape? rest, continuation? rest with
      | some (e, rest), _ => push [e] rest
      | none, some rest => if multiline then push [] rest else none
      | none, none => none
    else if multiline && (newline? (c :: rest)).isSome then
      if c == '\r' then push ['\r', '\n'] (rest.drop 1) else push [c] rest
    else if isVisible c then push [c] rest
    else none

def string (quote : Char) (multiline : Bool) : CharReader String := fun text =>
  (stringRest? quote multiline (text.length + 1) text).map fun (content, rest) =>
    (String.ofList content, rest)

/-- A string with its quotes. A line end directly behind three of them does not count. -/
def anyString : CharReader String := do
  match ← get with
  | '"' :: '"' :: '"' :: rest =>
    set ((newline? rest).getD rest)
    string '"' true
  | '\'' :: '\'' :: '\'' :: rest =>
    set ((newline? rest).getD rest)
    string '\'' true
  | '"' :: rest =>
    set rest
    string '"' false
  | '\'' :: rest =>
    set rest
    string '\'' false
  | _ => failure

end MiddlewareStack.LayerText
