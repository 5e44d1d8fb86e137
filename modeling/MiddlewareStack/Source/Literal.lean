import MiddlewareStack.Text.Hex
import MiddlewareStack.Text.IdentifierChar

/-!
# Literals

Where a literal at the front of a text ends. There are strings, byte strings and C strings, each
also in a raw form between equally many hashes, characters and bytes, and numbers. A literal may end
with a suffix in the form of a name.
-/

namespace MiddlewareStack.Source

open Text (hexValue?)

/-- What may stand in a text literal. -/
structure TextKind where
  /-- Two hexadecimal digits may go up to 255, not only up to 127. -/
  wideHex : Bool
  /-- Code points may be written in braces. -/
  codePoints : Bool
  /-- The character zero may occur. -/
  zero : Bool
  /-- Characters beyond ASCII may occur. -/
  beyondAscii : Bool

namespace TextKind

def string : TextKind :=
  { wideHex := false, codePoints := true, zero := true, beyondAscii := true }

def bytes : TextKind :=
  { wideHex := true, codePoints := false, zero := true, beyondAscii := false }

def c : TextKind :=
  { wideHex := true, codePoints := true, zero := false, beyondAscii := true }

def allows (kind : TextKind) (c : Char) : Bool :=
  (kind.zero || c != '\x00') && (kind.beyondAscii || decide (c.toNat < 0x80))

end TextKind

/-- Where a reader of a text literal stands. -/
inductive TextState where
  | plain
  /-- Behind the closing quote. -/
  | closed
  /-- Behind a carriage return, which a line feed has to follow. -/
  | carriage
  | escaped
  | firstDigit
  | secondDigit (first : Char)
  | codePointStart
  | codePoint (digits value : Nat)
  /-- Behind an escaped line end, where blanks are passed over. -/
  | blanks
  | blankCarriage

namespace TextState

def afterPlain (kind : TextKind) (c : Char) : Option TextState :=
  if c == '"' then some .closed
  else if c == '\r' then some .carriage
  else if c == '\\' then some .escaped
  else if kind.allows c then some .plain
  else none

def afterEscape (kind : TextKind) (c : Char) : Option TextState :=
  if c == 'x' then some .firstDigit
  else if c == 'n' || c == 'r' || c == 't' || c == '\\' || c == '\'' || c == '"' then some .plain
  else if c == '0' then (if kind.zero then some .plain else none)
  else if c == 'u' then (if kind.codePoints then some .codePointStart else none)
  else if c == '\n' then some .blanks
  else if c == '\r' then some .blankCarriage
  else none

def afterCodePointDigit (kind : TextKind) (digits value : Nat) (c : Char) : Option TextState :=
  if digits > 0 && c == '_' then some (.codePoint digits value)
  else if digits > 0 && c == '}' then
    if value.isValidChar && (kind.zero || value != 0) then some .plain else none
  else
    match hexValue? c with
    | some digit => if digits < 6 then some (.codePoint (digits + 1) (value * 16 + digit)) else none
    | none => none

/-- The state after one more character, none if it may not stand there. -/
def next (kind : TextKind) (c : Char) : TextState → Option TextState
  | .plain => afterPlain kind c
  | .closed => none
  | .carriage => if c == '\n' then some .plain else none
  | .escaped => afterEscape kind c
  | .firstDigit =>
    if (hexValue? c).any fun value => kind.wideHex || decide (value < 8) then some (.secondDigit c)
    else none
  | .secondDigit first =>
    if (hexValue? c).isSome && (kind.zero || first != '0' || c != '0') then some .plain else none
  | .codePointStart => if c == '{' then some (.codePoint 0 0) else none
  | .codePoint digits value => afterCodePointDigit kind digits value c
  | .blanks =>
    if c == ' ' || c == '\t' || c == '\n' then some .blanks
    else if c == '\r' then some .blankCarriage
    else afterPlain kind c
  | .blankCarriage => if c == '\n' then some .blanks else none

end TextState

def isNameStart (c : Char) : Bool :=
  Text.isIdentifierStart c

def isNameContinue (c : Char) : Bool :=
  Text.isIdentifierContinue c

/-- The rest behind a name, if there is one. -/
def dropName : List Char → List Char
  | [] => []
  | c :: rest => if isNameStart c then rest.dropWhile isNameContinue else c :: rest

/-- The rest behind a quoted text, its opening quote already read. -/
def quotedEnd? (kind : TextKind) (state : TextState) : List Char → Option (List Char)
  | [] => none
  | c :: rest =>
    match state.next kind c with
    | none => none
    | some .closed => some rest
    | some state => quotedEnd? kind state rest

/-- The rest behind an escape. -/
def escapeEnd? (kind : TextKind) (state : TextState) : List Char → Option (List Char)
  | [] => none
  | c :: rest =>
    match state.next kind c with
    | none => none
    | some .blanks => none
    | some .blankCarriage => none
    | some .plain => some rest
    | some state => escapeEnd? kind state rest

/-- The rest behind one character and a closing quote. -/
def characterEnd? (kind : TextKind) (cs : List Char) : Option (List Char) :=
  let rest :=
    match cs with
    | '\\' :: rest => escapeEnd? kind .escaped rest
    | c :: rest => if kind.allows c then some rest else none
    | [] => none
  match rest with
  | some ('\'' :: rest) => some rest
  | _ => none

/-- The rest behind a raw text that a quote and `hashes` hashes close. -/
def rawEnd? (kind : TextKind) (hashes : Nat) : List Char → Option (List Char)
  | [] => none
  | c :: rest =>
    if c == '"' && rest.take hashes == List.replicate hashes '#' then some (rest.drop hashes)
    else if c == '\r' then (if rest.head? == some '\n' then rawEnd? kind hashes rest else none)
    else if kind.allows c then rawEnd? kind hashes rest
    else none

/-- The rest behind a raw text with its hashes, of which there are at most 255. -/
def rawTextEnd? (kind : TextKind) (cs : List Char) : Option (List Char) :=
  let hashes := (cs.takeWhile (· == '#')).length
  match cs.dropWhile (· == '#') with
  | '"' :: rest => if hashes ≤ 255 then rawEnd? kind hashes rest else none
  | _ => none

def isDigitOrUnderscore (c : Char) : Bool :=
  c.isDigit || c == '_'

/-- The rest behind an exponent. Where it has no digits, the number ends at `before`. -/
def exponentEnd? (before : Option (List Char)) (signed valued : Bool) :
    List Char → Option (List Char)
  | [] => if valued then some [] else before
  | c :: rest =>
    if c.isDigit then exponentEnd? before signed true rest
    else if c == '_' then exponentEnd? before signed valued rest
    else if (c == '+' || c == '-') && !valued then
      if signed then before else exponentEnd? before true valued rest
    else if valued then some (c :: rest)
    else before

def isExponentMark (c : Char) : Bool :=
  c == 'e' || c == 'E'

/-- The rest behind the digits of a number with a fraction or an exponent. A dot before a name or
another dot is no fraction. -/
def decimalEnd? (cs : List Char) : Option (List Char) :=
  match cs.dropWhile isDigitOrUnderscore with
  | '.' :: rest =>
    if rest.head?.any (fun c => c == '.' || isNameStart c) then none
    else
      match rest.dropWhile isDigitOrUnderscore with
      | [] => some []
      | c :: rest =>
        if isExponentMark c then exponentEnd? (some (c :: rest)) false false rest
        else some (c :: rest)
  | c :: rest => if isExponentMark c then exponentEnd? none false false rest else none
  | [] => none

/-- The rest behind the digits of a base. -/
def digitsEnd? (base : Nat) (empty : Bool) : List Char → Option (List Char)
  | [] => if empty then none else some []
  | c :: rest =>
    if c == '_' then (if empty && base == 10 then none else digitsEnd? base empty rest)
    else
      match hexValue? c with
      | some value =>
        if value < base then digitsEnd? base false rest
        else if c.isDigit || empty then none
        else some (c :: rest)
      | none => if empty then none else some (c :: rest)

def integerEnd? : List Char → Option (List Char)
  | '0' :: 'x' :: rest => digitsEnd? 16 true rest
  | '0' :: 'o' :: rest => digitsEnd? 8 true rest
  | '0' :: 'b' :: rest => digitsEnd? 2 true rest
  | cs => digitsEnd? 10 true cs

/-- A number ends behind its suffix, where no name may go on. -/
def numberEnd (digits : Option (List Char)) : Option (List Char) :=
  match digits.map dropName with
  | some rest => if rest.head?.any isNameContinue then none else some rest
  | none => none

/-- The rest behind a number. -/
def numberEnd? (cs : List Char) : Option (List Char) :=
  if cs.head?.any Char.isDigit then
    (numberEnd (decimalEnd? cs)).or (numberEnd (integerEnd? cs))
  else none

/-- The rest behind a text or a character, with its suffix. -/
def textEnd? (cs : List Char) : Option (List Char) :=
  let rest :=
    match cs with
    | '"' :: rest => quotedEnd? .string .plain rest
    | 'r' :: rest => rawTextEnd? .string rest
    | 'b' :: '"' :: rest => quotedEnd? .bytes .plain rest
    | 'b' :: 'r' :: rest => rawTextEnd? .bytes rest
    | 'b' :: '\'' :: rest => characterEnd? .bytes rest
    | 'c' :: '"' :: rest => quotedEnd? .c .plain rest
    | 'c' :: 'r' :: rest => rawTextEnd? .c rest
    | '\'' :: rest => characterEnd? .string rest
    | _ => none
  rest.map dropName

/-- The mark of an expression that could not be shown, which is read as a literal. -/
def errorMark : List Char :=
  "(/*ERROR*/)".toList

/-- The rest behind a literal. -/
def literalEnd? (cs : List Char) : Option (List Char) :=
  if errorMark.isPrefixOf cs then some (cs.drop errorMark.length)
  else (textEnd? cs).or (numberEnd? cs)

end MiddlewareStack.Source
