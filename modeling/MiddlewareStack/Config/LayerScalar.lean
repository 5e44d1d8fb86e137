import MiddlewareStack.Config.LayerString

/-!
# Values without quotes

No field of a configuration is a number, a date or a truth value, but an array may have such values
behind its last field. They are told from what is no value at all, and not read any further: a
number may be of any size, a date has to be one of the calendar.
-/

namespace MiddlewareStack.LayerText

/-! ## Numbers -/

/-- Digits, with single underscores between some of them. -/
def isGrouped (isDigit : Char → Bool) : List Char → Bool
  | [] => false
  | [c] => isDigit c
  | c :: '_' :: rest => isDigit c && isGrouped isDigit rest
  | c :: rest => isDigit c && isGrouped isDigit rest

def unsigned : List Char → List Char
  | '+' :: rest | '-' :: rest => rest
  | text => text

/-- Digits in base ten, without a zero in front of others. -/
def isDecimal (text : List Char) : Bool :=
  isGrouped Char.isDigit text && (text.length == 1 || text.head? != some '0')

/-- Only a number in base ten may have a sign. -/
def isInteger : List Char → Bool
  | '0' :: 'x' :: digits => isGrouped (fun c => (Text.hexValue? c).isSome) digits
  | '0' :: 'o' :: digits => isGrouped (fun c => '0' ≤ c && c ≤ '7') digits
  | '0' :: 'b' :: digits => isGrouped (fun c => c == '0' || c == '1') digits
  | text => isDecimal (unsigned text)

def isExponent : List Char → Bool
  | e :: rest => (e == 'e' || e == 'E') && isGrouped Char.isDigit (unsigned rest)
  | [] => false

/-- A decimal with a fraction, an exponent or both, or a word for infinity or for no number. -/
def isFloat (text : List Char) : Bool :=
  let isPart (c : Char) := c.isDigit || c == '_'
  let text := unsigned text
  text == ['i', 'n', 'f'] || text == ['n', 'a', 'n'] ||
    isDecimal (text.takeWhile isPart) &&
      match text.dropWhile isPart with
      | '.' :: rest =>
        let exponent := rest.dropWhile isPart
        isGrouped Char.isDigit (rest.takeWhile isPart) && (exponent.isEmpty || isExponent exponent)
      | exponent => isExponent exponent

/-! ## Dates and times -/

/-- A number of `count` digits from `least` to `most`. -/
def number (count least most : Nat) : CharReader Nat := do
  let text ← get
  let digits := text.take count
  let value := digits.foldl (fun value c => value * 10 + (c.toNat - '0'.toNat)) 0
  if digits.length < count || !digits.all Char.isDigit || value < least || most < value then failure
  set (text.drop count)
  return value

def isLeapYear (year : Nat) : Bool :=
  year % 4 == 0 && (year % 100 != 0 || year % 400 == 0)

def daysIn (year month : Nat) : Nat :=
  if month = 2 then if isLeapYear year then 29 else 28
  else if month ∈ [4, 6, 9, 11] then 30
  else 31

def date : CharReader Unit := do
  let year ← number 4 0 9999
  char '-'
  let month ← number 2 1 12
  char '-'
  let _ ← number 2 1 (daysIn year month)

def hourAndMinute : CharReader Unit := do
  let _ ← number 2 0 23
  char ':'
  let _ ← number 2 0 59

/-- A time of the day. A minute may end in a leap second. -/
def time : CharReader Unit := do
  hourAndMinute
  if ← skipChar ':' then
    let _ ← number 2 0 60
    if ← skipChar '.' then
      let text ← get
      if (text.takeWhile Char.isDigit).isEmpty then failure
      set (text.dropWhile Char.isDigit)

/-- How a time differs from universal time, if that is said. -/
def offset : CharReader Unit := do
  match ← get with
  | 'Z' :: rest | 'z' :: rest => set rest
  | '+' :: rest | '-' :: rest =>
    set rest
    hourAndMinute
  | _ => pure ()

/-- A date that may have a time, which alone may have an offset. -/
def dateAndTime : CharReader Unit := do
  date
  match ← get with
  | c :: rest =>
    if c == 'T' || c == 't' || c == ' ' then
      set rest
      time
      offset
  | [] => pure ()

def isMoment (text : List Char) : Bool :=
  match (dateAndTime <|> time).run text with
  | some ((), rest) => rest.isEmpty
  | none => false

/-! ## Values -/

def isPlain (c : Char) : Bool :=
  c.isAlphanum || c == '_' || c == '+' || c == '-' || c == '.' || c == ':'

/-- The text of a value without quotes. The time of a date may stand behind a blank. -/
def plainText : CharReader (List Char) := do
  let text ← get
  let first := text.takeWhile isPlain
  let rest := text.dropWhile isPlain
  let second := (rest.drop 1).takeWhile isPlain
  if rest.head? == some ' ' && !second.isEmpty then
    set ((rest.drop 1).dropWhile isPlain)
    return first ++ ' ' :: second
  set rest
  return first

/-- A value that holds no others: its text if it is a string. -/
def scalar : CharReader (Option String) := do
  match (← get).head? with
  | some '"' | some '\'' => return some (← anyString)
  | _ =>
    let text ← plainText
    if text == "true".toList || text == "false".toList || isInteger text || isFloat text ||
      isMoment text then return none
    failure

end MiddlewareStack.LayerText
