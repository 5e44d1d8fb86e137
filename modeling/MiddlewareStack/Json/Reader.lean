import MiddlewareStack.Json
import MiddlewareStack.Text.Hex

/-!
# Reading JSON

The whole text has to be one value. A part of it that has the form of a value but cannot be read
does not spoil the others, which matters where such a part is passed over.
-/

namespace MiddlewareStack.Json

/-- What a reader takes from the front of a text, and the rest. -/
abbrev Reader (α : Type) := List Char → Option (α × List Char)

/-- The number of containers that may be open around a value that can be read. -/
def maxDepth : Nat := 127

def isSpace (c : Char) : Bool :=
  c == ' ' || c == '\t' || c == '\n' || c == '\r'

def skipSpaces (cs : List Char) : List Char :=
  cs.dropWhile isSpace

/-- Where a string reader stands between two characters. -/
inductive StringState where
  | plain
  | escaped
  /-- After `remaining` fewer than four digits of a code unit. -/
  | unit (remaining value : Nat)

def simpleEscape? : Char → Option Char
  | '"' => some '"'
  | '\\' => some '\\'
  | '/' => some '/'
  | 'b' => some '\x08'
  | 'f' => some '\x0c'
  | 'n' => some '\n'
  | 'r' => some '\r'
  | 't' => some '\t'
  | _ => none

/-- What was read of a string, latest first, and the first half of a pair whose second half has to
follow. -/
structure StringPart where
  high : Option Nat := none
  read : List Char := []

namespace StringPart

/-- Add a character that is no half of a pair. -/
def push (part : StringPart) (c : Char) : Option StringPart :=
  if part.high.isSome then none else some { part with read := c :: part.read }

/-- Add a code unit: a character, or half of a pair. -/
def pushUnit (part : StringPart) (unit : Nat) : Option StringPart :=
  match part.high with
  | some first =>
    if 0xDC00 ≤ unit ∧ unit ≤ 0xDFFF then
      let c := Char.ofNat (0x10000 + (first - 0xD800) * 0x400 + (unit - 0xDC00))
      some { read := c :: part.read }
    else none
  | none =>
    if 0xD800 ≤ unit ∧ unit ≤ 0xDBFF then some { part with high := some unit }
    else if 0xDC00 ≤ unit ∧ unit ≤ 0xDFFF then none
    else part.push (Char.ofNat unit)

/-- The string, none if its last character is half of a pair. -/
def text? (part : StringPart) : Option String :=
  if part.high.isSome then none else some (String.ofList part.read.reverse)

end StringPart

/-- The string after an opening quote, none if a half of a pair stands alone in it. -/
def readStringFrom (state : StringState) (part : Option StringPart) : Reader (Option String)
  | [] => none
  | c :: rest =>
    match state with
    | .plain =>
      if c == '\\' then readStringFrom .escaped part rest
      else if c == '"' then some (part.bind StringPart.text?, rest)
      else if c.toNat < 0x20 then none
      else readStringFrom .plain (part.bind fun part => part.push c) rest
    | .escaped =>
      if c == 'u' then readStringFrom (.unit 3 0) part rest
      else
        match simpleEscape? c with
        | some e => readStringFrom .plain (part.bind fun part => part.push e) rest
        | none => none
    | .unit remaining value =>
      match Text.hexValue? c with
      | none => none
      | some digit =>
        let value := value * 16 + digit
        match remaining with
        | more + 1 => readStringFrom (.unit more value) part rest
        | 0 => readStringFrom .plain (part.bind fun part => part.pushUnit value) rest

def readString : Reader (Option String)
  | '"' :: rest => readStringFrom .plain (some {}) rest
  | _ => none

def digitsValue (digits : List Char) : Nat :=
  digits.foldl (fun n d => n * 10 + (d.toNat - '0'.toNat)) 0

/-- The fraction of a number, if there is one. -/
def readFraction : Reader (List Char)
  | '.' :: rest =>
    let digits := rest.takeWhile Char.isDigit
    if digits.isEmpty then none else some ('.' :: digits, rest.dropWhile Char.isDigit)
  | cs => some ([], cs)

/-- The exponent of a number, if there is one. -/
def readExponent : Reader (List Char)
  | c :: rest =>
    if c == 'e' || c == 'E' then
      let (sign, rest) :=
        match rest with
        | '+' :: rest => (['+'], rest)
        | '-' :: rest => (['-'], rest)
        | rest => ([], rest)
      let digits := rest.takeWhile Char.isDigit
      if digits.isEmpty then none else some (c :: sign ++ digits, rest.dropWhile Char.isDigit)
    else some ([], c :: rest)
  | [] => some ([], [])

/-- A number without its sign as a significand and a power of ten. -/
structure Magnitude where
  significand : Nat
  exponent : Int

namespace Magnitude

def maxSignificand : Nat := 0xFFFFFFFFFFFFFFFF

/-- Put digits behind a significand as long as it does not grow too large, and count them. -/
def extend (significand : Nat) : List Char → Nat × Nat
  | [] => (significand, 0)
  | d :: rest =>
    let longer := significand * 10 + (d.toNat - '0'.toNat)
    if longer > maxSignificand then (significand, 0)
    else
      let (significand, count) := extend longer rest
      (significand, count + 1)

/-- Digits that are too many only shift the others before the point, and do not count behind it. -/
def ofDigits (whole fraction : List Char) (exponent : Int) : Magnitude :=
  let (significand, taken) := extend 0 whole
  let skipped := whole.length - taken
  let (significand, decimals) := extend significand fraction
  { significand, exponent := exponent + skipped - decimals }

/-- The largest power of ten that is no infinity. -/
def maxExponent : Int := 308

def isTooLarge (m : Magnitude) : Bool :=
  m.significand ≠ 0 &&
    (decide (m.exponent > maxExponent) ||
      (decide (0 ≤ m.exponent) &&
        (m.significand.toFloat * Float.ofScientific 1 false m.exponent.toNat).isInf))

end Magnitude

/-- The value of the text of an exponent. -/
def exponentValue : List Char → Int
  | _ :: '-' :: digits => -(digitsValue digits : Int)
  | _ :: '+' :: digits => digitsValue digits
  | _ :: digits => digitsValue digits
  | [] => 0

def readNumber : Reader Json := fun cs => do
  let (negative, cs) :=
    match cs with
    | '-' :: rest => (true, rest)
    | cs => (false, cs)
  let digits := cs.takeWhile Char.isDigit
  if digits.isEmpty || (digits.head? == some '0' && digits.length > 1) then none
  let (fraction, rest) ← readFraction (cs.dropWhile Char.isDigit)
  let (exponent, rest) ← readExponent rest
  let sign := if negative then ['-'] else []
  let magnitude := digitsValue digits
  if (Magnitude.ofDigits digits (fraction.drop 1) (exponentValue exponent)).isTooLarge then
    return (.unreadable, rest)
  if fraction.isEmpty && exponent.isEmpty && !(negative && magnitude == 0) then
    return (.integer (if negative then -(magnitude : Int) else magnitude), rest)
  return (.decimal (String.ofList (sign ++ digits ++ fraction ++ exponent)), rest)

/-- The items of an array after one of them, at most `count`. -/
def readItems (item : Reader Json) : Nat → Reader (List Json)
  | 0, _ => none
  | count + 1, cs => do
    let (first, rest) ← item cs
    match skipSpaces rest with
    | ',' :: rest =>
      let (others, rest) ← readItems item count rest
      return (first :: others, rest)
    | ']' :: rest => return ([first], rest)
    | _ => none

/-- The fields of an object, at most `count`. -/
def readFields (item : Reader Json) : Nat → Reader (List (Option String × Json))
  | 0, _ => none
  | count + 1, cs => do
    let (name, rest) ← readString (skipSpaces cs)
    match skipSpaces rest with
    | ':' :: rest =>
      let (value, rest) ← item rest
      match skipSpaces rest with
      | ',' :: rest =>
        let (others, rest) ← readFields item count rest
        return ((name, value) :: others, rest)
      | '}' :: rest => return ([(name, value)], rest)
      | _ => none
    | _ => none

/-- An object, in which every field needs a name. -/
def ofFields (fields : List (Option String × Json)) : Json :=
  match fields.mapM fun (name, value) => name.map fun name => (name, value) with
  | some fields => .object fields
  | none => .unreadable

/-- A container inside `depth` others. -/
def nested (depth : Nat) (container : Json) : Json :=
  if depth < maxDepth then container else .unreadable

/-- A value inside `depth` containers. Every container takes at least one of the characters, of
which there are at most `bound`. -/
def readValue : Nat → Nat → Reader Json
  | bound, depth, cs =>
    match skipSpaces cs with
    | 'n' :: 'u' :: 'l' :: 'l' :: rest => some (.null, rest)
    | 't' :: 'r' :: 'u' :: 'e' :: rest => some (.bool true, rest)
    | 'f' :: 'a' :: 'l' :: 's' :: 'e' :: rest => some (.bool false, rest)
    | '"' :: rest =>
      (readStringFrom .plain (some {}) rest).map fun (text, rest) =>
        ((text.map Json.string).getD .unreadable, rest)
    | '[' :: rest =>
      match bound with
      | 0 => none
      | bound + 1 =>
        match skipSpaces rest with
        | ']' :: rest => some (nested depth (.array []), rest)
        | rest =>
          (readItems (readValue bound (depth + 1)) rest.length rest).map fun (items, rest) =>
            (nested depth (.array items), rest)
    | '{' :: rest =>
      match bound with
      | 0 => none
      | bound + 1 =>
        match skipSpaces rest with
        | '}' :: rest => some (nested depth (.object []), rest)
        | rest =>
          (readFields (readValue bound (depth + 1)) rest.length rest).map fun (fields, rest) =>
            (nested depth (ofFields fields), rest)
    | rest => readNumber rest

def parse? (text : String) : Option Json :=
  let text := text.toList
  match readValue text.length 0 text with
  | some (value, rest) => if (skipSpaces rest).isEmpty then some value else none
  | none => none

end MiddlewareStack.Json
