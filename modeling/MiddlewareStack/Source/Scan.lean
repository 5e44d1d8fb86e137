import MiddlewareStack.Source.Literal
import MiddlewareStack.Source.Token
import MiddlewareStack.Text.Blank
import MiddlewareStack.Text.Escape

/-!
# Tokens of a text

Blanks and comments separate tokens and vanish. A doc comment stands for a `doc` attribute with its
text. Delimiters have to match.
-/

namespace MiddlewareStack.Source

/-- What one step of reading finds: some tokens, or a delimiter. -/
inductive Lexeme where
  | tokens (tokens : List Token)
  | opening (delimiter : Delimiter)
  | closing (delimiter : Delimiter)

/-- The text of a line and what follows it. -/
def splitLine : List Char → List Char × List Char
  | [] => ([], [])
  | c :: rest =>
    if c == '\n' then ([], c :: rest)
    else if c == '\r' && rest.head? == some '\n' then ([], rest)
    else
      let (line, rest) := splitLine rest
      (c :: line, rest)

/-- The text of a block comment up to its end, and what follows it. `depth` comments are open around
the one that is read. -/
def splitBlock (depth : Nat) : List Char → Option (List Char × List Char)
  | '/' :: '*' :: rest =>
    (splitBlock (depth + 1) rest).map fun (text, rest) => ('/' :: '*' :: text, rest)
  | '*' :: '/' :: rest =>
    match depth with
    | 0 => some ([], rest)
    | depth + 1 => (splitBlock depth rest).map fun (text, rest) => ('*' :: '/' :: text, rest)
  | c :: rest => (splitBlock depth rest).map fun (text, rest) => (c :: text, rest)
  | [] => none

inductive Comment where
  | plain
  /-- Describes what follows, or what it stands in. -/
  | doc (inner : Bool) (text : List Char)

/-- The comment at the front of a text, and the rest. Slashes and stars that go on after the mark of
a doc comment make it a plain one. -/
def comment? : List Char → Option (Comment × List Char)
  | '/' :: '/' :: rest =>
    match rest with
    | '/' :: '/' :: _ => some (.plain, (splitLine rest).2)
    | '/' :: rest => some (.doc false (splitLine rest).1, (splitLine rest).2)
    | '!' :: rest => some (.doc true (splitLine rest).1, (splitLine rest).2)
    | rest => some (.plain, (splitLine rest).2)
  | '/' :: '*' :: rest =>
    match rest with
    | '*' :: '/' :: rest => some (.plain, rest)
    | '*' :: '*' :: _ => (splitBlock 0 rest).map fun (_, rest) => (.plain, rest)
    | '*' :: rest => (splitBlock 0 rest).map fun (text, rest) => (.doc false text, rest)
    | '!' :: rest => (splitBlock 0 rest).map fun (text, rest) => (.doc true text, rest)
    | rest => (splitBlock 0 rest).map fun (_, rest) => (.plain, rest)
  | _ => none

/-- Carriage returns belong to line ends. -/
def carriagesEndLines : List Char → Bool
  | [] => true
  | c :: rest => (c != '\r' || rest.head? == some '\n') && carriagesEndLines rest

/-- The attribute that a doc comment stands for. -/
def docAttribute (inner : Bool) (text : List Char) : List Token :=
  let mark : List Token :=
    if inner then [.punct '#' false, .punct '!' false] else [.punct '#' false]
  mark ++
    [.group .bracket [.ident "doc", .punct '=' false, .literal (Text.literalOf text)]]

/-- The texts at which no name starts, because a literal would. -/
def literalStarts : List (List Char) :=
  ["r\"", "r#\"", "r##", "b\"", "b'", "br\"", "br#", "c\"", "cr\"", "cr#"].map String.toList

/-- The names that have no raw form. -/
def neverRaw : List String :=
  ["_", "super", "self", "Self", "crate"]

def plainName? : List Char → Option (String × List Char)
  | [] => none
  | c :: rest =>
    if isNameStart c then
      some (String.ofList (c :: rest.takeWhile isNameContinue), rest.dropWhile isNameContinue)
    else none

/-- A name, which keeps the mark of a raw one. -/
def name? : List Char → Option (String × List Char)
  | 'r' :: '#' :: rest =>
    match plainName? rest with
    | some (name, rest) => if name ∈ neverRaw then none else some ("r#" ++ name, rest)
    | none => none
  | cs => plainName? cs

def isPunctuation (c : Char) : Bool :=
  c ∈ "~!@#$%^&*-=+|;:,<.>/?'".toList

/-- Whether a text starts with a punctuation character. The slash of a comment is none. -/
def startsPunctuation : List Char → Bool
  | '/' :: '/' :: _ => false
  | '/' :: '*' :: _ => false
  | c :: _ => isPunctuation c
  | [] => false

/-- The quote of a lifetime, which a name has to follow. -/
def quote? (rest : List Char) : Option Token :=
  match name? rest with
  | none => none
  | some (_, after) =>
    match after with
    | '\'' :: _ => none
    | '#' :: _ => if "r#".toList.isPrefixOf rest then some (.punct '\'' true) else none
    | _ => some (.punct '\'' true)

def punctuation? : List Char → Option (Token × List Char)
  | [] => none
  | c :: rest =>
    if !startsPunctuation (c :: rest) then none
    else if c == '\'' then (quote? rest).map fun token => (token, rest)
    else some (.punct c (startsPunctuation rest), rest)

/-- A single token that is no group. -/
def leaf? (cs : List Char) : Option (Token × List Char) :=
  match literalEnd? cs with
  | some rest => some (.literal (String.ofList (cs.take (cs.length - rest.length))), rest)
  | none =>
    match punctuation? cs with
    | some found => some found
    | none =>
      if literalStarts.any fun start => start.isPrefixOf cs then none
      else (name? cs).map fun (name, rest) => (.ident name, rest)

/-- The next lexeme of a text that starts neither with a blank nor with a plain comment. -/
def lexeme? (cs : List Char) : Option (Lexeme × List Char) :=
  match comment? cs with
  | some (.doc inner text, rest) =>
    if carriagesEndLines text then some (.tokens (docAttribute inner text), rest) else none
  | _ =>
    match cs with
    | [] => none
    | c :: rest =>
      match Delimiter.ofOpening? c, Delimiter.ofClosing? c with
      | some d, _ =>
        if errorMark.isPrefixOf cs then (leaf? cs).map fun (token, rest) => (.tokens [token], rest)
        else some (.opening d, rest)
      | _, some d => some (.closing d, rest)
      | _, _ => (leaf? cs).map fun (token, rest) => (.tokens [token], rest)

/-- Groups that are open, innermost first, each with what stands before it, latest first. -/
abbrev OpenGroups := List (Delimiter × List Token)

/-- The tokens of a text, with `read` as what was read of the innermost open group, latest first.
Every step takes at least one of the characters, of which there are at most `bound`. -/
def scanFrom : Nat → OpenGroups → List Token → List Char → Option (List Token)
  | 0, _, _, _ => none
  | _ + 1, groups, read, [] => if groups.isEmpty then some read.reverse else none
  | bound + 1, groups, read, c :: rest =>
    if Text.isBlank c then scanFrom bound groups read rest
    else
      match comment? (c :: rest) with
      | some (.plain, rest) => scanFrom bound groups read rest
      | _ =>
        match lexeme? (c :: rest) with
        | none => none
        | some (.tokens tokens, rest) => scanFrom bound groups (tokens.reverse ++ read) rest
        | some (.opening d, rest) => scanFrom bound ((d, read) :: groups) [] rest
        | some (.closing d, rest) =>
          match groups with
          | [] => none
          | (opened, before) :: groups =>
            if opened = d then scanFrom bound groups (.group d read.reverse :: before) rest
            else none

/-- The text without a byte order mark at its front. -/
def dropOrderMark : List Char → List Char
  | '\ufeff' :: rest => rest
  | cs => cs

/-- The tokens of a text. -/
def scan? (text : List Char) : Option (List Token) :=
  let text := dropOrderMark text
  scanFrom (text.length + 1) [] [] text

end MiddlewareStack.Source
