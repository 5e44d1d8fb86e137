import MiddlewareStack.Config
import MiddlewareStack.Config.LayerScalar

/-!
# Configuration files

A file has two sections, `conventions` and `output`, each with fields that are strings. A section is
given once: under a header, as a table or an array on one line, or by keys of two parts.
-/

namespace MiddlewareStack

namespace ConfigLayer

/-- Give a field of a section a value. Each field can be given once. -/
def set? (layer : ConfigLayer) (name field value : String) : Option ConfigLayer :=
  match name, field with
  | "conventions", "implementation_suffix" =>
    if layer.implementationSuffix.isSome then none
    else some { layer with implementationSuffix := value }
  | "conventions", "invocation_method" =>
    if layer.invocationMethod.isSome then none else some { layer with invocationMethod := value }
  | "conventions", "request_type" =>
    if layer.requestType.isSome then none else some { layer with requestType := value }
  | "output", "suffix" =>
    if layer.suffix.isSome then none else some { layer with suffix := value }
  | "output", "runtime_crate" =>
    if layer.runtimeCrate.isSome then none else some { layer with runtimeCrate := value }
  | _, _ => none

/-- The fields of a section, in the order in which an array gives them. -/
def fieldsOf? : String → Option (List String)
  | "conventions" => some ["implementation_suffix", "invocation_method", "request_type"]
  | "output" => some ["suffix", "runtime_crate"]
  | _ => none

end ConfigLayer

namespace LayerText

/-- What was read so far. -/
structure Draft where
  layer : ConfigLayer := {}
  /-- The section under whose header the reader is. -/
  current : Option String := none
  /-- The sections given so far, with whether keys of two parts may add to them. -/
  given : List (String × Bool) := []

namespace Draft

/-- Begin a section that was not given yet. -/
def open? (d : Draft) (name : String) (extensible : Bool) : Option Draft :=
  if (ConfigLayer.fieldsOf? name).isNone || (d.given.lookup name).isSome then none
  else some { d with given := (name, extensible) :: d.given }

/-- Open a section for a key of two parts, unless such a key opened it before. -/
def extend? (d : Draft) (name : String) : Option Draft :=
  match d.given.lookup name with
  | some true => some d
  | some false => none
  | none => d.open? name true

def set? (d : Draft) (name field value : String) : Option Draft :=
  (d.layer.set? name field value).map fun layer => { d with layer }

end Draft

def skipBlanks : CharReader Unit :=
  modify (List.dropWhile isBlank)

/-- The rest behind a comment, which goes up to the end of its line. -/
def commentEnd? : List Char → Option (List Char)
  | [] => some []
  | c :: rest =>
    if (newline? (c :: rest)).isSome then some (c :: rest)
    else if isVisible c then commentEnd? rest
    else none

def skipComment : CharReader Unit := do
  match ← get with
  | '#' :: rest =>
    match commentEnd? rest with
    | some rest => set rest
    | none => failure
  | _ => pure ()

/-- Blanks and a comment up to the end of a line. -/
def lineEnd : CharReader Unit := do
  skipBlanks
  skipComment
  match ← get with
  | [] => pure ()
  | text =>
    match newline? text with
    | some rest => set rest
    | none => failure

/-- Blanks, comments and line ends. Every round takes at least one character. -/
def skipLinesFrom : Nat → CharReader Unit
  | 0 => pure ()
  | bound + 1 => do
    skipBlanks
    skipComment
    match newline? (← get) with
    | some rest =>
      set rest
      skipLinesFrom bound
    | none => pure ()

def skipLines : CharReader Unit := do
  skipLinesFrom ((← get).length + 1)

def isBare (c : Char) : Bool :=
  c.isAlphanum || c == '_' || c == '-'

/-- One part of a key: a word, or a string on one line. -/
def keyPart : CharReader String := do
  if ← skipChar '"' then string '"' false
  else if ← skipChar '\'' then string '\'' false
  else
    let text ← get
    let word := text.takeWhile isBare
    if word.isEmpty then failure
    set (text.dropWhile isBare)
    return String.ofList word

/-- The parts of a key behind a first one. -/
def keyRest : Nat → CharReader (List String)
  | 0 => failure
  | bound + 1 => do
    skipBlanks
    if !(← skipChar '.') then return []
    skipBlanks
    let part ← keyPart
    return part :: (← keyRest bound)

def key : CharReader (List String) := do
  let first ← keyPart
  return first :: (← keyRest ((← get).length + 1))

/-- Items between commas up to a closing character, with lines between them. -/
def itemsUntil {α : Type} (closing : Char) (item : CharReader α) : Nat → CharReader (List α)
  | 0 => failure
  | bound + 1 => do
    skipLines
    if ← skipChar closing then return []
    let first ← item
    skipLines
    if ← skipChar closing then return [first]
    char ','
    return first :: (← itemsUntil closing item bound)

/-- How deep values may be inside others, and how many parts a key may have. -/
def maxDepth : Nat :=
  80

/-- A key in a table on one line, with its value. -/
def entry {α : Type} (value : CharReader α) : CharReader (List String × α) := do
  let parts ← key
  if maxDepth < parts.length then failure
  char '='
  skipBlanks
  return (parts, ← value)

/-- No key leads to the value of another one, or through it. -/
def areApart (keys : List (List String)) : Bool :=
  decide (keys.Pairwise fun key key' => ¬key <+: key' ∧ ¬key' <+: key)

/-- A value of any kind, with values inside it up to a depth: its text if it is a string. -/
def value : Nat → CharReader (Option String)
  | 0 => scalar
  | depth + 1 => do
    let bound := (← get).length + 1
    if ← skipChar '[' then
      let _ ← itemsUntil ']' (value depth) bound
      return none
    if ← skipChar '\x7b' then
      let entries ← itemsUntil '\x7d' (entry (value depth)) bound
      if areApart (entries.map Prod.fst) then return none
      failure
    scalar

/-- A field of a table on one line. -/
def tableField : CharReader (String × String) := do
  match ← entry anyString with
  | ([field], value) => return (field, value)
  | _ => failure

/-- The fields of a section given as a value. In an array, what is behind the last of them does not
count, whatever it is. -/
def sectionValue (name : String) : CharReader (List (String × String)) := do
  let bound := (← get).length + 1
  if ← skipChar '\x7b' then itemsUntil '\x7d' tableField bound
  else
    char '['
    let fields := (ConfigLayer.fieldsOf? name).getD []
    let items ← itemsUntil ']' (value (maxDepth - 1)) bound
    let values := (items.take fields.length).filterMap id
    if values.length < fields.length then failure
    return fields.zip values

/-- Give a section all of some fields. -/
def setAll? (name : String) (fields : List (String × String)) (d : Draft) : Option Draft :=
  fields.foldlM (fun d field => d.set? name field.1 field.2) d

/-- A key with its value. -/
def keyValue (d : Draft) : CharReader Draft := do
  let parts ← key
  char '='
  skipBlanks
  match d.current, parts with
  | some name, [field] => liftM (d.set? name field (← anyString))
  | none, [name, field] =>
    let d ← liftM (d.extend? name)
    liftM (d.set? name field (← anyString))
  | none, [name] =>
    let d ← liftM (d.open? name false)
    liftM (setAll? name (← sectionValue name) d)
  | _, _ => failure

def header (d : Draft) : CharReader Draft := do
  char '['
  skipBlanks
  let parts ← key
  char ']'
  match parts with
  | [name] =>
    let d ← liftM (d.open? name false)
    return { d with current := some name }
  | _ => failure

/-- The lines of a file. Every round takes at least one character. -/
def document : Nat → Draft → CharReader Draft
  | 0, _ => failure
  | bound + 1, d => do
    skipLines
    match ← get with
    | [] => return d
    | '[' :: _ =>
      let d ← header d
      lineEnd
      document bound d
    | _ =>
      let d ← keyValue d
      lineEnd
      document bound d

end LayerText

/-- The layer that the text of a configuration file describes. -/
def ConfigLayer.parse? (text : String) : Option ConfigLayer :=
  let text :=
    match text.toList with
    | '\ufeff' :: rest => rest
    | text => text
  match (LayerText.document (text.length + 1) {}).run text with
  | some (d, []) => some d.layer
  | _ => none

end MiddlewareStack
