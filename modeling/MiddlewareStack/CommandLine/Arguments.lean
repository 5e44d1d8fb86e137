import MiddlewareStack.Generate

/-!
# Command line arguments

One argument names the stack, the others are options. An option is given once, as `--option value`,
`--option=value`, `-o value`, `-ovalue` or `-o=value`, and flags of one letter may stand together.
Behind `--` nothing is an option.
-/

namespace MiddlewareStack.CommandLine

/-- The options that have a value. -/
inductive ValueOption where
  | source
  | dir
  | scope
  | symbols
  | emit
  deriving DecidableEq, Repr

/-- What the arguments say so far. -/
structure Arguments where
  root : Option String := none
  source : Option String := none
  dir : Option String := none
  scope : Option String := none
  symbols : Option String := none
  emit : Option Emit := none
  /-- Whether the output is printed instead of written. -/
  stdout : Bool := false
  deriving DecidableEq, Repr

/-- Why the arguments do not lead to a run. -/
inductive Stop where
  | version
  | help
  | refused
  deriving DecidableEq, Repr

/-- Set what is not set yet. -/
def setOnce {α : Type} (old : Option α) (value : α) : Except Stop (Option α) :=
  if old.isSome then .error .refused else .ok (some value)

/-- Set a path, which must not be empty. -/
def setPath (old : Option String) (value : String) : Except Stop (Option String) :=
  if value.isEmpty then .error .refused else setOnce old value

namespace Arguments

def setRoot (a : Arguments) (value : String) : Except Stop Arguments :=
  return { a with root := ← setOnce a.root value }

def set (a : Arguments) (value : String) : ValueOption → Except Stop Arguments
  | .source => return { a with source := ← setPath a.source value }
  | .dir => return { a with dir := ← setPath a.dir value }
  | .scope => return { a with scope := ← setOnce a.scope value }
  | .symbols => return { a with symbols := ← setPath a.symbols value }
  | .emit =>
    match Emit.ofWord? value with
    | some emit => return { a with emit := ← setOnce a.emit emit }
    | none => .error .refused

def setStdout (a : Arguments) : Except Stop Arguments :=
  if a.stdout then .error .refused else .ok { a with stdout := true }

end Arguments

/-- What an option is: one with a value, or a change by itself. -/
inductive OptionKind where
  | value (option : ValueOption)
  | flag (apply : Arguments → Except Stop Arguments)

def longOption? : String → Option OptionKind
  | "source" => some (.value .source)
  | "dir" => some (.value .dir)
  | "scope" => some (.value .scope)
  | "symbols" => some (.value .symbols)
  | "emit" => some (.value .emit)
  | "stdout" => some (.flag Arguments.setStdout)
  | "verbose" => some (.flag .ok)
  | "version" => some (.flag fun _ => .error .version)
  | "help" => some (.flag fun _ => .error .help)
  | _ => none

def shortOption? : Char → Option OptionKind
  | 's' => some (.value .source)
  | 'd' => some (.value .dir)
  | 'v' => some (.flag .ok)
  | 'V' => some (.flag fun _ => .error .version)
  | 'h' => some (.flag fun _ => .error .help)
  | _ => none

/-- Whether an argument has the form of an option. A lone dash has not. -/
def isOptionText (text : String) : Bool :=
  match text.toList with
  | '-' :: _ :: _ => true
  | _ => false

/-- Arguments with the option, if any, whose value has to follow. -/
abbrev Pending := Arguments × Option ValueOption

/-- Letters behind one dash. What follows the letter of an option with a value is its value. -/
def readLetters (a : Arguments) : List Char → Except Stop Pending
  | [] => .ok (a, none)
  | letter :: rest =>
    match shortOption? letter with
    | none => .error .refused
    | some (.flag apply) => do readLetters (← apply a) rest
    | some (.value option) =>
      match rest with
      | [] => .ok (a, some option)
      | '=' :: value => return (← a.set (String.ofList value) option, none)
      | value => return (← a.set (String.ofList value) option, none)

/-- The name of a long option, with the value behind an equals sign. -/
def splitLong (text : List Char) : String × Option String :=
  let name := String.ofList (text.takeWhile (· != '='))
  match text.dropWhile (· != '=') with
  | [] => (name, none)
  | _ :: value => (name, some (String.ofList value))

/-- A long option behind its dashes. -/
def readLong (a : Arguments) (text : List Char) : Except Stop Pending :=
  let (name, value) := splitLong text
  match longOption? name, value with
  | none, _ => .error .refused
  | some (.flag _), some _ => .error .refused
  | some (.flag apply), none => return (← apply a, none)
  | some (.value option), some value => return (← a.set value option, none)
  | some (.value option), none => .ok (a, some option)

def readOption (a : Arguments) (text : String) : Except Stop Pending :=
  match text.toList with
  | '-' :: '-' :: name => readLong a name
  | '-' :: letters => readLetters a letters
  | _ => .error .refused

/-- Read arguments, after an option whose value comes next if there is one. -/
def readFrom : Pending → List String → Except Stop Arguments
  | (a, none), [] => .ok a
  | (_, some _), [] => .error .refused
  | (a, some option), value :: rest =>
    if isOptionText value then .error .refused
    else do readFrom (← a.set value option, none) rest
  | (a, none), text :: rest =>
    if text = "--" then rest.foldlM Arguments.setRoot a
    else if isOptionText text then do readFrom (← readOption a text) rest
    else do readFrom (← a.setRoot text, none) rest

/-- The arguments of a run, where `sourceFile` stands for a source that is not given. -/
def readArguments (sourceFile : Option String) (texts : List String) : Except Stop Arguments := do
  let a ← readFrom ({}, none) texts
  match a.source, sourceFile with
  | none, some source => a.set source .source
  | _, _ => return a

end MiddlewareStack.CommandLine
