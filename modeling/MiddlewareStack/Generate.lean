import MiddlewareStack.Aggregate.Layout
import MiddlewareStack.Files.Tree
import MiddlewareStack.Json.Writer
import MiddlewareStack.Manifest.Decode
import MiddlewareStack.Report
import MiddlewareStack.Source.TableBuilder

/-!
# Generating the output of a stack

Symbols come from a source file or from a manifest, which is preferred. What is generated is either
code or a description of the compiled stack, written next to the file the symbols came from.
-/

namespace MiddlewareStack

/-- The form of what is generated. -/
inductive Emit where
  | rust
  | json
  deriving DecidableEq, Repr, Inhabited

namespace Emit

def word : Emit → String
  | .rust => "rust"
  | .json => "json"

def ofWord? : String → Option Emit
  | "rust" => some .rust
  | "json" => some .json
  | _ => none

/-- What follows the last dot in the name of the output. -/
def fileEnding : Emit → String
  | .rust => "rs"
  | .json => "json"

end Emit

structure GenerateOptions where
  /-- The directory that paths start from. -/
  dir : String
  source : Option String := none
  /-- The manifest. -/
  symbols : Option String := none
  root : String
  scope : String := rootPackage
  emit : Emit := .rust
  deriving DecidableEq, Repr

inductive GenerateError where
  | unreadableSymbols (path : String) (fault : Files.Fault)
  | malformedSymbols (path : String)
  | noSource
  | unreadableSource (path : String) (fault : Files.Fault)
  | malformedSource (path : String)
  | uncompiled (root path : String) (error : CompileError)
  | ungenerated (fault : Aggregate.Fault)
  | noFileName (path : String)
  | unwritable (path : String) (fault : Files.Fault)
  deriving DecidableEq, Repr

namespace GenerateError

/-- What went wrong, the outermost description first. -/
def messages : GenerateError → List String
  | .unreadableSymbols path fault => ["Failed to read symbols: " ++ path, fault.message]
  | .malformedSymbols path => ["Failed to parse symbols: " ++ path, "not a symbol manifest"]
  | .noSource => ["no source file given: pass --source or set TYPED_MIDDLEWARE_FILE"]
  | .unreadableSource path fault => ["Failed to read source: " ++ path, fault.message]
  | .malformedSource path => ["Failed to parse source: " ++ path, "not a source file"]
  | .uncompiled root path error =>
    ["Failed to compile " ++ root ++ " from " ++ path, error.message]
  | .ungenerated fault => fault.messages
  | .noFileName path => [path ++ " has no file name"]
  | .unwritable path fault => ["Failed to write " ++ path, fault.message]

end GenerateError

/-- What was generated from the symbols at a path. -/
structure Generated where
  input : String
  text : String
  deriving DecidableEq, Repr

namespace GenerateOptions

/-- The file that the symbols come from. -/
def input? (o : GenerateOptions) : Option String :=
  (o.symbols.or o.source).map (Files.join o.dir)

/-- The table that the symbols make up, with the path they come from. -/
def table (o : GenerateOptions) (files : Files.View) : Except GenerateError (Table × String) :=
  match o.symbols, o.source with
  | some symbols, _ =>
    let path := Files.join o.dir symbols
    match (files path).text with
    | .error fault => .error (.unreadableSymbols path fault)
    | .ok text =>
      match Table.ofManifest? text with
      | some t => .ok (t, path)
      | none => .error (.malformedSymbols path)
  | none, some source =>
    let path := Files.join o.dir source
    match (files path).text with
    | .error fault => .error (.unreadableSource path fault)
    | .ok text =>
      match Table.ofSource? text with
      | some t => .ok (t, path)
      | none => .error (.malformedSource path)
  | none, none => .error .noSource

/-- The text of a compiled stack, whose contracts are looked up in a table. -/
def render (o : GenerateOptions) (s : CompiledStack) (t : Table) (c : Config) (input : String) :
    Except GenerateError String :=
  match o.emit with
  | .json => .ok (s.toJson.indented ++ "\n")
  | .rust =>
    match Aggregate.ofStack s t c with
    | .error fault => .error (.ungenerated fault)
    | .ok a => .ok (a.text (((Files.splitName? input).map Prod.snd).getD ""))

/-- Compile the stack and render it. -/
def generate (o : GenerateOptions) (files : Files.View) (c : Config) :
    Except GenerateError Generated := do
  let (t, input) ← o.table files
  match t.compile c.conventions o.scope o.root with
  | .error e => .error (.uncompiled o.root input e)
  | .ok s => return { input, text := ← o.render s t c input }

/-- Where the output goes: a file next to the input, named after it. -/
def outputPath (o : GenerateOptions) (c : Config) (input : String) :
    Except GenerateError String :=
  match Files.splitName? input with
  | none => .error (.noFileName input)
  | some (dir, name) =>
    .ok (Files.join dir (Files.stem name ++ c.output.suffix ++ "." ++ o.emit.fileEnding))

/-- What is to be written, and where. -/
def output (o : GenerateOptions) (files : Files.View) (c : Config) :
    Except GenerateError (String × String) := do
  let generated ← o.generate files c
  return (← o.outputPath c generated.input, generated.text)

/-- Write a text into a tree. A file that cannot be written stays as it was. -/
def writeText (path text : String) : EStateM GenerateError Files.Tree Unit := fun t =>
  match t.write path text.toUTF8 with
  | .ok after => .ok () after
  | .error fault => .error (.unwritable path fault) t

/-- Generate the output in a tree. The result is the path of what was written. -/
def perform (o : GenerateOptions) (c : Config) : EStateM GenerateError Files.Tree String := do
  let t ← get
  let (path, text) ← ofExcept (o.output t.view c)
  writeText path text
  return path

end GenerateOptions

end MiddlewareStack
