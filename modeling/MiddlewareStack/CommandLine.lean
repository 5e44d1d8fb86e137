import MiddlewareStack.CommandLine.Arguments
import MiddlewareStack.Config.Load
import MiddlewareStack.Files.Tree

/-!
# The command line

A run is planned from its arguments, its environment and the files it finds: it ends at once, or a
file is to be written first.
-/

namespace MiddlewareStack.CommandLine

/-- What a run takes from its surroundings. -/
structure Environment where
  workingDir : String
  /-- The directory of the configurations of the user. -/
  configHome : Option String := none
  /-- The source of runs that name none. -/
  sourceFile : Option String := none
  deriving DecidableEq, Repr

/-- How a run ends. -/
structure Ending where
  exitCode : Nat := 0
  stdout : String := ""
  stderr : String := ""
  deriving DecidableEq, Repr

inductive Plan where
  | finish (ending : Ending)
  | write (path text : String)
  deriving DecidableEq, Repr

def versionText : String :=
  "typed-middleware 0.3.0\n"

def usageText : String :=
  "Usage: typed-middleware [OPTIONS] <ROOT>\n"

/-- Lines behind the first are moved to the right by blanks. -/
def hanging (blanks : String) (text : String) : String :=
  String.join (text.toList.map fun c => if c = '\n' then "\n" ++ blanks else c.toString)

/-- The causes of an error, numbered if there are several. -/
def causeLines : List String → List String
  | [] => []
  | [only] => ["    " ++ hanging "    " only]
  | causes => causes.mapIdx fun i cause =>
    let number := toString i
    String.ofList (List.replicate (5 - number.length) ' ') ++ number ++ ": " ++
      hanging "       " cause

/-- The text of an error with its causes, the outermost description first. -/
def errorText : List String → String
  | [] => ""
  | message :: causes =>
    let shown := causeLines causes
    "Error: " ++ message ++ (if shown.isEmpty then "" else "\n\nCaused by:") ++
      String.join (shown.map ("\n" ++ ·)) ++ "\n"

namespace Ending

def ofError (messages : List String) : Ending :=
  { exitCode := 1, stderr := errorText messages }

def ofStop : Stop → Ending
  | .version => { stdout := versionText }
  | .help => { stdout := usageText }
  | .refused => { exitCode := 2, stderr := usageText }

end Ending

/-- The directory of a run, the working directory unless another one is given. -/
def Arguments.directory (a : Arguments) (env : Environment) : String :=
  a.dir.getD env.workingDir

/-- The options of a run. It needs to name a stack. -/
def Arguments.options? (a : Arguments) (env : Environment) : Option GenerateOptions :=
  a.root.map fun root => {
    dir := a.directory env, source := a.source, symbols := a.symbols, root
    scope := a.scope.getD rootPackage, emit := a.emit.getD .rust }

/-- The options of a run, and whether its output is printed. -/
def readOptions (env : Environment) (texts : List String) :
    Except Stop (GenerateOptions × Bool) := do
  let a ← readArguments env.sourceFile texts
  match a.options? env with
  | some options => return (options, a.stdout)
  | none => .error .refused

def configPaths (env : Environment) (o : GenerateOptions) : List String :=
  Config.pathsFor env.configHome o.dir

/-- The files that a run may read. -/
def inputs (env : Environment) (texts : List String) : List String :=
  match readOptions env texts with
  | .ok (options, _) => configPaths env options ++ options.input?.toList
  | .error _ => []

/-- What a run does once its options are known. -/
def planWith (env : Environment) (files : Files.View) (o : GenerateOptions) (print : Bool) : Plan :=
  match Config.load files (configPaths env o) ConfigLayer.parse? with
  | .error e => .finish (.ofError e.messages)
  | .ok c =>
    if print then
      match o.generate files c with
      | .error e => .finish (.ofError e.messages)
      | .ok generated => .finish { stdout := generated.text }
    else
      match o.output files c with
      | .error e => .finish (.ofError e.messages)
      | .ok (path, text) => .write path text

def plan (env : Environment) (files : Files.View) (texts : List String) : Plan :=
  match readOptions env texts with
  | .error stop => .finish (.ofStop stop)
  | .ok (options, print) => planWith env files options print

/-- How a run ends whose output was written, or could not be. -/
def endingAfter (path : String) : Except Files.Fault Unit → Ending
  | .ok () => { stdout := "Generated " ++ path ++ "\n" }
  | .error fault => .ofError (GenerateError.unwritable path fault).messages

/-- A whole run on a tree of files. -/
def run (env : Environment) (t : Files.Tree) (texts : List String) : Ending × Files.Tree :=
  match plan env t.view texts with
  | .finish ending => (ending, t)
  | .write path text =>
    match t.write path text.toUTF8 with
    | .ok written => (endingAfter path (.ok ()), written)
    | .error fault => (endingAfter path (.error fault), t)

end MiddlewareStack.CommandLine
