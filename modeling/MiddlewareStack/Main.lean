import MiddlewareStack.CommandLine

/-!
# The program

Reads the files that a run may need, carries out its plan, and says how it ended.
-/

namespace MiddlewareStack.Main

open Files

/-- Why the system could not read or write a file. -/
def faultOf : IO.Error → Fault
  | .noFileOrDirectory .. => .notFound
  | .inappropriateType _ code details => typeFault code details
  | error => .system (toString error)
where
  typeFault (code : UInt32) (details : String) : Fault :=
    if code == 20 then .notADirectory
    else if code == 21 then .isADirectory
    else .system details

/-- Whether a path leads to anything. -/
def leadsSomewhere (path : String) : IO Bool := do
  try
    let _ ← IO.FS.realPath path
    return true
  catch _ => return false

def readEntry (path : String) : IO Entry := do
  try
    return .file (← IO.FS.readBinFile path)
  catch error =>
    match faultOf error with
    | .isADirectory => return .directory
    | fault => return if ← leadsSomewhere path then .unreadable fault else .absent fault

/-- The files at some paths. -/
def viewOf (paths : List String) : IO View := do
  let entries ← paths.mapM fun path => return (path, ← readEntry path)
  return fun path => (entries.lookup path).getD (.absent .notFound)

def writeFile (path text : String) : IO (Except Fault Unit) := do
  try
    IO.FS.writeFile path text
    return .ok ()
  catch error => return .error (faultOf error)

/-- The directory of the configurations of the user. -/
def configHome : IO (Option String) := do
  match ← IO.getEnv "XDG_CONFIG_HOME" with
  | some home => if isAbsolute home then return some home else homeConfig
  | none => homeConfig
where
  homeConfig : IO (Option String) := do
    return (← IO.getEnv "HOME").map fun home => join home ".config"

def environment : IO CommandLine.Environment := do
  return {
    workingDir := (← IO.currentDir).toString
    configHome := ← configHome
    sourceFile := ← IO.getEnv "TYPED_MIDDLEWARE_FILE" }

def report (ending : CommandLine.Ending) : IO UInt32 := do
  (← IO.getStdout).putStr ending.stdout
  (← IO.getStderr).putStr ending.stderr
  return ending.exitCode.toUInt32

end MiddlewareStack.Main

open MiddlewareStack in
def main (args : List String) : IO UInt32 := do
  let env ← Main.environment
  let files ← Main.viewOf (CommandLine.inputs env args)
  match CommandLine.plan env files args with
  | .finish ending => Main.report ending
  | .write path text =>
    Main.report (CommandLine.endingAfter path (← Main.writeFile path text))
