import MiddlewareStack.Config.LayerText
import MiddlewareStack.Files.Entry
import MiddlewareStack.Files.Path

/-!
# Loading configurations

Configuration files are layers over the defaults, applied in order. Those that are not there are
passed over, and only the result has to be valid. What a file says is left to a reader of its text.
-/

namespace MiddlewareStack

inductive ConfigError where
  | unreadable (path : String) (fault : Files.Fault)
  | malformed (path : String)
  | invalid (problems : List ConfigProblem)
  deriving DecidableEq, Repr

namespace ConfigError

/-- What went wrong, the outermost description first. -/
def messages : ConfigError → List String
  | .unreadable path fault => ["Failed to read config: " ++ path, fault.message]
  | .malformed path => ["Failed to parse config: " ++ path, "not a configuration file"]
  | .invalid problems =>
    ["Config validation failed:\n  " ++ "\n  ".intercalate (problems.map ConfigProblem.message)]

end ConfigError

/-- The layer in a file, none if the file is not there. -/
def ConfigLayer.read? (parse? : String → Option ConfigLayer) (files : Files.View) (path : String) :
    Except ConfigError (Option ConfigLayer) :=
  let entry := files path
  if !entry.isPresent then .ok none
  else
    match entry.text with
    | .error fault => .error (.unreadable path fault)
    | .ok text =>
      match parse? text with
      | some layer => .ok (some layer)
      | none => .error (.malformed path)

namespace Config

/-- Apply the layers of some files in order. -/
def applyLayers (parse? : String → Option ConfigLayer) (files : Files.View) :
    List String → Config → Except ConfigError Config
  | [], c => .ok c
  | path :: rest, c =>
    match ConfigLayer.read? parse? files path with
    | .error e => .error e
    | .ok none => applyLayers parse? files rest c
    | .ok (some layer) => applyLayers parse? files rest (c.merge layer)

def validated (c : Config) : Except ConfigError Config :=
  if c.problems.isEmpty then .ok c else .error (.invalid c.problems)

/-- The configuration that the files at some paths make up, by a reader of their texts. -/
def load (files : Files.View) (paths : List String)
    (parse? : String → Option ConfigLayer := ConfigLayer.parse?) : Except ConfigError Config := do
  validated (← applyLayers parse? files paths {})

/-- The files that make up the configuration of a project: that of the user, in a directory for
configurations if there is one, and that of the project. -/
def pathsFor (configHome : Option String) (project : String) : List String :=
  let user := configHome.map fun home =>
    Files.join (Files.join home "typed-middleware") "config.toml"
  user.toList ++ [Files.join project "typed-middleware.toml"]

end Config

end MiddlewareStack
