import MiddlewareStack.Conventions
import MiddlewareStack.Text.PathSyntax

/-!
# Configuration

The naming conventions and how generated code is written. A layer sets some of the five fields and
leaves the others as they are.
-/

namespace MiddlewareStack

structure OutputConfig where
  /-- Put after the stem of the source file name. -/
  suffix : String := "_middleware"
  /-- How generated code names the runtime types. -/
  runtimeCrate : String := "typed_middleware"
  deriving DecidableEq, Repr, Inhabited

structure Config where
  conventions : Conventions := {}
  output : OutputConfig := {}
  deriving DecidableEq, Repr, Inhabited

/-- The fields that one configuration file sets. -/
structure ConfigLayer where
  implementationSuffix : Option String := none
  invocationMethod : Option String := none
  requestType : Option String := none
  suffix : Option String := none
  runtimeCrate : Option String := none
  deriving DecidableEq, Repr, Inhabited

namespace Config

/-- Every field that the layer sets is overridden. -/
def merge (c : Config) (layer : ConfigLayer) : Config :=
  { conventions := {
      implementationSuffix :=
        layer.implementationSuffix.getD c.conventions.implementationSuffix
      invocationMethod := layer.invocationMethod.getD c.conventions.invocationMethod
      requestType := layer.requestType.getD c.conventions.requestType }
    output := {
      suffix := layer.suffix.getD c.output.suffix
      runtimeCrate := layer.runtimeCrate.getD c.output.runtimeCrate } }

end Config

/-- What is wrong with a configuration. -/
inductive ConfigProblem where
  | emptyImplementationSuffix
  | implementationSuffix (value : String)
  | invocationMethod (value : String)
  | requestType (value : String)
  | emptySuffix
  | suffixSeparator (value : String)
  | runtimeCrate (value : String)
  deriving DecidableEq, Repr

namespace ConfigProblem

def message : ConfigProblem → String
  | .emptyImplementationSuffix =>
    "conventions.implementation_suffix cannot be empty: " ++
      "a capability would be its own implementation"
  | .implementationSuffix value =>
    "conventions.implementation_suffix '" ++ value ++
      "' must contain only alphanumeric characters or underscores"
  | .invocationMethod value =>
    "conventions.invocation_method '" ++ value ++ "' is not a valid method name"
  | .requestType value => "conventions.request_type '" ++ value ++ "' is not a type path"
  | .emptySuffix => "output.suffix cannot be empty: generated code would overwrite its source"
  | .suffixSeparator value => "output.suffix '" ++ value ++ "' cannot contain path separators"
  | .runtimeCrate value => "output.runtime_crate '" ++ value ++ "' is not a crate path"

end ConfigProblem

namespace Config

def problemUnless (holds : Bool) (problem : ConfigProblem) : List ConfigProblem :=
  if holds then [] else [problem]

def implementationSuffixProblems (value : String) : List ConfigProblem :=
  if value.isEmpty then [.emptyImplementationSuffix]
  else problemUnless (Text.isIdentifierTail value.toList) (.implementationSuffix value)

def suffixProblems (value : String) : List ConfigProblem :=
  if value.isEmpty then [.emptySuffix]
  else problemUnless (value.toList.all fun c => c ≠ '/' && c ≠ '\\') (.suffixSeparator value)

/-- All problems, field by field. -/
def problems (c : Config) : List ConfigProblem :=
  implementationSuffixProblems c.conventions.implementationSuffix ++
  problemUnless (Text.isIdentifier c.conventions.invocationMethod.toList)
    (.invocationMethod c.conventions.invocationMethod) ++
  problemUnless (Text.isPath c.conventions.requestType.toList)
    (.requestType c.conventions.requestType) ++
  suffixProblems c.output.suffix ++
  problemUnless (Text.isPath c.output.runtimeCrate.toList) (.runtimeCrate c.output.runtimeCrate)

end Config

end MiddlewareStack
