import MiddlewareStack.Compile
import MiddlewareStack.Config
import MiddlewareStack.Text.SnakeCase

/-!
# Aggregates

The code generated for a compiled stack is an aggregate: one field for each component, an
implementation of every contract that the stack reaches, and a method that runs the components in
order. Here it is a value; its text is a matter of layout.
-/

namespace MiddlewareStack

/-- The path of a declaration from the top level of its file. -/
def QualifiedName.filePath (q : QualifiedName) : String :=
  if q.package = rootPackage then q.name
  else
    match q.package.toList with
    | 's' :: 'e' :: 'l' :: 'f' :: ':' :: ':' :: package => String.ofList package ++ "::" ++ q.name
    | _ => q.text

namespace Aggregate

structure Field where
  name : String
  /-- The component that the field holds. -/
  capability : QualifiedName
  implementation : QualifiedName
  deriving DecidableEq, Repr

/-- A method that is forwarded to a field. -/
structure Delegate where
  signature : String
  call : String
  deriving DecidableEq, Repr

/-- The implementation of a contract whose methods are forwarded to one field. -/
structure ContractImpl where
  contract : QualifiedName
  methods : List Delegate
  deriving DecidableEq, Repr

/-- One call of the method that runs the components. -/
structure Call where
  position : Nat
  capability : String
  implementation : QualifiedName
  method : String
  field : String
  /-- Whether the aggregate is passed as bundle. -/
  passBundle : Bool
  deriving DecidableEq, Repr

/-- Why no code can be generated. -/
inductive Fault where
  | notAnInterface (name : QualifiedName)
  /-- A contract that stands for a stack has a method of its own. -/
  | stackMethod (stack : QualifiedName) (method : String)
  /-- A forwarded method consumes the component. -/
  | consumingMethod (contract implementation : QualifiedName) (method : String)
  deriving DecidableEq, Repr

namespace Fault

/-- What went wrong, the outermost description first. -/
def messages : Fault → List String
  | .notAnInterface name => [name.text ++ " is not an interface in the symbol table"]
  | .stackMethod stack method =>
    ["stack contract " ++ stack.text ++ " declares method " ++ method ++
      "(); stack contracts may only embed capabilities"]
  | .consumingMethod contract implementation method =>
    ["cannot delegate " ++ contract.text ++ " to " ++ implementation.filePath,
      method ++ "() takes self by value"]

end Fault

/-- The name that a field has if no other component wants it. -/
def baseName (c : Component) : String :=
  Text.snakeCase c.implementation.name

/-- The packages below the top level, in the form that field names have. -/
def packageWords (c : Component) : List String :=
  ((Text.segments c.implementation.package).filter (· ≠ rootPackage)).map Text.snakeCase

/-- Implementations that share a name are told apart by their packages. -/
def fieldName (components : List Component) (c : Component) : String :=
  let base := baseName c
  if (components.filter (baseName · = base)).length > 1 && !(packageWords c).isEmpty then
    "_".intercalate (packageWords c) ++ "_" ++ base
  else base

def fieldOf (components : List Component) (c : Component) : Field :=
  { name := fieldName components c, capability := c.capability, implementation := c.implementation }

/-- A type as written, or as a reference shows it if that is unknown. -/
def typeText (p : Param) : String :=
  if p.rendered.isEmpty then p.ty.text else p.rendered

def receiverText : Receiver → List String
  | .absent => []
  | .ref => ["&self"]
  | .refMut => ["&mut self"]
  | .value => ["self"]

/-- The signature of a method as written, or put together from its parts if that is unknown. -/
def signatureText (m : Method) : String :=
  if m.rendered.isEmpty then
    let params := receiverText m.receiver ++ m.params.map fun p => p.name ++ ": " ++ typeText p
    let output :=
      match m.output with
      | some ty => " -> " ++ ty.text
      | none => ""
    "fn " ++ m.name ++ "(" ++ ", ".intercalate params ++ ")" ++ output
  else m.rendered

/-- What a forwarded method is called on, none if it cannot be forwarded. -/
def forwarded? (field : String) : Receiver → Option (List String)
  | .ref => some ["&self." ++ field]
  | .refMut => some ["&mut self." ++ field]
  | .absent => some []
  | .value => none

/-- The method that forwards to a field. -/
def delegate (contract : QualifiedName) (field : Field) (m : Method) : Except Fault Delegate :=
  match forwarded? field.name m.receiver with
  | none => .error (.consumingMethod contract field.implementation m.name)
  | some receiver => .ok {
      signature := signatureText m
      call := field.implementation.filePath ++ "::" ++ m.name ++ "(" ++
        ", ".intercalate (receiver ++ m.argNames) ++ ")" }

def interfaceOf (t : Table) (name : QualifiedName) : Except Fault Interface :=
  match t.interface? name with
  | some decl => .ok decl
  | none => .error (.notAnInterface name)

/-- The contracts that stand for stacks: the root and the bundles, each once. They may only
embed. -/
def stackContracts (t : Table) :
    List QualifiedName → List QualifiedName → Except Fault (List QualifiedName)
  | found, [] => .ok found
  | found, stack :: rest =>
    if stack ∈ found then stackContracts t found rest
    else do
      let decl ← interfaceOf t stack
      match decl.methods with
      | [] => stackContracts t (found ++ [stack]) rest
      | m :: _ => .error (.stackMethod stack m.name)

/-- What a walk over contracts has met, and the implementations it has made. -/
structure Progress where
  handled : List QualifiedName
  impls : List ContractImpl := []

/-- Visit embedded interfaces in order, those that are not handled yet. -/
def visitEmbeds (t : Table) (visit : QualifiedName → Progress → Except Fault Progress) :
    List QualifiedName → Progress → Except Fault Progress
  | [], p => .ok p
  | name :: rest, p =>
    if name ∈ p.handled || (t.interface? name).isNone then visitEmbeds t visit rest p
    else do
      let p ← visit name { p with handled := name :: p.handled }
      visitEmbeds t visit rest p

/-- Implement a contract by a field, and then what it embeds. Each level down has met one more
symbol of the table, so that `depth` need not exceed their number. -/
def implement (t : Table) (field : Field) : Nat → QualifiedName → Progress → Except Fault Progress
  | depth, name, p => do
    let decl ← interfaceOf t name
    let methods ← decl.methods.mapM (delegate name field)
    let p := { p with impls := p.impls ++ [{ contract := name, methods }] }
    match depth with
    | 0 => return p
    | depth + 1 => visitEmbeds t (implement t field depth) decl.declaredEmbeds p

/-- Implement the capability of each field and what it embeds. -/
def implementAll (t : Table) : List Field → Progress → Except Fault Progress
  | [], p => .ok p
  | field :: rest, p => do
    let p ← implement t field t.symbolCount field.capability p
    implementAll t rest p

def callOf (components : List Component) (step : Step) (c : Component) : Call :=
  { position := step.position, capability := step.capability,
    implementation := step.implementation, method := c.invocation.name,
    field := fieldName components c, passBundle := step.passBundle }

/-- The parameter that takes the request, as the first component has it. -/
def requestParamText (c : Config) (ordered : List Component) : String :=
  match ordered.head?.bind (·.invocation.params.head?) with
  | some p => typeText p
  | none => "&" ++ c.conventions.requestType

end Aggregate

open Aggregate in
structure Aggregate where
  root : QualifiedName
  /-- How the code names the types of the runtime. -/
  runtime : String
  requestParam : String
  fields : List Field
  impls : List ContractImpl
  /-- Contracts without methods, implemented by what they embed. -/
  markers : List QualifiedName
  calls : List Call
  deriving DecidableEq, Repr

namespace Aggregate

/-- The aggregate of a compiled stack, whose contracts are looked up in a table. -/
def ofStack (s : CompiledStack) (t : Table) (c : Config) : Except Fault Aggregate := do
  let components := s.graph.components
  let ordered := s.orderedComponents
  let fields := ordered.map (fieldOf components)
  let markers ← stackContracts t [] (s.pipeline.target :: s.pipeline.steps.filterMap Step.bundle)
  let handled := components.map Component.capability ++ markers
  let progress ← implementAll t fields { handled }
  return {
    root := s.pipeline.target
    runtime := c.output.runtimeCrate
    requestParam := requestParamText c ordered
    fields, markers
    impls := progress.impls
    calls := List.zipWith (callOf components) s.pipeline.steps ordered }

end Aggregate

end MiddlewareStack
