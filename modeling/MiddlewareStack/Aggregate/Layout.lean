import MiddlewareStack.Aggregate

/-!
# The text of an aggregate

Line by line: a heading, the trait that runs the stack, the aggregate with its fields, the contracts
it implements, and the method that calls the components.
-/

namespace MiddlewareStack.Aggregate

/-- A line that opens a block. -/
def opening (head : String) : String :=
  head ++ " \x7b"

def closing : String := "\x7d"

/-- Lines one level deeper. -/
def indented (lines : List String) : List String :=
  lines.map ("    " ++ ·)

/-- A block with its head and its content. -/
def block (head : String) (content : List String) : List String :=
  opening head :: indented content ++ [closing]

/-- A block without content. -/
def emptyBlock (head : String) : String :=
  opening head ++ closing

def stackTrait (a : Aggregate) : String :=
  a.root.name ++ "Stack"

def stackImpl (a : Aggregate) : String :=
  a.root.name ++ "StackImpl"

/-- The head of an implementation for the aggregate. -/
def implHead (a : Aggregate) (contract : String) : String :=
  "impl " ++ contract ++ " for " ++ a.stackImpl

/-- The signature of the method that runs the stack. -/
def runSignature (a : Aggregate) : String :=
  "fn run(&self, req: " ++ a.requestParam ++ ") -> ::core::result::Result<&dyn " ++
    a.root.filePath ++ ", " ++ a.runtime ++ "::MiddlewareResponse>"

def heading (a : Aggregate) (source : String) : List String := [
  "// Code generated by typed-middleware from " ++ source ++ ". DO NOT EDIT.",
  "",
  "/// Runs every middleware `" ++ a.root.filePath ++ "` needs, dependencies first.",
  "///",
  "/// On success the aggregate itself is returned as the `" ++ a.root.filePath ++ "` the",
  "/// handler consumes."]

def traitLines (a : Aggregate) : List String :=
  block ("pub trait " ++ a.stackTrait) [a.runSignature ++ ";"]

def Field.declaration (f : Field) : String :=
  f.name ++ ": " ++ f.implementation.filePath ++ ","

def structLines (a : Aggregate) : List String :=
  block ("pub struct " ++ a.stackImpl) (a.fields.map fun f => "pub " ++ f.declaration)

/-- The function that puts an aggregate together from one value for each field. -/
def constructorLines (a : Aggregate) : List String :=
  block ("impl " ++ a.stackImpl) <|
    ["#[allow(clippy::too_many_arguments)]", "pub fn new("] ++
    indented (a.fields.map Field.declaration) ++
    [opening ") -> Self"] ++
    indented (block "Self" (a.fields.map fun f => f.name ++ ",")) ++
    [closing]

def Delegate.lines (d : Delegate) : List String :=
  block d.signature [d.call]

def ContractImpl.lines (a : Aggregate) (i : ContractImpl) : List String :=
  block (a.implHead i.contract.filePath) (i.methods.flatMap Delegate.lines)

/-- The arguments of a call: the component, the request, and the aggregate as bundle. -/
def Call.arguments (c : Call) : String :=
  "&self." ++ c.field ++ ", req" ++ (if c.passBundle then ", self" else "")

/-- A call, and what ends the run behind it. -/
def Call.lines (runtime : String) (c : Call) : List String :=
  ["// " ++ toString c.position ++ ": " ++ c.capability,
    "let outcome = " ++ runtime ++ "::Outcome::from(" ++ c.implementation.filePath ++ "::" ++
      c.method ++ "(" ++ c.arguments ++ "));"] ++
  block "if let Some(response) = outcome.early_response" ["return Err(response);"] ++
  block "if let Some(err) = outcome.error"
    ["return Err(" ++ runtime ++ "::MiddlewareResponse::Error(err));"]

def runLines (a : Aggregate) : List String :=
  let body := a.calls.flatMap (Call.lines a.runtime)
  [opening (a.implHead a.stackTrait), "    " ++ opening a.runSignature] ++
    indented (indented body) ++ ["", "        Ok(self)", "    " ++ closing, closing]

/-- The lines of the generated code, `source` naming the file that the stack is from. -/
def lines (a : Aggregate) (source : String) : List String :=
  a.heading source ++ a.traitLines ++ [""] ++ a.structLines ++ [""] ++ a.constructorLines ++
    a.impls.flatMap (fun i => "" :: i.lines a) ++ [""] ++
    a.markers.map (fun marker => emptyBlock (a.implHead marker.filePath)) ++ [""] ++ a.runLines

/-- The generated code. -/
def text (a : Aggregate) (source : String) : String :=
  String.join ((a.lines source).map (· ++ "\n"))

end MiddlewareStack.Aggregate
