import MiddlewareStack.Compile
import MiddlewareStack.Manifest.Encode

/-!
# Compiled stacks as JSON

The graph, the order and the pipeline, each field in the order of its declaration.
-/

namespace MiddlewareStack

def idsJson (ids : List ComponentId) : Json :=
  .array (ids.map Json.ofNat)

def Component.toJson (c : Component) : Json :=
  .object [
    ("id", .ofNat c.id),
    ("capability", c.capability.toJson),
    ("implementation", c.implementation.toJson),
    ("invocation", c.invocation.toJson),
    ("bundle", .ofOption QualifiedName.toJson c.bundle),
    ("dependencies", idsJson c.dependencies)]

def DependencyGraph.toJson (g : DependencyGraph) : Json :=
  .object [
    ("root", g.root.toJson),
    ("direct", idsJson g.direct),
    ("components", .array (g.components.map Component.toJson))]

def Transition.word : Transition → String
  | .continue => "continue"
  | .returnOverride => "return_override"
  | .returnWrappedError => "return_wrapped_error"

def ShortCircuit.toJson (rule : ShortCircuit) : Json :=
  .object [
    ("on_early_response", .string rule.onEarlyResponse.word),
    ("on_error", .string rule.onError.word)]

def Step.toJson (s : Step) : Json :=
  .object [
    ("position", .ofNat s.position),
    ("component", .ofNat s.component),
    ("capability", .string s.capability),
    ("implementation", s.implementation.toJson),
    ("pass_bundle", .bool s.passBundle),
    ("bundle", .ofOption QualifiedName.toJson s.bundle),
    ("short_circuit", s.shortCircuit.toJson)]

def Pipeline.toJson (p : Pipeline) : Json :=
  .object [("target", p.target.toJson), ("steps", .array (p.steps.map Step.toJson))]

def CompiledStack.toJson (s : CompiledStack) : Json :=
  .object [
    ("graph", s.graph.toJson),
    ("order", idsJson s.order),
    ("pipeline", s.pipeline.toJson)]

end MiddlewareStack
