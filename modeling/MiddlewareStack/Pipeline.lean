import MiddlewareStack.Order
import MiddlewareStack.Outcome

/-!
# Pipelines

An ordered graph as a list of steps. A pipeline runs nothing by itself: an executor interprets it,
or code is generated for it.
-/

namespace MiddlewareStack

structure Step where
  position : Nat
  component : ComponentId
  /-- The key of the component that is run. -/
  capability : String
  implementation : QualifiedName
  /-- Whether the component is handed the bundle. -/
  passBundle : Bool
  bundle : Option QualifiedName
  shortCircuit : ShortCircuit := {}
  deriving DecidableEq, Repr

structure Pipeline where
  /-- The contract that the pipeline realises. -/
  target : QualifiedName
  steps : List Step
  deriving DecidableEq, Repr

namespace Pipeline

def step? (p : Pipeline) (capability : String) : Option Step :=
  p.steps.find? (·.capability = capability)

/-- The keys of the components in the order in which they run. -/
def invocationOrder (p : Pipeline) : List String :=
  p.steps.map Step.capability

end Pipeline

def Step.ofComponent (position : Nat) (c : Component) : Step :=
  { position, component := c.id, capability := c.key, implementation := c.implementation,
    passBundle := c.takesBundle, bundle := c.bundle }

/-- One step for each ordered component. -/
def Pipeline.assemble (g : DependencyGraph) (order : List ComponentId) : Pipeline :=
  { target := g.root
    steps := (order.filterMap g.get?).mapIdx Step.ofComponent }

end MiddlewareStack
