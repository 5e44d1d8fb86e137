import MiddlewareStack.Resolution
import MiddlewareStack.ResolutionState

/-!
# Dependency graphs

Components stand in the order of their ids, and each names the components that its invocation
depends on. A capability has at most one component.
-/

namespace MiddlewareStack

structure Component where
  id : ComponentId
  /-- What the component provides, which also identifies it. -/
  capability : QualifiedName
  implementation : QualifiedName
  invocation : Method
  /-- The dependency contract passed as second argument. -/
  bundle : Option QualifiedName
  dependencies : List ComponentId
  deriving DecidableEq, Repr

namespace Component

def key (c : Component) : String :=
  c.capability.text

def takesBundle (c : Component) : Bool :=
  c.bundle.isSome

end Component

structure DependencyGraph where
  root : QualifiedName
  /-- The components that the root requires itself, in the order of its embeds. -/
  direct : List ComponentId := []
  components : List Component := []
  /-- The id of each capability that has a component. -/
  byKey : List (QualifiedName × ComponentId) := []
  deriving DecidableEq, Repr

namespace DependencyGraph

def get? (g : DependencyGraph) (id : ComponentId) : Option Component :=
  g.components[id]?

def find? (g : DependencyGraph) (capability : QualifiedName) : Option Component :=
  (g.byKey.lookup capability).bind g.get?

def size (g : DependencyGraph) : Nat :=
  g.components.length

/-- Add a component under the next id. A capability that is present keeps its component and its id,
and nothing changes. -/
def add (g : DependencyGraph) (r : Resolution) (dependencies : List ComponentId) :
    DependencyGraph × ComponentId :=
  match g.byKey.lookup r.capability with
  | some id => (g, id)
  | none =>
    let id := g.size
    let component : Component :=
      { id, capability := r.capability, implementation := r.implementation,
        invocation := r.invocation, bundle := r.bundle, dependencies }
    ({ g with
        components := g.components ++ [component]
        byKey := (r.capability, id) :: g.byKey }, id)

/-- Replace the edges of a component; an unknown id changes nothing. -/
def setDependencies (g : DependencyGraph) (id : ComponentId) (dependencies : List ComponentId) :
    DependencyGraph :=
  { g with components := g.components.modify id fun c => { c with dependencies } }

def adjacent (g : DependencyGraph) (id : ComponentId) : List ComponentId :=
  match g.get? id with
  | some component => component.dependencies
  | none => []

/-- Every component with the components it depends on. Ids without a component are left out. -/
def adjacency (g : DependencyGraph) : List (Component × List Component) :=
  g.components.map fun c => (c, c.dependencies.filterMap g.get?)

end DependencyGraph

end MiddlewareStack
