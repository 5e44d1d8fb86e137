import MiddlewareStack.Graph

/-!
# Invocation order

Every component comes after the components it depends on. A component is ready when it waits for
none of them any more; of several that are ready, the one with the smallest id comes next, so that
the order is determined by the graph.
-/

namespace MiddlewareStack

/-- Put an id in its place among ascending ones. -/
def insertId (id : ComponentId) : List ComponentId → List ComponentId
  | [] => [id]
  | other :: rest =>
    if id < other then id :: other :: rest
    else if id = other then other :: rest
    else other :: insertId id rest

/-- How far an ordering has come. -/
structure Placement where
  /-- How many dependencies each component still waits for, by its id. -/
  waiting : List Nat
  /-- The ids of the components that wait for none and are not placed yet, ascending. -/
  ready : List ComponentId
  placed : List ComponentId := []
  deriving DecidableEq, Repr

namespace Placement

/-- One dependency less to wait for. The last one makes a component ready. -/
def release (p : Placement) (id : ComponentId) : Placement :=
  match p.waiting[id]? with
  | some (left + 1) =>
    { p with
      waiting := p.waiting.set id left
      ready := if left = 0 then insertId id p.ready else p.ready }
  | _ => p

end Placement

namespace DependencyGraph

/-- The components that depend on one, each as often as it names it. -/
def dependents (g : DependencyGraph) (id : ComponentId) : List ComponentId :=
  g.components.flatMap fun c => List.replicate (c.dependencies.count id) c.id

def start (g : DependencyGraph) : Placement :=
  let waiting := g.components.map (·.dependencies.length)
  { waiting, ready := (g.components.filter fun c => waiting[c.id]? = some 0).map Component.id }

/-- Place a component that is ready, which leaves `others`. -/
def place (g : DependencyGraph) (p : Placement) (id : ComponentId) (others : List ComponentId) :
    Placement :=
  (g.dependents id).foldl Placement.release { p with ready := others, placed := p.placed ++ [id] }

/-- Place components one by one for as long as one is ready, at most `count` of them. -/
def placeFrom (g : DependencyGraph) : Nat → Placement → Placement
  | 0, p => p
  | count + 1, p =>
    match p.ready with
    | [] => p
    | id :: others => g.placeFrom count (g.place p id others)

/-- The capabilities of the components that still wait, in the order of their ids. -/
def stillWaiting (g : DependencyGraph) (p : Placement) : List QualifiedName :=
  (g.components.filter fun c => 0 < p.waiting[c.id]?.getD 0).map Component.capability

/-- The invocation order. Components that can never be placed wait on a cycle or on a component that
does not exist, and are reported in the order of their ids. -/
def order (g : DependencyGraph) : Except CompileError (List ComponentId) :=
  let last := g.placeFrom g.size g.start
  if last.placed.length < g.size then
    let waiting := g.stillWaiting last
    .error (.cyclicDependency (waiting.headD default) waiting)
  else .ok last.placed

end DependencyGraph

end MiddlewareStack
