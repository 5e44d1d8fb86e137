import MiddlewareStack.Graph

/-!
# Building a dependency graph

Starting from a root contract, every capability embedded in it is resolved, then every capability
embedded in the contract that the resolution takes as its bundle, and so on. A capability is
resolved once; its component gets its id when all it depends on has one.
-/

namespace MiddlewareStack

structure BuildState where
  guard : ResolutionState := {}
  graph : DependencyGraph
  deriving DecidableEq, Repr

/-- A step that may fail. The state after a failure is still there to be looked at. -/
abbrev BuildStep (α : Type) := BuildState → Except CompileError α × BuildState

namespace BuildState

def leave (s : BuildState) (capability : QualifiedName) : BuildState :=
  { s with guard := s.guard.leave capability }

/-- Add a resolved component and remember its id. -/
def record (s : BuildState) (r : Resolution) (dependencies : List ComponentId) :
    ComponentId × BuildState :=
  let (graph, id) := s.graph.add r dependencies
  (id, { guard := s.guard.remember r.capability id, graph })

end BuildState

/-- Resolve embedded capabilities in order, each id once. Names of other declarations than
interfaces are passed over; a name without a declaration is an error. -/
def resolveEmbeds (t : Table) (resolveOne : QualifiedName → BuildStep ComponentId) :
    List QualifiedName → List ComponentId → BuildStep (List ComponentId)
  | [], ids, s => (.ok ids, s)
  | capability :: rest, ids, s =>
    match t.contract capability with
    | .error (.notAnInterface _) => resolveEmbeds t resolveOne rest ids s
    | .error e => (.error e, s)
    | .ok _ =>
      match resolveOne capability s with
      | (.error e, s) => (.error e, s)
      | (.ok id, s) =>
        resolveEmbeds t resolveOne rest (if id ∈ ids then ids else ids ++ [id]) s

/-- The components of the capabilities that a contract embeds. -/
def resolveStack (t : Table) (resolveOne : QualifiedName → BuildStep ComponentId)
    (stack : QualifiedName) : BuildStep (List ComponentId) := fun s =>
  match t.contract stack with
  | .error e => (.error e, s)
  | .ok contract => resolveEmbeds t resolveOne contract.declaredEmbeds [] s

/-- Resolve a capability that has no component yet. -/
def resolveUncached (t : Table) (c : Conventions)
    (resolveOne : QualifiedName → BuildStep ComponentId) (capability : QualifiedName) :
    BuildStep ComponentId := fun s =>
  match t.resolve c capability with
  | .error e => (.error e, s)
  | .ok resolution =>
    match resolution.bundle with
    | none => let (id, s) := s.record resolution []; (.ok id, s)
    | some bundle =>
      match resolveStack t resolveOne bundle s with
      | (.error e, s) => (.error e, s)
      | (.ok dependencies, s) => let (id, s) := s.record resolution dependencies; (.ok id, s)

/-- Resolve a capability to its component, the one it has already or a new one. Its dependencies are
resolved by `resolveOne`. -/
def resolveLevel (t : Table) (c : Conventions)
    (resolveOne : QualifiedName → BuildStep ComponentId) (capability : QualifiedName) :
    BuildStep ComponentId := fun s =>
  match s.guard.enter capability with
  | .error e => (.error e, s)
  | .ok guard =>
    match guard.cached? capability with
    | some id => (.ok id, { s with guard := guard.leave capability })
    | none =>
      let (result, s) := resolveUncached t c resolveOne capability { s with guard }
      (result, s.leave capability)

/-- The descent with at most `depth` levels, `beyond` standing for all that is deeper. The
capabilities on the path are distinct interfaces of the table, so that a depth beyond the number of
its symbols is never used up. -/
def resolveComponent (t : Table) (c : Conventions)
    (beyond : QualifiedName → BuildStep ComponentId) :
    Nat → QualifiedName → BuildStep ComponentId
  | 0 => beyond
  | depth + 1 => resolveLevel t c (resolveComponent t c beyond depth)

namespace DependencyGraph

/-- The graph of everything reachable from a root contract, by a descent of bounded depth. -/
def buildWithin (t : Table) (c : Conventions) (beyond : QualifiedName → BuildStep ComponentId)
    (depth : Nat) (root : QualifiedName) : Except CompileError DependencyGraph :=
  match resolveStack t (resolveComponent t c beyond depth) root { graph := { root } } with
  | (.error e, _) => .error e
  | (.ok direct, s) => .ok { s.graph with direct }

/-- The graph of everything reachable from a root contract. -/
def build (t : Table) (c : Conventions) (root : QualifiedName) :
    Except CompileError DependencyGraph :=
  buildWithin t c (fun capability s => (.error (.cyclicDependency capability s.guard.path), s))
    (t.symbolCount + 1) root

end DependencyGraph

end MiddlewareStack
