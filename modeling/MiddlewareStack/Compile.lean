import MiddlewareStack.Graph.Build
import MiddlewareStack.Pipeline

/-!
# Compiling a stack

Resolve everything that a root contract reaches, order it so that dependencies run first, and
assemble the pipeline.
-/

namespace MiddlewareStack

structure CompiledStack where
  graph : DependencyGraph
  order : List ComponentId
  pipeline : Pipeline
  deriving DecidableEq, Repr

namespace CompiledStack

/-- The components in invocation order. -/
def orderedComponents (s : CompiledStack) : List Component :=
  s.order.filterMap s.graph.get?

/-- Order a graph and assemble its pipeline. -/
def ofGraph (graph : DependencyGraph) : Except CompileError CompiledStack := do
  let order ← graph.order
  return { graph, order, pipeline := .assemble graph order }

end CompiledStack

namespace Table

/-- Compile with the packages that the scope stands for already known. Exactly one is expected. -/
def compileIn (t : Table) (c : Conventions) (packages : List String) (scope root : String) :
    Except CompileError CompiledStack :=
  match packages with
  | [package] => do
    let root : QualifiedName := { package, name := root }
    let _ ← t.contract root
    CompiledStack.ofGraph (← DependencyGraph.build t c root)
  | _ => .error (.duplicatePackageLoad scope packages.length)

/-- Compile the stack contract `root`, declared in the package that `scope` names. -/
def compile (t : Table) (c : Conventions) (scope root : String) :
    Except CompileError CompiledStack :=
  t.compileIn c (t.packagesMatching scope) scope root

end Table

end MiddlewareStack
