import MiddlewareStack.CompileError

/-!
# The state of one compile's resolution

The capabilities being resolved on the active path, and the components of those already resolved. A
capability met again on its own path closes a cycle.
-/

namespace MiddlewareStack

/-- Components are numbered in the order in which they finish resolving. -/
abbrev ComponentId := Nat

structure ResolutionState where
  /-- The latest entry of a key counts. -/
  resolved : List (QualifiedName × ComponentId) := []
  /-- The path of capabilities in progress, outermost first. -/
  path : List QualifiedName := []
  deriving DecidableEq, Repr

namespace ResolutionState

def cached? (s : ResolutionState) (key : QualifiedName) : Option ComponentId :=
  s.resolved.lookup key

def inProgress (s : ResolutionState) (key : QualifiedName) : Bool :=
  s.path.contains key

/-- Put a capability on the path. One that is there already closes a cycle, which starts with it. -/
def enter (s : ResolutionState) (key : QualifiedName) : Except CompileError ResolutionState :=
  if key ∈ s.path then
    .error (.cyclicDependency key (s.path.dropWhile (· ≠ key) ++ [key]))
  else .ok { s with path := s.path ++ [key] }

/-- Take the innermost mark of a capability off the path, however its resolution ended. -/
def leave (s : ResolutionState) (key : QualifiedName) : ResolutionState :=
  { s with path := (s.path.reverse.erase key).reverse }

theorem path_leave {s : ResolutionState} {path : List QualifiedName} {key : QualifiedName}
    (innermost : s.path = path ++ [key]) : (s.leave key).path = path := by
  simp [leave, innermost]

def remember (s : ResolutionState) (key : QualifiedName) (id : ComponentId) : ResolutionState :=
  { s with resolved := (key, id) :: s.resolved }

end ResolutionState

end MiddlewareStack
