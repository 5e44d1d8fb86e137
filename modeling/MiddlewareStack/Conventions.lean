/-!
# Naming conventions

What links a capability to the type that implements it.
-/

namespace MiddlewareStack

structure Conventions where
  /-- Appended to the name of a capability to get the name of its implementation. -/
  implementationSuffix : String := "Middleware"
  /-- The method that runs a component. -/
  invocationMethod : String := "run"
  /-- The nominal path of what that method takes first. -/
  requestType : String := "http::Request"
  deriving DecidableEq, Repr, Inhabited

namespace Conventions

def implementationName (c : Conventions) (capability : String) : String :=
  capability ++ c.implementationSuffix

end Conventions

end MiddlewareStack
