import MiddlewareStack.Symbols.Method

/-!
# Declarations

An interface is a contract: the contracts it embeds and the methods it requires. A concrete type has
the methods declared on it, wherever they stand.
-/

namespace MiddlewareStack

structure Interface where
  embeds : List TypeRef := []
  methods : List Method := []
  deriving DecidableEq, Repr, Inhabited

namespace Interface

/-- The names of the table declarations among the embedded contracts, in order. -/
def declaredEmbeds (i : Interface) : List QualifiedName :=
  i.embeds.filterMap fun
    | .declared name => some name
    | _ => none

end Interface

structure ConcreteType where
  methods : List Method := []
  deriving DecidableEq, Repr, Inhabited

namespace ConcreteType

/-- The methods callable through a shared borrow, which is how a component is held. -/
def methodSet (t : ConcreteType) : List Method :=
  t.methods.filter (·.receiver = .ref)

/-- The first method of a name, however it takes its receiver. -/
def declared? (t : ConcreteType) (name : String) : Option Method :=
  t.methods.find? (·.name = name)

end ConcreteType

inductive Declaration where
  | interface (decl : Interface)
  | concrete (decl : ConcreteType)
  | other
  deriving DecidableEq, Repr, Inhabited

namespace Declaration

def interface? : Declaration → Option Interface
  | .interface decl => some decl
  | _ => none

def concrete? : Declaration → Option ConcreteType
  | .concrete decl => some decl
  | _ => none

end Declaration

end MiddlewareStack
