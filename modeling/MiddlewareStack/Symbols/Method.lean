import MiddlewareStack.Symbols.TypeRef

/-!
# Method signatures

What a method takes and gives. Two signatures agree when a call through one is a call through the
other: parameter names and recorded source text play no part.
-/

namespace MiddlewareStack

/-- How a method takes the value it is called on. -/
inductive Receiver where
  | absent
  | ref
  | refMut
  | value
  deriving DecidableEq, Repr, Inhabited

structure Param where
  name : String
  ty : TypeRef
  /-- The type as written, empty when unknown. -/
  rendered : String := ""
  deriving DecidableEq, Repr, Inhabited

/-- A declared method. The receiver is not one of the parameters. -/
structure Method where
  name : String
  receiver : Receiver := .ref
  params : List Param := []
  output : Option TypeRef := none
  /-- The signature as written, empty when unknown. -/
  rendered : String := ""
  deriving DecidableEq, Repr, Inhabited

namespace Method

def paramTypes (m : Method) : List TypeRef :=
  m.params.map Param.ty

/-- The parameter names, in order. -/
def argNames (m : Method) : List String :=
  m.params.map Param.name

/-- The agreement that satisfies a contract. -/
def SameSignature (a b : Method) : Prop :=
  a.name = b.name ∧ a.receiver = b.receiver ∧ a.output = b.output ∧ a.paramTypes = b.paramTypes

instance (a b : Method) : Decidable (SameSignature a b) := by
  unfold SameSignature; infer_instance

end Method

end MiddlewareStack
