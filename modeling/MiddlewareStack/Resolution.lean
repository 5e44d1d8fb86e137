import MiddlewareStack.CompileError
import MiddlewareStack.Contract
import MiddlewareStack.Conventions

/-!
# Resolution of one capability

A capability is bound to the sibling type that the conventions name, once that type satisfies the
contract and has a usable invocation method. Dependencies are not followed here.
-/

namespace MiddlewareStack

/-- A capability bound to its implementation. -/
structure Resolution where
  capability : QualifiedName
  implementation : QualifiedName
  invocation : Method
  /-- The contract that the second invocation argument has, if there is one. -/
  bundle : Option QualifiedName
  deriving DecidableEq, Repr

namespace Table

/-- The contract of a name, which has to be an interface. -/
def contract (t : Table) (name : QualifiedName) : Except CompileError Interface :=
  match t.lookup name with
  | none => .error (.symbolNotFound name)
  | some (.interface decl) => .ok decl
  | some _ => .error (.notAnInterface name)

end Table

/-- Every step borrows the same request, so only a shared borrow of it will do. -/
def BorrowsRequest (requestType : String) : TypeRef → Prop
  | .ref false inner => inner.path? = some requestType
  | _ => False

instance (requestType : String) (ty : TypeRef) : Decidable (BorrowsRequest requestType ty) := by
  unfold BorrowsRequest; split <;> infer_instance

/-- The contract that a second argument stands for, references and trait objects looked through. -/
def bundleOf (t : Table) (ty : TypeRef) : Except SignatureFault QualifiedName :=
  match ty.nominal with
  | .declared name =>
    if (t.interface? name).isSome then .ok name else .error (.bundle (.declared name))
  | other => .error (.bundle other)

/-- The dependency contract of an invocation method, whose shape is checked. -/
def invocationBundle (t : Table) (requestType : String) (invocation : Method) :
    Except SignatureFault (Option QualifiedName) :=
  match invocation.params with
  | [request] =>
    if BorrowsRequest requestType request.ty then .ok none
    else .error (.request requestType request.ty)
  | [request, deps] =>
    if BorrowsRequest requestType request.ty then (bundleOf t deps.ty).map some
    else .error (.request requestType request.ty)
  | _ => .error .arity

/-- The implementation that the conventions name for a capability. -/
def Conventions.implementationOf (c : Conventions) (capability : QualifiedName) : QualifiedName :=
  capability.sibling (c.implementationName capability.name)

namespace Table

def requireSatisfied (t : Table) (contract : Interface) (candidate : ConcreteType)
    (capability implementation : QualifiedName) : Except CompileError Unit :=
  match check t contract candidate with
  | .satisfied => .ok ()
  | .missingMethod method => .error (.implementationIncomplete capability implementation method)
  | .signatureMismatch method =>
    .error (.implementationMismatched capability implementation method)

def resolve (t : Table) (c : Conventions) (capability : QualifiedName) :
    Except CompileError Resolution := do
  let contract ← t.contract capability
  let implementation := c.implementationOf capability
  match t.concrete? implementation with
  | none => .error (.implementationNotFound capability implementation)
  | some candidate =>
    t.requireSatisfied contract candidate capability implementation
    match candidate.methodSet.find? (·.name = c.invocationMethod) with
    | none => .error (.noInvocationMethod implementation c.invocationMethod)
    | some invocation =>
      match invocationBundle t c.requestType invocation with
      | .error fault => .error (.invalidSignature implementation invocation.name fault)
      | .ok bundle => .ok { capability, implementation, invocation, bundle }

end Table

end MiddlewareStack
