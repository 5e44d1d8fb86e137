import MiddlewareStack.Symbols.TypeRef

/-!
# Failures of a compile

Every failure ends the whole compile. `message` is the wording of each.
-/

namespace MiddlewareStack

/-- What is wrong with the signature of an invocation method. -/
inductive SignatureFault where
  | arity
  | request (expected : String) (actual : TypeRef)
  | bundle (actual : TypeRef)
  deriving DecidableEq, Repr

def SignatureFault.message : SignatureFault → String
  | .arity => "method should have one or two params"
  | .request expected actual =>
    "should accept a &" ++ expected ++ " as its first argument, got " ++ actual.text
  | .bundle actual =>
    "second argument should be a middleware interface stack, got " ++ actual.text

inductive CompileError where
  | symbolNotFound (name : QualifiedName)
  | notAnInterface (name : QualifiedName)
  | implementationNotFound (capability implementation : QualifiedName)
  | implementationIncomplete (capability implementation : QualifiedName) (method : String)
  | implementationMismatched (capability implementation : QualifiedName) (method : String)
  | noInvocationMethod (implementation : QualifiedName) (method : String)
  | invalidSignature (implementation : QualifiedName) (method : String) (fault : SignatureFault)
  | cyclicDependency (capability : QualifiedName) (chain : List QualifiedName)
  | duplicatePackageLoad (scope : String) (found : Nat)
  deriving DecidableEq, Repr

namespace CompileError

def message : CompileError → String
  | .symbolNotFound name => "could not find " ++ name.name ++ " in package " ++ name.package
  | .notAnInterface name => name.text ++ " is not an interface"
  | .implementationNotFound capability implementation =>
    "could not find " ++ implementation.text ++ " to implement " ++ capability.text
  | .implementationIncomplete capability implementation method =>
    implementation.text ++ " should implement " ++ capability.text ++ ", but was missing " ++ method
  | .implementationMismatched capability implementation method =>
    implementation.text ++ " should implement " ++ capability.text ++
      ", but had wrong signature for " ++ method
  | .noInvocationMethod implementation method =>
    implementation.text ++ " had no " ++ method ++ "() method"
  | .invalidSignature implementation method fault =>
    implementation.text ++ "'s " ++ method ++ "() " ++ fault.message
  | .cyclicDependency capability chain =>
    "cycle detected rooted at " ++ capability.text ++
      " (" ++ " → ".intercalate (chain.map QualifiedName.text) ++ ")"
  | .duplicatePackageLoad scope found =>
    "package specifier '" ++ scope ++ "' loaded " ++ toString found ++
      " packages, expected exactly one"

/-- The capability at which a cycle closes. -/
def cycleCapability? : CompileError → Option QualifiedName
  | .cyclicDependency capability _ => some capability
  | _ => none

end CompileError

end MiddlewareStack
