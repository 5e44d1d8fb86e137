import MiddlewareStack.Text.Separated

/-!
# Qualified names

A declaration is identified by the package it stands in and its own name. The written form joins the
two with `::`; reading takes the last separator.
-/

namespace MiddlewareStack

/-- The package of a file's top level. -/
def rootPackage : String := "self"

structure QualifiedName where
  package : String
  name : String
  deriving DecidableEq, Repr, Inhabited

namespace QualifiedName

def text (q : QualifiedName) : String :=
  q.package ++ "::" ++ q.name

/-- Another declaration of the same package. -/
def sibling (q : QualifiedName) (name : String) : QualifiedName :=
  { q with name }

/-- Read a written name. Both parts have to be there. -/
def parse? (written : String) : Option QualifiedName :=
  match Text.splitLast written.toList with
  | some (package, name) =>
    if package.isEmpty || name.isEmpty then none
    else some ⟨String.ofList package, String.ofList name⟩
  | none => none

/-- Packages are compared first, then names. -/
def compare (a b : QualifiedName) : Ordering :=
  (Ord.compare a.package b.package).then (Ord.compare a.name b.name)

end QualifiedName

end MiddlewareStack
