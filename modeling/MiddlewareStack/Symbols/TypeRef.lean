import MiddlewareStack.Symbols.Name

/-!
# References to types

A type as a signature or a list of embedded contracts names it. Equality is structural: `&T`, `&mut
T` and `T` differ, and so do two applications of one declaration to different arguments. Lifetimes
are not recorded.
-/

namespace MiddlewareStack

inductive TypeRef where
  /-- A declaration of the table. -/
  | declared (name : QualifiedName)
  /-- A declaration of the table applied to arguments. -/
  | generic (base : QualifiedName) (args : List TypeRef)
  /-- A nominal type from outside the table: its expanded path and its arguments as written. -/
  | external (path : String)
  /-- A borrow. -/
  | ref (mutable : Bool) (inner : TypeRef)
  /-- A trait object. -/
  | dyn (inner : TypeRef)
  /-- A type known by the contract it satisfies. -/
  | impl (inner : TypeRef)
  /-- Any other type, as written. -/
  | verbatim (text : String)
  deriving Repr, Inhabited

namespace TypeRef

mutual

/-- Structural equality. -/
def same : TypeRef → TypeRef → Bool
  | .declared a, .declared b => a == b
  | .generic a as, .generic b bs => a == b && sameAll as bs
  | .external a, .external b => a == b
  | .ref m a, .ref n b => m == n && same a b
  | .dyn a, .dyn b => same a b
  | .impl a, .impl b => same a b
  | .verbatim a, .verbatim b => a == b
  | _, _ => false

def sameAll : List TypeRef → List TypeRef → Bool
  | [], [] => true
  | a :: as, b :: bs => same a b && sameAll as bs
  | _, _ => false

end

mutual

theorem same_iff : ∀ a b : TypeRef, same a b = true ↔ a = b
  | .declared a, b => by cases b <;> simp [same]
  | .generic a as, b => by cases b <;> simp [same, sameAll_iff]
  | .external a, b => by cases b <;> simp [same]
  | .ref m a, b => by cases b <;> simp [same, same_iff]
  | .dyn a, b => by cases b <;> simp [same, same_iff]
  | .impl a, b => by cases b <;> simp [same, same_iff]
  | .verbatim a, b => by cases b <;> simp [same]

theorem sameAll_iff : ∀ as bs : List TypeRef, sameAll as bs = true ↔ as = bs
  | [], bs => by cases bs <;> simp [sameAll]
  | a :: as, bs => by cases bs <;> simp [sameAll, same_iff, sameAll_iff]

end

instance : DecidableEq TypeRef := fun a b =>
  decidable_of_iff (same a b = true) (same_iff a b)

/-- The type with borrows, `dyn` and `impl` looked through, where only the named contract counts. -/
def nominal : TypeRef → TypeRef
  | .ref _ inner => inner.nominal
  | .dyn inner => inner.nominal
  | .impl inner => inner.nominal
  | other => other

/-- The nominal path without arguments. Borrows and trait objects have none of their own. -/
def path? : TypeRef → Option String
  | .declared name => some name.text
  | .generic base _ => some base.text
  | .external path => some (String.ofList (path.toList.takeWhile (· != '<')))
  | _ => none

mutual

/-- The written form. -/
def text : TypeRef → String
  | .declared name => name.text
  | .generic base args => base.text ++ "<" ++ ", ".intercalate (texts args) ++ ">"
  | .external path => path
  | .ref false inner => "&" ++ text inner
  | .ref true inner => "&mut " ++ text inner
  | .dyn inner => "dyn " ++ text inner
  | .impl inner => "impl " ++ text inner
  | .verbatim written => written

def texts : List TypeRef → List String
  | [] => []
  | first :: others => text first :: texts others

end

end TypeRef

end MiddlewareStack
