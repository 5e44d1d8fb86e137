import MiddlewareStack.Source.Signature
import MiddlewareStack.Source.UseTree

/-!
# Items of source text

The items that declare something, import something or add methods to a type, with the methods that
count. All others are alike.
-/

namespace MiddlewareStack.Source

inductive Item where
  | interface (name : String) (embeds : List Bound) (methods : List Signature)
  /-- A structure, an enumeration or a union. -/
  | concrete (name : String)
  /-- Another name for a type. -/
  | synonym (name : String)
  /-- Methods of a type. -/
  | implementation (type : TypeExpr) (methods : List Signature)
  | module (name : String) (items : List Item)
  /-- A module whose items are elsewhere. -/
  | distantModule (name : String)
  | imports (tree : UseTree)
  | other

end MiddlewareStack.Source
