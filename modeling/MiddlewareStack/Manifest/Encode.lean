import MiddlewareStack.Json
import MiddlewareStack.Symbols.Table

/-!
# Tables as JSON

Every field is written, in the order of its declaration. A type reference and a declaration name
their kind in a field of its own.
-/

namespace MiddlewareStack

def QualifiedName.toJson (q : QualifiedName) : Json :=
  .object [("package", .string q.package), ("name", .string q.name)]

namespace TypeRef

/-- A kind with what belongs to it. -/
def tagged (kind : String) (value : Json) : Json :=
  .object [("kind", .string kind), ("value", value)]

mutual

def toJson : TypeRef → Json
  | .declared name => tagged "declared" name.toJson
  | .generic base args =>
    tagged "generic" (.object [("base", base.toJson), ("args", .array (toJsons args))])
  | .external path => tagged "external" (.string path)
  | .ref mutable inner =>
    tagged "ref" (.object [("mutable", .bool mutable), ("inner", toJson inner)])
  | .dyn inner => tagged "dyn" (toJson inner)
  | .impl inner => tagged "impl" (toJson inner)
  | .verbatim text => tagged "opaque" (.string text)

def toJsons : List TypeRef → List Json
  | [] => []
  | ty :: rest => toJson ty :: toJsons rest

end

end TypeRef

def Receiver.word : Receiver → String
  | .absent => "none"
  | .ref => "ref"
  | .refMut => "ref_mut"
  | .value => "value"

def Param.toJson (p : Param) : Json :=
  .object [("name", .string p.name), ("ty", p.ty.toJson), ("rendered", .string p.rendered)]

def Method.toJson (m : Method) : Json :=
  .object [
    ("name", .string m.name),
    ("receiver", .string m.receiver.word),
    ("params", .array (m.params.map Param.toJson)),
    ("output", .ofOption TypeRef.toJson m.output),
    ("rendered", .string m.rendered)]

def Interface.jsonFields (i : Interface) : List (String × Json) :=
  [("embeds", .array (i.embeds.map TypeRef.toJson)),
   ("methods", .array (i.methods.map Method.toJson))]

def Interface.toJson (i : Interface) : Json :=
  .object i.jsonFields

def ConcreteType.jsonFields (t : ConcreteType) : List (String × Json) :=
  [("methods", .array (t.methods.map Method.toJson))]

def ConcreteType.toJson (t : ConcreteType) : Json :=
  .object t.jsonFields

def Declaration.toJson : Declaration → Json
  | .interface decl => .object (("kind", .string "interface") :: decl.jsonFields)
  | .concrete decl => .object (("kind", .string "type") :: decl.jsonFields)
  | .other => .object [("kind", .string "other")]

def Symbol.toJson (s : Symbol) : Json :=
  .object [("name", s.name.toJson), ("kind", s.kind.toJson)]

def KeyedMap.toJson {α : Type} (write : α → Json) (m : KeyedMap α) : Json :=
  .object (m.entries.map fun (key, value) => (key, write value))

def Package.toJson (p : Package) : Json :=
  .object [("path", .string p.path), ("symbols", p.symbols.toJson Symbol.toJson)]

def Table.toJson (t : Table) : Json :=
  .object [("packages", t.packages.toJson Package.toJson)]

end MiddlewareStack
