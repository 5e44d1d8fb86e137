import MiddlewareStack.Json.Reader
import MiddlewareStack.Symbols.Table

/-!
# Tables from JSON

A record is an object, in which unknown fields are passed over and a known field may come once, or
the array of its fields in order. A field without a default has to be there.
-/

namespace MiddlewareStack

namespace Json

/-- The values of named fields, none where a field is missing. -/
def record? (names : List String) : Json → Option (List (Option Json))
  | .object fields =>
    if names.all fun name => (fields.filter (·.1 = name)).length ≤ 1 then
      some (names.map fun name => fields.lookup name)
    else none
  | .array items =>
    if items.length ≤ names.length then
      some (items.map some ++ List.replicate (names.length - items.length) none)
    else none
  | _ => none

/-- A field with a default for when it is missing. -/
def orDefault {α : Type} (read : Json → Option α) (default : α) : Option Json → Option α
  | none => some default
  | some value => read value

def list? {α : Type} (read : Json → Option α) (value : Json) : Option (List α) :=
  value.array?.bind (List.mapM read)

/-- A value that may be null. -/
def nullable? {α : Type} (read : Json → Option α) : Json → Option (Option α)
  | .null => some none
  | value => (read value).map some

/-- An object as a map. Of two fields of one name the later counts, but both are read. -/
def map? {α : Type} (read : Json → Option α) : Json → Option (KeyedMap α)
  | .object fields =>
    (fields.mapM fun (field : String × Json) => (read field.2).map fun v => (field.1, v)).map
      KeyedMap.ofList
  | _ => none

mutual

/-- The number of containers around the deepest value. -/
def depth : Json → Nat
  | .array items => itemsDepth items + 1
  | .object fields => fieldsDepth fields + 1
  | _ => 0

def itemsDepth : List Json → Nat
  | [] => 0
  | item :: rest => max (depth item) (itemsDepth rest)

def fieldsDepth : List (String × Json) → Nat
  | [] => 0
  | (_, value) :: rest => max (depth value) (fieldsDepth rest)

end

end Json

def QualifiedName.ofJson? (value : Json) : Option QualifiedName := do
  match ← value.record? ["package", "name"] with
  | [some package, some name] => return { package := ← package.string?, name := ← name.string? }
  | _ => none

/-- A word that stands alone, or as the only field of an object with nothing as its value. -/
def Json.word? : Json → Option String
  | .string word => some word
  | .object [(word, .null)] => some word
  | .object [(word, .object [])] => some word
  | _ => none

namespace TypeRef

/-- The kinds of references, in the order in which a number can stand for them. -/
def kinds : List String :=
  ["declared", "generic", "external", "ref", "dyn", "impl", "opaque"]

/-- What a kind has as its value, `read` reading the types inside. Values with several parts are
objects. -/
def ofTagged? (read : Json → Option TypeRef) (kind : String) (value : Json) : Option TypeRef := do
  match kind with
  | "declared" => return .declared (← QualifiedName.ofJson? value)
  | "generic" =>
    match ← (Json.object (← value.fields?)).record? ["base", "args"] with
    | [some base, some args] =>
      return .generic (← QualifiedName.ofJson? base) (← args.list? read)
    | _ => none
  | "external" => return .external (← value.string?)
  | "ref" =>
    match ← (Json.object (← value.fields?)).record? ["mutable", "inner"] with
    | [some mutable, some inner] => return .ref (← mutable.bool?) (← read inner)
    | _ => none
  | "dyn" => return .dyn (← read value)
  | "impl" => return .impl (← read value)
  | "opaque" => return .verbatim (← value.string?)
  | _ => none

/-- The kind and the value of a reference, which are its fields or the two items of an array. In an
array the kind is a word or a number. -/
def taggedParts? : Json → Option (String × Json)
  | .array [.string kind, value] => some (kind, value)
  | .array [.integer (.ofNat position), value] => kinds[position]?.map fun kind => (kind, value)
  | .object fields => do
    match ← (Json.object fields).record? ["kind", "value"] with
    | [some kind, some value] => return (← kind.word?, value)
    | _ => none
  | _ => none

/-- A reference whose value has at most `depth` levels. -/
def ofJsonWithin? : Nat → Json → Option TypeRef
  | 0, _ => none
  | depth + 1, value => do
    let (kind, content) ← taggedParts? value
    ofTagged? (ofJsonWithin? depth) kind content

def ofJson? (value : Json) : Option TypeRef :=
  ofJsonWithin? (value.depth + 1) value

end TypeRef

def Receiver.ofWord? : String → Option Receiver
  | "none" => some .absent
  | "ref" => some .ref
  | "ref_mut" => some .refMut
  | "value" => some .value
  | _ => none

def Receiver.ofJson? (value : Json) : Option Receiver :=
  value.word?.bind Receiver.ofWord?

def Param.ofJson? (value : Json) : Option Param := do
  match ← value.record? ["name", "ty", "rendered"] with
  | [some name, some ty, rendered] =>
    return {
      name := ← name.string?
      ty := ← TypeRef.ofJson? ty
      rendered := ← Json.orDefault Json.string? "" rendered }
  | _ => none

def Method.ofJson? (value : Json) : Option Method := do
  match ← value.record? ["name", "receiver", "params", "output", "rendered"] with
  | [some name, receiver, params, output, rendered] =>
    return {
      name := ← name.string?
      receiver := ← Json.orDefault Receiver.ofJson? .ref receiver
      params := ← Json.orDefault (Json.list? Param.ofJson?) [] params
      output := ← Json.orDefault (Json.nullable? TypeRef.ofJson?) none output
      rendered := ← Json.orDefault Json.string? "" rendered }
  | _ => none

def Interface.ofJson? (value : Json) : Option Interface := do
  match ← value.record? ["embeds", "methods"] with
  | [embeds, methods] =>
    return {
      embeds := ← Json.orDefault (Json.list? TypeRef.ofJson?) [] embeds
      methods := ← Json.orDefault (Json.list? Method.ofJson?) [] methods }
  | _ => none

def ConcreteType.ofJson? (value : Json) : Option ConcreteType := do
  match ← value.record? ["methods"] with
  | [methods] => return { methods := ← Json.orDefault (Json.list? Method.ofJson?) [] methods }
  | _ => none

namespace Declaration

/-- The declaration of a kind. What is not a type or an interface has nothing more to read. -/
def ofTagged? (kind : String) (content : Json) : Option Declaration := do
  match kind with
  | "interface" => return .interface (← Interface.ofJson? content)
  | "type" => return .concrete (← ConcreteType.ofJson? content)
  | "other" => return .other
  | _ => none

/-- The kind stands beside the fields of the declaration, or at the front of the array of them. -/
def ofFields? : Json → Option Declaration
  | .object fields =>
    match fields.filter (·.1 = "kind") with
    | [(_, .string kind)] => ofTagged? kind (.object (fields.filter (·.1 ≠ "kind")))
    | _ => none
  | .array [.string "other"] => some .other
  | .array (.string "other" :: _) => none
  | .array (.string kind :: items) => ofTagged? kind (.array items)
  | _ => none

/-- A declaration, no part of which may be unreadable, whether it counts or not. -/
def ofJson? (value : Json) : Option Declaration :=
  if value.isReadable then ofFields? value else none

end Declaration

def Symbol.ofJson? (value : Json) : Option Symbol := do
  match ← value.record? ["name", "kind"] with
  | [some name, some kind] =>
    return { name := ← QualifiedName.ofJson? name, kind := ← Declaration.ofJson? kind }
  | _ => none

def Package.ofJson? (value : Json) : Option Package := do
  match ← value.record? ["path", "symbols"] with
  | [some path, symbols] =>
    return {
      path := ← path.string?
      symbols := ← Json.orDefault (Json.map? Symbol.ofJson?) .empty symbols }
  | _ => none

def Table.ofJson? (value : Json) : Option Table := do
  match ← value.record? ["packages"] with
  | [packages] =>
    return { packages := ← Json.orDefault (Json.map? Package.ofJson?) .empty packages }
  | _ => none

/-- The table that a manifest describes. -/
def Table.ofManifest? (text : String) : Option Table :=
  (Json.parse? text).bind Table.ofJson?

end MiddlewareStack
