import MiddlewareStack.Source.Grammar
import MiddlewareStack.Source.Reference
import MiddlewareStack.Symbols.Table

/-!
# Declarations of a file

Interfaces become contracts that embed their bounds. Structures, enumerations and unions become
types with the methods of every implementation in the file, wherever it stands. `symbols` lists what
a file declares in this sense; the table is built in one walk instead, to the same result
(`buildTable_eq`).
-/

namespace MiddlewareStack.Source

namespace Input

/-- The name of an input, which stands at a position. A pattern that does not bind the whole input
is given a name of its own. -/
def nameAt (position : Nat) (pattern : Pattern) : String :=
  pattern.name?.getD ("arg" ++ toString position)

/-- The input with its name as pattern. -/
def namedAt (position : Nat) : Input → Input
  | .typed attributes pattern type =>
    let name := nameAt position pattern
    .typed attributes { name? := some name, tokens := [.ident name] } type
  | other => other

/-- The parameter that an input declares. A receiver declares none. -/
def paramAt? (index : ModuleIndex) (package : String) (position : Nat) : Input → Option Param
  | .receiver .. => none
  | .typed _ pattern type => some {
      name := nameAt position pattern
      ty := index.typeRef package type
      rendered := written type.tokens }

/-- How a method takes the value it is called on. -/
def receiverKind : Input → Receiver
  | .receiver _ (some _) mutable _ => if mutable then .refMut else .ref
  | .receiver _ none _ (some (.reference _ mutable _)) => if mutable then .refMut else .ref
  | .receiver .. => .value
  | .typed .. => .absent

end Input

namespace Signature

/-- The signature with a name for every input. -/
def named (s : Signature) : Signature :=
  { s with inputs := s.inputs.mapIdx Input.namedAt }

/-- The method that a signature in `package` declares. -/
def method (index : ModuleIndex) (package : String) (s : Signature) : Method where
  name := s.name
  receiver := (s.receiver?.map Input.receiverKind).getD .absent
  params := (s.inputs.mapIdx (Input.paramAt? index package)).filterMap id
  output := s.output.map (index.typeRef package)
  rendered := written s.named.tokens

end Signature

mutual

/-- The items of a package and of the modules inside it, each with its package. -/
def placedItems (package : String) : List Item → List (String × Item)
  | [] => []
  | first :: rest => placedItem package first ++ placedItems package rest

def placedItem (package : String) : Item → List (String × Item)
  | .module name items => placedItems (subpackage package name) items
  | item => [(package, item)]

end

/-- The contract that an interface embeds by a bound. Lifetimes and relaxed bounds embed nothing. -/
def embedded? (index : ModuleIndex) (package : String) : Bound → Option TypeRef
  | .trait _ false _ path => some (index.pathRef package path)
  | _ => none

/-- The symbol of an item that is no type. -/
def symbolOf? (index : ModuleIndex) : String × Item → Option (QualifiedName × Declaration)
  | (package, .interface name bounds methods) => some (⟨package, name⟩, .interface {
      embeds := bounds.filterMap (embedded? index package)
      methods := methods.map (Signature.method index package) })
  | (package, .synonym name) => some (⟨package, name⟩, .other)
  | _ => none

def typeName? : String × Item → Option QualifiedName
  | (package, .concrete name) => some ⟨package, name⟩
  | _ => none

/-- The declaration that a reference names, with arguments or without. -/
def declarationOf? : TypeRef → Option QualifiedName
  | .declared name => some name
  | .generic base _ => some base
  | _ => none

/-- The methods that an item adds to a type. -/
def methodsFor (index : ModuleIndex) (target : QualifiedName) : String × Item → List Method
  | (package, .implementation type methods) =>
    if declarationOf? (index.typeRef package type) = some target then
      methods.map (Signature.method index package)
    else []
  | _ => []

/-- The symbol of a type, with its methods in the order of the file. -/
def typeSymbol (index : ModuleIndex) (items : List (String × Item)) (name : QualifiedName) :
    QualifiedName × Declaration :=
  (name, .concrete { methods := items.flatMap (methodsFor index name) })

/-- The symbols of a file. Of two of one name the later counts. -/
def symbols (index : ModuleIndex) (items : List Item) : List (QualifiedName × Declaration) :=
  let items := placedItems rootPackage items
  items.filterMap (symbolOf? index) ++ (items.filterMap typeName?).map (typeSymbol index items)

/-- The table of a file, with a package for every module. -/
def tableOf (items : List Item) : Table :=
  let index := ModuleIndex.ofItems items
  (symbols index items).foldl (fun t symbol => t.insert symbol.1 symbol.2)
    (index.packages.foldl Table.openPackage .empty)

end MiddlewareStack.Source
