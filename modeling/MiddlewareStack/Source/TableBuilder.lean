import MiddlewareStack.Source.Declarations

/-!
# Building the table of a file

One walk over the items of a file declares contracts and synonyms where they stand, keeps types for
the end, and collects the methods of implementations under the names that these are for. At the end
each type is declared with what was collected for it.
-/

namespace MiddlewareStack.Source

/-- What a walk over a file has found so far. -/
structure TableBuilder where
  table : Table
  types : List QualifiedName := []
  collected : List (QualifiedName × List Method) := []

/-- Put methods behind those that are collected for a name. -/
def collectFor (target : QualifiedName) (methods : List Method) :
    List (QualifiedName × List Method) → List (QualifiedName × List Method)
  | [] => [(target, methods)]
  | (name, found) :: rest =>
    if name = target then (name, found ++ methods) :: rest
    else (name, found) :: collectFor target methods rest

namespace TableBuilder

/-- Nothing is declared yet, and every module has its package. -/
def start (index : ModuleIndex) : TableBuilder :=
  { table := index.packages.foldl Table.openPackage .empty }

def declare (b : TableBuilder) (name : QualifiedName) (kind : Declaration) : TableBuilder :=
  { b with table := b.table.insert name kind }

/-- The methods of a type from elsewhere are left out. -/
def collect (b : TableBuilder) (target? : Option QualifiedName) (methods : List Method) :
    TableBuilder :=
  match target? with
  | some target => { b with collected := collectFor target methods b.collected }
  | none => b

/-- Add what an item says, apart from those inside it. -/
def add (index : ModuleIndex) (package : String) (b : TableBuilder) : Item → TableBuilder
  | .interface name bounds methods => b.declare ⟨package, name⟩ (.interface {
      embeds := bounds.filterMap (embedded? index package)
      methods := methods.map (Signature.method index package) })
  | .concrete name => { b with types := b.types ++ [⟨package, name⟩] }
  | .synonym name => b.declare ⟨package, name⟩ .other
  | .implementation type methods =>
    b.collect (declarationOf? (index.typeRef package type))
      (methods.map (Signature.method index package))
  | _ => b

mutual

/-- Add what the items of a package say, and those of the modules inside it. -/
def visitAll (index : ModuleIndex) (package : String) : List Item → TableBuilder → TableBuilder
  | [], b => b
  | first :: rest, b => visitAll index package rest (visit index package first b)

def visit (index : ModuleIndex) (package : String) : Item → TableBuilder → TableBuilder
  | .module name items, b => visitAll index (subpackage package name) items b
  | item, b => b.add index package item

end

/-- Declare the types, each with the methods that are collected for it. Those of a name that is no
type are dropped. -/
def finish (b : TableBuilder) : Table :=
  let declareType (t : Table) (name : QualifiedName) : Table :=
    t.insert name (.concrete { methods := (b.collected.lookup name).getD [] })
  b.types.foldl declareType b.table

end TableBuilder

/-- The table that the items of a file declare. -/
def buildTable (items : List Item) : Table :=
  let index := ModuleIndex.ofItems items
  (TableBuilder.visitAll index rootPackage items (.start index)).finish

end MiddlewareStack.Source

namespace MiddlewareStack

/-- The table that a source text declares. -/
def Table.ofSource? (text : String) : Option Table :=
  (Source.parse? text).map Source.buildTable

end MiddlewareStack
