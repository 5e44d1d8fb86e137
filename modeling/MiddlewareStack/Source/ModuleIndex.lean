import MiddlewareStack.KeyedMap
import MiddlewareStack.Source.Item
import MiddlewareStack.Symbols.Name

/-!
# Modules of a file

Every inline module is a package, named by its path from the top level of the file. The index knows
what each module declares and imports, and expands written paths with it.
-/

namespace MiddlewareStack.Source

inductive ItemClass where
  | interface
  | concrete
  | module
  | other
  deriving DecidableEq, Repr, Inhabited

/-- The names that one module declares, and those it imports with the paths they stand for. -/
structure ModuleScope where
  items : KeyedMap ItemClass := .empty
  imports : KeyedMap (List String) := .empty
  deriving Inhabited

structure ModuleIndex where
  modules : KeyedMap ModuleScope := .empty
  deriving Inhabited

namespace ModuleScope

def declare (s : ModuleScope) (name : String) (itemClass : ItemClass) : ModuleScope :=
  { s with items := s.items.insert name itemClass }

def addImports (s : ModuleScope) (imports : List Import) : ModuleScope :=
  { s with imports := imports.foldl (fun m found => m.insert found.1 found.2) s.imports }

/-- Of two declarations or imports of one name the later counts. -/
def addItem (s : ModuleScope) : Item → ModuleScope
  | .interface name _ _ => s.declare name .interface
  | .concrete name => s.declare name .concrete
  | .synonym name => s.declare name .other
  | .module name _ => s.declare name .module
  | .distantModule name => s.declare name .module
  | .imports tree => s.addImports tree.imports
  | _ => s

def ofItems (items : List Item) : ModuleScope :=
  items.foldl addItem {}

end ModuleScope

/-- The package of a module inside another package. -/
def subpackage (package name : String) : String :=
  package ++ "::" ++ name

mutual

/-- Add the modules among some items of a package, and those inside them. -/
def addModules (package : String) : List Item → KeyedMap ModuleScope → KeyedMap ModuleScope
  | [], modules => modules
  | first :: rest, modules => addModules package rest (addModule package first modules)

def addModule (package : String) : Item → KeyedMap ModuleScope → KeyedMap ModuleScope
  | .module name items, modules =>
    (addModules (subpackage package name) items modules).insert (subpackage package name)
      (ModuleScope.ofItems items)
  | _, modules => modules

end

/-- What a path leads to: a place in the file, as segments from its top level, or something
elsewhere. -/
inductive Expanded where
  | here (segments : List String)
  | elsewhere (segments : List String)
  deriving DecidableEq, Repr

/-- The longest chain of imports that is followed. -/
def maxImports : Nat := 16

namespace ModuleIndex

def ofItems (items : List Item) : ModuleIndex :=
  let below := addModules rootPackage items .empty
  { modules := below.insert rootPackage (ModuleScope.ofItems items) }

def packages (index : ModuleIndex) : List String :=
  index.modules.keys

def classOf? (index : ModuleIndex) (name : QualifiedName) : Option ItemClass :=
  (index.modules.find? name.package).bind (·.items.find? name.name)

/-- A path that starts with `super`, once for each level up. A path cannot lead above the top
level. -/
def expandSuper (home segments : List String) : Expanded :=
  let ups := (segments.takeWhile (· == "super")).length
  if ups ≥ home.length then .elsewhere segments
  else .here (home.take (home.length - ups) ++ segments.drop ups)

/-- Where a path leads that is written in `package`. An import of a name as itself is not followed,
and `limit - 1` others are. -/
def expandWithin (index : ModuleIndex) (package : String) : Nat → List String → Expanded
  | _, [] => .elsewhere []
  | 0, segments => .elsewhere segments
  | limit + 1, first :: rest =>
    let home := Text.segments package
    if first = "crate" then .here (rootPackage :: rest)
    else if first = "self" then .here (home ++ rest)
    else if first = "super" then expandSuper home (first :: rest)
    else
      match index.modules.find? package with
      | none => .elsewhere (first :: rest)
      | some scope =>
        let declared : Expanded :=
          if scope.items.contains first then .here (home ++ first :: rest)
          else .elsewhere (first :: rest)
        match scope.imports.find? first with
        | some target =>
          if target.head? = some first then declared
          else index.expandWithin package limit (target ++ rest)
        | none => declared

def expand (index : ModuleIndex) (package : String) (segments : List String) : Expanded :=
  index.expandWithin package (maxImports + 1) segments

end ModuleIndex

end MiddlewareStack.Source
