import MiddlewareStack.KeyedMap
import MiddlewareStack.Symbols.Declaration

/-!
# Symbol tables

A table maps package paths to packages, and a package maps names to symbols. Lookups go by these
keys alone; the path and the name recorded inside are carried along.
-/

namespace MiddlewareStack

structure Symbol where
  name : QualifiedName
  kind : Declaration
  deriving DecidableEq, Repr, Inhabited

structure Package where
  path : String
  symbols : KeyedMap Symbol := .empty
  deriving DecidableEq, Repr, Inhabited

structure Table where
  packages : KeyedMap Package := .empty
  deriving DecidableEq, Repr, Inhabited

namespace Table

def empty : Table := {}

def lookup (t : Table) (q : QualifiedName) : Option Declaration := do
  let package ← t.packages.find? q.package
  let symbol ← package.symbols.find? q.name
  return symbol.kind

def contains (t : Table) (q : QualifiedName) : Bool :=
  (t.lookup q).isSome

def interface? (t : Table) (q : QualifiedName) : Option Interface :=
  (t.lookup q).bind Declaration.interface?

def concrete? (t : Table) (q : QualifiedName) : Option ConcreteType :=
  (t.lookup q).bind Declaration.concrete?

/-- The packages a scope stands for; one is expected. -/
def packagesMatching (t : Table) (scope : String) : List String :=
  t.packages.keys.filter (· = scope)

/-- The package of a path, empty if the table has none. -/
def packageAt (t : Table) (path : String) : Package :=
  (t.packages.find? path).getD { path }

/-- Make sure that a package is there. -/
def openPackage (t : Table) (path : String) : Table :=
  { packages := t.packages.insert path (t.packageAt path) }

def insert (t : Table) (q : QualifiedName) (kind : Declaration) : Table :=
  let package := t.packageAt q.package
  let symbols := package.symbols.insert q.name { name := q, kind }
  { packages := t.packages.insert q.package { package with symbols } }

/-- The number of symbols, a bound for chains of distinct declarations. -/
def symbolCount (t : Table) : Nat :=
  t.packages.values.foldl (fun count package => count + package.symbols.size) 0

end Table

end MiddlewareStack
