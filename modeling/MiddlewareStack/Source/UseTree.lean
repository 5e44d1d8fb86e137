import MiddlewareStack.Source.Copier

/-!
# Imports

A use tree brings names into scope, each standing for a path.
-/

namespace MiddlewareStack.Source

open TokenReader
open Copier

inductive UseTree where
  | path (name : String) (tree : UseTree)
  | name (name : String)
  | rename (name newName : String)
  | glob
  | group (trees : List UseTree)
  deriving Repr, Inhabited

/-- A name brought into scope, and the path it stands for. -/
abbrev Import := String × List String

/-- What a last name binds behind a path. Alone, `self` stands for the path before it. -/
def lastImport (before : List String) (name : String) : List Import :=
  if name = "self" then
    match before.getLast? with
    | some last => [(last, before)]
    | none => []
  else [(name, before ++ [name])]

/-- What a renamed import binds behind a path. An underscore binds nothing. -/
def renamedImport (before : List String) (name newName : String) : List Import :=
  if newName = "_" then []
  else if name = "self" then [(newName, before)]
  else [(newName, before ++ [name])]

mutual

/-- The names that a tree behind a path brings into scope, from left to right. -/
def UseTree.importsBehind (before : List String) : UseTree → List Import
  | .path name tree => tree.importsBehind (before ++ [name])
  | .name name => lastImport before name
  | .rename name newName => renamedImport before name newName
  | .glob => []
  | .group trees => importsOfAll before trees

def importsOfAll (before : List String) : List UseTree → List Import
  | [] => []
  | first :: rest => first.importsBehind before ++ importsOfAll before rest

end

/-- The names that a tree brings into scope. -/
def UseTree.imports (tree : UseTree) : List Import :=
  tree.importsBehind []

/-- A name in a tree, which may be one of the words that start paths. -/
def useName : TokenReader String := do
  require fun tokens =>
    Lookahead.name tokens || Lookahead.oneOf ["self", "super", "crate", "try"] tokens
  anyName

/-- What follows a name: a tree behind it, a new name, or nothing. -/
def useRest (tree : Copier (Option UseTree)) (name : String) : Copier (Option UseTree) := do
  if ← takeOperatorIf "::" then return (← tree).map (.path name)
  if ← takeWordIf "as" then return some (.rename name (← takeIdent nameOrUnderscore))
  return some (.name name)

/-- The trees of a group, none if one of them is rooted outside the file. -/
def useGroup (tree : Bool → Copier (Option UseTree)) (rootAllowed : Bool) :
    Copier (Option UseTree) := do
  let trees ← takeCommaSeparated do
    let rooted ← if rootAllowed then takeOperatorIf "::" else pure false
    let tree ← tree (rootAllowed && !rooted)
    return if rooted then none else tree
  return (trees.mapM id).map .group

/-- A tree of at most `depth` levels. It is none if a part of it is rooted outside the file, which
is only read where `rootAllowed`. -/
def useTreeWithin : Nat → Bool → Copier (Option UseTree)
  | 0, _ => failure
  | depth + 1, rootAllowed => do
    let tokens ← remaining
    if Lookahead.operator "*" tokens then
      takeOperator "*"
      return some .glob
    else if Lookahead.group .brace tokens then
      takeInside .brace (useGroup (useTreeWithin depth) rootAllowed)
    else useRest (useTreeWithin depth false) (← takeIdent useName)

/-- The tree of an import up to its semicolon. -/
def useTree : Copier (Option UseTree) := do
  takeWord "use"
  let rooted ← takeOperatorIf "::"
  let depth := Token.countAll (← remaining) + 1
  let tree ← useTreeWithin depth !rooted
  takeOperator ";"
  return tree

end MiddlewareStack.Source
