import MiddlewareStack.Source.ModuleIndex
import MiddlewareStack.Source.Spacing
import MiddlewareStack.Symbols.TypeRef

/-!
# What written types refer to

References keep whether they may change their target, and the arguments of a declaration of the file
are resolved as well. Of a list of bounds the first trait counts. A type of any other shape stays as
it is written.
-/

namespace MiddlewareStack.Source

namespace PathExpr

def names (p : PathExpr) : List String :=
  p.segments.map Segment.name

/-- The arguments of the last segment. -/
def arguments (p : PathExpr) : Arguments :=
  (p.segments.getLast?.map Segment.arguments).getD .none

end PathExpr

/-- The declaration that some segments from the top level lead to. -/
def declarationAt? (segments : List String) : Option QualifiedName :=
  match segments.reverse with
  | name :: package =>
    if package.isEmpty then none else some ⟨Text.pathText package.reverse, name⟩
  | [] => none

/-- A declaration of the file with the arguments it is given. Without any it stands alone. -/
def appliedTo (base : QualifiedName) : List TypeRef → TypeRef
  | [] => .declared base
  | args => .generic base args

/-- Something from elsewhere, whose arguments are kept as written. -/
def externalTo (segments : List String) : Arguments → TypeRef
  | .none => .external (Text.pathText segments)
  | arguments => .external (Text.pathText segments ++ written arguments.tokens)

namespace ModuleIndex

/-- Where a path leads. One that is rooted outside the file leads elsewhere. -/
def target (index : ModuleIndex) (package : String) (path : PathExpr) : Expanded :=
  if path.rooted then .elsewhere path.names else index.expand package path.names

/-- The reference of a path with resolved arguments, of which there are none in the form that
function traits have. -/
def reference (index : ModuleIndex) (package : String) (path : PathExpr)
    (arguments : Option (List TypeRef)) : TypeRef :=
  match index.target package path with
  | .elsewhere segments => externalTo segments path.arguments
  | .here segments =>
    match declarationAt? segments, arguments with
    | some base, some arguments => appliedTo base arguments
    | _, _ => .verbatim (written path.tokens)

mutual

/-- What a type refers to that is written in `package`. -/
def typeRef (index : ModuleIndex) (package : String) : TypeExpr → TypeRef
  | .reference _ mutable target => .ref mutable (index.typeRef package target)
  | .paren inner => index.typeRef package inner
  | .path path => index.pathRef package path
  | .traitObject marked bounds trailing =>
    match index.boundsRef package bounds with
    | some found => .dyn found
    | none => .verbatim (written (TypeExpr.traitObject marked bounds trailing).tokens)
  | .implTrait bounds trailing =>
    match index.boundsRef package bounds with
    | some found => .impl found
    | none => .verbatim (written (TypeExpr.implTrait bounds trailing).tokens)
  | .verbatim tokens => .verbatim (written tokens)

/-- What a path refers to that is written in `package`. -/
def pathRef (index : ModuleIndex) (package : String) : PathExpr → TypeRef
  | ⟨rooted, segments⟩ =>
    index.reference package ⟨rooted, segments⟩ (index.segmentsRefs package segments)

/-- What the first trait among some bounds refers to. -/
def boundsRef (index : ModuleIndex) (package : String) : List Bound → Option TypeRef
  | [] => none
  | .trait _ _ _ path :: _ => some (index.pathRef package path)
  | .lifetime _ :: rest => index.boundsRef package rest
  | .capture _ :: rest => index.boundsRef package rest
  | .constant _ :: rest => index.boundsRef package rest

/-- The arguments of the last of some segments. -/
def segmentsRefs (index : ModuleIndex) (package : String) :
    List Segment → Option (List TypeRef)
  | [] => some []
  | ⟨_, arguments⟩ :: rest =>
    if rest.isEmpty then index.argumentsRefs package arguments
    else index.segmentsRefs package rest

def argumentsRefs (index : ModuleIndex) (package : String) :
    Arguments → Option (List TypeRef)
  | .none => some []
  | .angled _ arguments _ => some (index.argumentRefs package arguments)
  | .parenthesized _ => none

/-- Lifetimes do not count as arguments. -/
def argumentRefs (index : ModuleIndex) (package : String) : List Argument → List TypeRef
  | [] => []
  | .lifetime _ :: rest => index.argumentRefs package rest
  | .type type :: rest => index.typeRef package type :: index.argumentRefs package rest
  | .verbatim tokens :: rest => .verbatim (written tokens) :: index.argumentRefs package rest

end

end ModuleIndex

end MiddlewareStack.Source
