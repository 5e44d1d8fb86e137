import MiddlewareStack.Source.CommaList

/-!
# Types in source text

The shapes that name declarations are told apart; any other type is kept as its tokens. `tokens`
writes a shape back.
-/

namespace MiddlewareStack.Source

mutual

inductive TypeExpr where
  | reference (lifetime : Option String) (mutable : Bool) (target : TypeExpr)
  | paren (inner : TypeExpr)
  | path (path : PathExpr)
  /-- A list of bounds, with or without `dyn` before it. -/
  | traitObject (marked : Bool) (bounds : List Bound) (trailing : Bool)
  | implTrait (bounds : List Bound) (trailing : Bool)
  | verbatim (tokens : List Token)

/-- A path of segments, which a leading separator roots outside the file. -/
structure PathExpr where
  rooted : Bool
  segments : List Segment

structure Segment where
  name : String
  arguments : Arguments

inductive Arguments where
  | none
  /-- Arguments between angle brackets, before which a separator may stand. -/
  | angled (separated : Bool) (arguments : List Argument) (trailing : Bool)
  /-- The arguments and the output of a function trait, as tokens. -/
  | parenthesized (tokens : List Token)

inductive Argument where
  | lifetime (name : String)
  | type (type : TypeExpr)
  | verbatim (tokens : List Token)

inductive Bound where
  /-- A trait. `maybe` is the question mark of a relaxed bound and `binder` what `for`
  introduces. -/
  | trait (parenthesized maybe : Bool) (binder : List Token) (path : PathExpr)
  | lifetime (name : String)
  /-- The list of what a type captures. -/
  | capture (tokens : List Token)
  /-- A trait that has to be implemented as `const`. -/
  | constant (tokens : List Token)

end

def Argument.isLifetime : Argument → Bool
  | .lifetime _ => true
  | _ => false

mutual

def TypeExpr.tokens : TypeExpr → List Token
  | .reference lifetime mutable target =>
    Token.operator "&" ++ (lifetime.map Token.lifetime).getD [] ++
      (if mutable then [.ident "mut"] else []) ++ target.tokens
  | .paren inner => [.group .parenthesis inner.tokens]
  | .path path => path.tokens
  | .traitObject marked bounds trailing =>
    (if marked then [.ident "dyn"] else []) ++
      separatedBy (Token.operator "+") trailing (boundTokens bounds)
  | .implTrait bounds trailing =>
    .ident "impl" :: separatedBy (Token.operator "+") trailing (boundTokens bounds)
  | .verbatim tokens => tokens

def PathExpr.tokens : PathExpr → List Token
  | ⟨rooted, segments⟩ =>
    (if rooted then Token.operator "::" else []) ++
      separatedBy (Token.operator "::") false (segmentTokens segments)

def segmentTokens : List Segment → List (List Token)
  | [] => []
  | ⟨name, arguments⟩ :: rest => (.ident name :: arguments.tokens) :: segmentTokens rest

def Arguments.tokens : Arguments → List Token
  | .none => []
  | .angled separated arguments trailing =>
    (if separated then Token.operator "::" else []) ++
      angleBrackets (lifetimesFirst trailing (argumentItems arguments))
  | .parenthesized tokens => tokens

def argumentItems : List Argument → List ListItem
  | [] => []
  | first :: rest => ⟨first.isLifetime, first.tokens⟩ :: argumentItems rest

def Argument.tokens : Argument → List Token
  | .lifetime name => Token.lifetime name
  | .type type => type.tokens
  | .verbatim tokens => tokens

def boundTokens : List Bound → List (List Token)
  | [] => []
  | first :: rest => first.tokens :: boundTokens rest

def Bound.tokens : Bound → List Token
  | .trait parenthesized maybe binder path =>
    let inner := (if maybe then Token.operator "?" else []) ++ binder ++ path.tokens
    if parenthesized then [.group .parenthesis inner] else inner
  | .lifetime name => Token.lifetime name
  | .capture tokens => tokens
  | .constant tokens => tokens

end

namespace Bound

/-- Whether a bound says what a type implements. -/
def namesTrait : Bound → Bool
  | .trait .. => true
  | .constant _ => true
  | _ => false

end Bound

end MiddlewareStack.Source
