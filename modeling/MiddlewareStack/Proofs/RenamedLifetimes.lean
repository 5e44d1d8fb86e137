import Mathlib.Logic.Function.Defs
import MiddlewareStack.Proofs.Names
import MiddlewareStack.Proofs.WrittenCharacters

/-!
# Types with other names for lifetimes

A lifetime is a name behind a quote, wherever in a type it stands: at a reference, among arguments,
in a list of bounds, or in what is kept as tokens. Nothing else changes when lifetimes are renamed
(`TypeExpr.rename_eq_self`), and longer names make a longer text (`TypeExpr.ink_rename`).
-/

namespace MiddlewareStack.Source

/-! ## Renaming -/

section Rename

variable (σ : String → String)

mutual

/-- The token with other names for lifetimes. `quoted` says whether a quote stands before it. -/
def Token.rename (quoted : Bool) : Token → Token
  | .ident name => .ident (if quoted then σ name else name)
  | .group d content => .group d (renameFrom false content)
  | .punct c joint => .punct c joint
  | .literal text => .literal text

def renameFrom (quoted : Bool) : List Token → List Token
  | [] => []
  | first :: rest => first.rename quoted :: renameFrom (first.isPunct '\'') rest

end

mutual

def TypeExpr.rename : TypeExpr → TypeExpr
  | .reference lifetime mutable target => .reference (lifetime.map σ) mutable target.rename
  | .paren inner => .paren inner.rename
  | .path path => .path path.rename
  | .traitObject marked bounds trailing => .traitObject marked (renameBounds bounds) trailing
  | .implTrait bounds trailing => .implTrait (renameBounds bounds) trailing
  | .verbatim tokens => .verbatim (renameFrom σ false tokens)

def PathExpr.rename : PathExpr → PathExpr
  | ⟨rooted, segments⟩ => ⟨rooted, renameSegments segments⟩

def renameSegments : List Segment → List Segment
  | [] => []
  | ⟨name, arguments⟩ :: rest => ⟨name, arguments.rename⟩ :: renameSegments rest

def Arguments.rename : Arguments → Arguments
  | .none => .none
  | .angled separated arguments trailing => .angled separated (renameArguments arguments) trailing
  | .parenthesized tokens => .parenthesized (renameFrom σ false tokens)

def renameArguments : List Argument → List Argument
  | [] => []
  | first :: rest => first.rename :: renameArguments rest

def Argument.rename : Argument → Argument
  | .lifetime name => .lifetime (σ name)
  | .type type => .type type.rename
  | .verbatim tokens => .verbatim (renameFrom σ false tokens)

def renameBounds : List Bound → List Bound
  | [] => []
  | first :: rest => first.rename :: renameBounds rest

def Bound.rename : Bound → Bound
  | .trait parenthesized maybe binder path =>
    .trait parenthesized maybe (renameFrom σ false binder) path.rename
  | .lifetime name => .lifetime (σ name)
  | .capture tokens => .capture (renameFrom σ false tokens)
  | .constant tokens => .constant (renameFrom σ false tokens)

end

end Rename

/-! ## The lifetimes in a type -/

mutual

/-- The lifetimes in a token, before which a quote stands if `quoted`. -/
def Token.lifetimes (quoted : Bool) : Token → List String
  | .ident name => if quoted then [name] else []
  | .group _ content => lifetimesFrom false content
  | .punct .. => []
  | .literal _ => []

def lifetimesFrom (quoted : Bool) : List Token → List String
  | [] => []
  | first :: rest => first.lifetimes quoted ++ lifetimesFrom (first.isPunct '\'') rest

end

mutual

def TypeExpr.lifetimes : TypeExpr → List String
  | .reference lifetime _ target => lifetime.toList ++ target.lifetimes
  | .paren inner => inner.lifetimes
  | .path path => path.lifetimes
  | .traitObject _ bounds _ => boundsLifetimes bounds
  | .implTrait bounds _ => boundsLifetimes bounds
  | .verbatim tokens => lifetimesFrom false tokens

def PathExpr.lifetimes : PathExpr → List String
  | ⟨_, segments⟩ => segmentsLifetimes segments

def segmentsLifetimes : List Segment → List String
  | [] => []
  | ⟨_, arguments⟩ :: rest => arguments.lifetimes ++ segmentsLifetimes rest

def Arguments.lifetimes : Arguments → List String
  | .none => []
  | .angled _ arguments _ => argumentsLifetimes arguments
  | .parenthesized tokens => lifetimesFrom false tokens

def argumentsLifetimes : List Argument → List String
  | [] => []
  | first :: rest => first.lifetimes ++ argumentsLifetimes rest

def Argument.lifetimes : Argument → List String
  | .lifetime name => [name]
  | .type type => type.lifetimes
  | .verbatim tokens => lifetimesFrom false tokens

def boundsLifetimes : List Bound → List String
  | [] => []
  | first :: rest => first.lifetimes ++ boundsLifetimes rest

def Bound.lifetimes : Bound → List String
  | .trait _ _ binder path => lifetimesFrom false binder ++ path.lifetimes
  | .lifetime name => [name]
  | .capture tokens => lifetimesFrom false tokens
  | .constant tokens => lifetimesFrom false tokens

end

variable {σ : String → String}

/-! ## Names that stay -/

mutual

theorem Token.rename_eq_self (quoted : Bool) : ∀ token : Token,
    (∀ name ∈ token.lifetimes quoted, σ name = name) → token.rename σ quoted = token
  | .ident name, h => by
    cases quoted with
    | false => simp [Token.rename]
    | true => simpa [Token.rename, Token.lifetimes] using h
  | .group d content, h => by
    rw [Token.lifetimes] at h
    rw [Token.rename, renameFrom_eq_self false content h]
  | .punct _ _, _ | .literal _, _ => by rw [Token.rename]

theorem renameFrom_eq_self (quoted : Bool) : ∀ tokens : List Token,
    (∀ name ∈ lifetimesFrom quoted tokens, σ name = name) → renameFrom σ quoted tokens = tokens
  | [], _ => by rw [renameFrom]
  | first :: rest, h => by
    rw [lifetimesFrom, List.forall_mem_append] at h
    rw [renameFrom, Token.rename_eq_self quoted first h.1, renameFrom_eq_self _ rest h.2]

end

mutual

/-- Renaming changes nothing but the lifetimes. -/
theorem TypeExpr.rename_eq_self : ∀ type : TypeExpr,
    (∀ name ∈ type.lifetimes, σ name = name) → type.rename σ = type
  | .reference lifetime mutable target, h => by
    rw [TypeExpr.lifetimes, List.forall_mem_append] at h
    have same : lifetime.map σ = lifetime := by
      cases lifetime with
      | none => rfl
      | some name => exact congrArg some (h.1 name (by simp))
    rw [TypeExpr.rename, same, TypeExpr.rename_eq_self target h.2]
  | .paren inner, h => by
    rw [TypeExpr.lifetimes] at h
    rw [TypeExpr.rename, TypeExpr.rename_eq_self inner h]
  | .path path, h => by
    rw [TypeExpr.lifetimes] at h
    rw [TypeExpr.rename, PathExpr.rename_eq_self path h]
  | .traitObject _ bounds _, h | .implTrait bounds _, h => by
    rw [TypeExpr.lifetimes] at h
    rw [TypeExpr.rename, renameBounds_eq_self bounds h]
  | .verbatim tokens, h => by
    rw [TypeExpr.lifetimes] at h
    rw [TypeExpr.rename, renameFrom_eq_self false tokens h]

theorem PathExpr.rename_eq_self : ∀ path : PathExpr,
    (∀ name ∈ path.lifetimes, σ name = name) → path.rename σ = path
  | ⟨rooted, segments⟩, h => by
    rw [PathExpr.lifetimes] at h
    rw [PathExpr.rename, renameSegments_eq_self segments h]

theorem renameSegments_eq_self : ∀ segments : List Segment,
    (∀ name ∈ segmentsLifetimes segments, σ name = name) → renameSegments σ segments = segments
  | [], _ => by rw [renameSegments]
  | ⟨name, arguments⟩ :: rest, h => by
    rw [segmentsLifetimes, List.forall_mem_append] at h
    rw [renameSegments, Arguments.rename_eq_self arguments h.1, renameSegments_eq_self rest h.2]

theorem Arguments.rename_eq_self : ∀ arguments : Arguments,
    (∀ name ∈ arguments.lifetimes, σ name = name) → arguments.rename σ = arguments
  | .none, _ => by rw [Arguments.rename]
  | .angled _ arguments _, h => by
    rw [Arguments.lifetimes] at h
    rw [Arguments.rename, renameArguments_eq_self arguments h]
  | .parenthesized tokens, h => by
    rw [Arguments.lifetimes] at h
    rw [Arguments.rename, renameFrom_eq_self false tokens h]

theorem renameArguments_eq_self : ∀ arguments : List Argument,
    (∀ name ∈ argumentsLifetimes arguments, σ name = name) → renameArguments σ arguments = arguments
  | [], _ => by rw [renameArguments]
  | first :: rest, h => by
    rw [argumentsLifetimes, List.forall_mem_append] at h
    rw [renameArguments, Argument.rename_eq_self first h.1, renameArguments_eq_self rest h.2]

theorem Argument.rename_eq_self : ∀ argument : Argument,
    (∀ name ∈ argument.lifetimes, σ name = name) → argument.rename σ = argument
  | .lifetime name, h => by
    rw [Argument.rename, h name (by simp [Argument.lifetimes])]
  | .type type, h => by
    rw [Argument.lifetimes] at h
    rw [Argument.rename, TypeExpr.rename_eq_self type h]
  | .verbatim tokens, h => by
    rw [Argument.lifetimes] at h
    rw [Argument.rename, renameFrom_eq_self false tokens h]

theorem renameBounds_eq_self : ∀ bounds : List Bound,
    (∀ name ∈ boundsLifetimes bounds, σ name = name) → renameBounds σ bounds = bounds
  | [], _ => by rw [renameBounds]
  | first :: rest, h => by
    rw [boundsLifetimes, List.forall_mem_append] at h
    rw [renameBounds, Bound.rename_eq_self first h.1, renameBounds_eq_self rest h.2]

theorem Bound.rename_eq_self : ∀ bound : Bound,
    (∀ name ∈ bound.lifetimes, σ name = name) → bound.rename σ = bound
  | .trait _ _ binder path, h => by
    rw [Bound.lifetimes, List.forall_mem_append] at h
    rw [Bound.rename, renameFrom_eq_self false binder h.1, PathExpr.rename_eq_self path h.2]
  | .lifetime name, h => by
    rw [Bound.rename, h name (by simp [Bound.lifetimes])]
  | .capture tokens, h | .constant tokens, h => by
    rw [Bound.lifetimes] at h
    rw [Bound.rename, renameFrom_eq_self false tokens h]

end

/-! ## Longer names -/

/-- Other names for names, no two of which become one. -/
structure IsRenaming (σ : String → String) : Prop where
  isName : ∀ name, IsName name → IsName (σ name)
  injective : Function.Injective σ

/-- A longer name, which differs from what any other name becomes. -/
def lengthened (name : String) : String :=
  name ++ "x"

theorem IsPlainName.concat {cs : List Char} {c : Char} (h : IsPlainName cs)
    (continues : isNameContinue c) : IsPlainName (cs ++ [c]) := by
  obtain ⟨first, rest, rfl, start, all⟩ := h
  refine ⟨first, rest ++ [c], rfl, start, ?_⟩
  exact List.forall_mem_append.mpr ⟨all, List.forall_mem_singleton.mpr continues⟩

theorem isRenaming_lengthened : IsRenaming lengthened where
  isName name h := by
    have letter : isNameContinue 'x' := by decide
    rw [isName_iff, HasNameShape, lengthened, String.toList_append]
    rcases isName_iff.mp h with plain | ⟨raw, plain, allowed, marked⟩
    · exact .inl (plain.concat letter)
    · refine .inr ⟨raw ++ ['x'], plain.concat letter, ?_, by rw [marked]; rfl⟩
      -- No name without a raw form ends in the added letter.
      intro member
      have last : ∀ word ∈ neverRaw, word.toList.getLast? ≠ some 'x' := by decide
      exact last _ member (by simp)
  injective := fun _ _ same => (String.append_left_inj "x").mp same

theorem ink_lengthened (name : String) :
    ink (lengthened name).toList = ink name.toList + 1 := by
  rw [lengthened, String.toList_append, ink_append]
  rfl

theorem inkOf_lifetime (name : String) :
    inkOf (Token.lifetime (lengthened name)) = inkOf (Token.lifetime name) + 1 := by
  simp [Token.lifetime, inkOf_cons, Token.chars, ink_lengthened, Nat.add_assoc]

/-! Renaming keeps the number of segments and bounds, and which arguments are lifetimes. -/

theorem emptied_segmentTokens (σ : String → String) (segments : List Segment) :
    ((segmentTokens (renameSegments σ segments)).map fun _ => ([] : List Token)) =
      (segmentTokens segments).map fun _ => [] := by
  induction segments with
  | nil => rw [renameSegments]
  | cons first rest ih =>
    cases first
    simp [renameSegments, segmentTokens, ih]

theorem emptied_boundTokens (σ : String → String) (bounds : List Bound) :
    ((boundTokens (renameBounds σ bounds)).map fun _ => ([] : List Token)) =
      (boundTokens bounds).map fun _ => [] := by
  induction bounds with
  | nil => rw [renameBounds]
  | cons first rest ih => simp [renameBounds, boundTokens, ih]

theorem emptied_argumentItems (σ : String → String) (arguments : List Argument) :
    (argumentItems (renameArguments σ arguments)).map ListItem.emptied =
      (argumentItems arguments).map ListItem.emptied := by
  induction arguments with
  | nil => rw [renameArguments]
  | cons first rest ih =>
    cases first <;>
      simp [renameArguments, argumentItems, ih, Argument.rename, Argument.isLifetime,
        ListItem.emptied]

mutual

theorem Token.ink_rename (quoted : Bool) : ∀ token : Token,
    ink (Token.chars (token.rename lengthened quoted)) =
      ink (Token.chars token) + (token.lifetimes quoted).length
  | .ident name => by
    cases quoted with
    | false => simp [Token.rename, Token.lifetimes]
    | true => simp [Token.rename, Token.lifetimes, Token.chars, ink_lengthened]
  | .group d content => by
    rw [Token.rename, ink_group, ink_group, inkOf_renameFrom false content, Token.lifetimes]
    omega
  | .punct _ _ | .literal _ => by simp [Token.rename, Token.lifetimes]

theorem inkOf_renameFrom (quoted : Bool) : ∀ tokens : List Token,
    inkOf (renameFrom lengthened quoted tokens) =
      inkOf tokens + (lifetimesFrom quoted tokens).length
  | [] => by simp [renameFrom, lifetimesFrom]
  | first :: rest => by
    rw [renameFrom, inkOf_cons, Token.ink_rename quoted first, inkOf_renameFrom _ rest, inkOf_cons,
      lifetimesFrom, List.length_append]
    omega

end

mutual

/-- A type is longer by a character for every lifetime in it, if all lifetimes are. -/
theorem TypeExpr.ink_rename : ∀ type : TypeExpr,
    inkOf (type.rename lengthened).tokens = inkOf type.tokens + type.lifetimes.length
  | .reference lifetime mutable target => by
    have name : inkOf (((lifetime.map lengthened).map Token.lifetime).getD []) =
        inkOf ((lifetime.map Token.lifetime).getD []) + lifetime.toList.length := by
      cases lifetime with
      | none => rfl
      | some name => exact inkOf_lifetime name
    rw [TypeExpr.rename, TypeExpr.tokens, TypeExpr.tokens, TypeExpr.lifetimes, List.length_append]
    simp only [inkOf_append, name, TypeExpr.ink_rename target]
    omega
  | .paren inner => by
    simp only [TypeExpr.rename, TypeExpr.tokens, TypeExpr.lifetimes, inkOf_cons, ink_group,
      TypeExpr.ink_rename inner, inkOf_nil]
    omega
  | .path path => by
    rw [TypeExpr.rename, TypeExpr.tokens, TypeExpr.tokens, TypeExpr.lifetimes,
      PathExpr.ink_rename path]
  | .traitObject marked bounds trailing => by
    rw [TypeExpr.rename, TypeExpr.tokens, TypeExpr.tokens, TypeExpr.lifetimes, inkOf_append,
      inkOf_append, inkOf_separatedBy, inkOf_separatedBy _ _ (boundTokens bounds),
      emptied_boundTokens, ink_renameBounds bounds]
    omega
  | .implTrait bounds trailing => by
    rw [TypeExpr.rename, TypeExpr.tokens, TypeExpr.tokens, TypeExpr.lifetimes, inkOf_cons,
      inkOf_cons, inkOf_separatedBy, inkOf_separatedBy _ _ (boundTokens bounds),
      emptied_boundTokens, ink_renameBounds bounds]
    omega
  | .verbatim tokens => by
    rw [TypeExpr.rename, TypeExpr.tokens, TypeExpr.tokens, TypeExpr.lifetimes,
      inkOf_renameFrom false tokens]

theorem PathExpr.ink_rename : ∀ path : PathExpr,
    inkOf (path.rename lengthened).tokens = inkOf path.tokens + path.lifetimes.length
  | ⟨rooted, segments⟩ => by
    rw [PathExpr.rename, PathExpr.tokens, PathExpr.tokens, PathExpr.lifetimes, inkOf_append,
      inkOf_append, inkOf_separatedBy, inkOf_separatedBy _ _ (segmentTokens segments),
      emptied_segmentTokens, ink_renameSegments segments]
    omega

theorem ink_renameSegments : ∀ segments : List Segment,
    inkOf (segmentTokens (renameSegments lengthened segments)).flatten =
      inkOf (segmentTokens segments).flatten + (segmentsLifetimes segments).length
  | [] => by simp [renameSegments, segmentsLifetimes]
  | ⟨name, arguments⟩ :: rest => by
    simp only [renameSegments, segmentTokens, segmentsLifetimes, List.flatten_cons, inkOf_append,
      List.length_append, inkOf_cons, Arguments.ink_rename arguments, ink_renameSegments rest]
    omega

theorem Arguments.ink_rename : ∀ arguments : Arguments,
    inkOf (arguments.rename lengthened).tokens = inkOf arguments.tokens + arguments.lifetimes.length
  | .none => by simp [Arguments.rename, Arguments.lifetimes]
  | .angled separated arguments trailing => by
    rw [Arguments.rename, Arguments.tokens, Arguments.tokens, Arguments.lifetimes, angleBrackets,
      angleBrackets]
    simp only [inkOf_append]
    rw [inkOf_lifetimesFirst, inkOf_lifetimesFirst _ (argumentItems arguments),
      emptied_argumentItems, ink_renameArguments arguments]
    omega
  | .parenthesized tokens => by
    rw [Arguments.rename, Arguments.tokens, Arguments.tokens, Arguments.lifetimes,
      inkOf_renameFrom false tokens]

theorem ink_renameArguments : ∀ arguments : List Argument,
    inkOf ((argumentItems (renameArguments lengthened arguments)).flatMap ListItem.tokens) =
      inkOf ((argumentItems arguments).flatMap ListItem.tokens) +
        (argumentsLifetimes arguments).length
  | [] => by simp [renameArguments, argumentsLifetimes]
  | first :: rest => by
    simp only [renameArguments, argumentItems, argumentsLifetimes, List.flatMap_cons, inkOf_append,
      List.length_append, Argument.ink_rename first, ink_renameArguments rest]
    omega

theorem Argument.ink_rename : ∀ argument : Argument,
    inkOf (argument.rename lengthened).tokens = inkOf argument.tokens + argument.lifetimes.length
  | .lifetime name => by
    rw [Argument.rename, Argument.tokens, Argument.tokens, Argument.lifetimes, inkOf_lifetime]
    rfl
  | .type type => by
    rw [Argument.rename, Argument.tokens, Argument.tokens, Argument.lifetimes,
      TypeExpr.ink_rename type]
  | .verbatim tokens => by
    rw [Argument.rename, Argument.tokens, Argument.tokens, Argument.lifetimes,
      inkOf_renameFrom false tokens]

theorem ink_renameBounds : ∀ bounds : List Bound,
    inkOf (boundTokens (renameBounds lengthened bounds)).flatten =
      inkOf (boundTokens bounds).flatten + (boundsLifetimes bounds).length
  | [] => by simp [renameBounds, boundsLifetimes]
  | first :: rest => by
    simp only [renameBounds, boundTokens, boundsLifetimes, List.flatten_cons, inkOf_append,
      List.length_append, Bound.ink_rename first, ink_renameBounds rest]
    omega

theorem Bound.ink_rename : ∀ bound : Bound,
    inkOf (bound.rename lengthened).tokens = inkOf bound.tokens + bound.lifetimes.length
  | .trait parenthesized maybe binder path => by
    cases parenthesized <;>
      simp only [Bound.rename, Bound.tokens, Bound.lifetimes, List.length_append, inkOf_append,
        inkOf_cons, ink_group, inkOf_nil, inkOf_renameFrom false binder, PathExpr.ink_rename path,
        if_true, if_false, Bool.false_eq_true] <;>
      omega
  | .lifetime name => by
    rw [Bound.rename, Bound.tokens, Bound.tokens, Bound.lifetimes, inkOf_lifetime]
    rfl
  | .capture tokens | .constant tokens => by
    rw [Bound.rename, Bound.tokens, Bound.tokens, Bound.lifetimes, inkOf_renameFrom false tokens]

end

end MiddlewareStack.Source
