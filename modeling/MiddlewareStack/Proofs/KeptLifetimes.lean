import MiddlewareStack.Proofs.PathReferences
import MiddlewareStack.Proofs.RenamedLifetimes

/-!
# Lifetimes in references to types

What a type refers to has no lifetimes, but for those in what is kept as it is written: the
arguments of a path that leads out of the file, types of no shape that names a declaration, and the
like. Other names for the other lifetimes change nothing, and longer names for all of them make the
texts in a reference longer by what is kept (`TypeExpr.respelled_typeRef`).
-/

namespace MiddlewareStack

open Source

mutual

/-- The characters of texts that a reference keeps, but for blanks and the names of declarations. -/
def TypeRef.ink : TypeRef → Nat
  | .declared _ => 0
  | .generic _ args => TypeRef.inkAll args
  | .external path => Source.ink path.toList
  | .ref _ inner => inner.ink
  | .dyn inner => inner.ink
  | .impl inner => inner.ink
  | .verbatim text => Source.ink text.toList

def TypeRef.inkAll : List TypeRef → Nat
  | [] => 0
  | first :: rest => first.ink + inkAll rest

end

namespace Source

section Kept

variable (index : ModuleIndex) (package : String)

mutual

/-- The lifetimes that what a type refers to keeps as they are written. -/
def TypeExpr.keptLifetimes : TypeExpr → List String
  | .reference _ _ target => target.keptLifetimes
  | .paren inner => inner.keptLifetimes
  | .path path => path.keptLifetimes
  | .traitObject _ bounds _ => (boundsKept? bounds).getD (boundsLifetimes bounds)
  | .implTrait bounds _ => (boundsKept? bounds).getD (boundsLifetimes bounds)
  | .verbatim tokens => lifetimesFrom false tokens

def PathExpr.keptLifetimes : PathExpr → List String
  | ⟨rooted, segments⟩ =>
    match index.target package ⟨rooted, segments⟩ with
    | .elsewhere _ => (PathExpr.mk rooted segments).arguments.lifetimes
    | .here place =>
      match declarationAt? place, segmentsKept? segments with
      | some _, some kept => kept
      | _, _ => segmentsLifetimes segments

/-- Those in the arguments of the last segment, which function traits have none of to resolve. -/
def segmentsKept? : List Segment → Option (List String)
  | [] => some []
  | ⟨_, arguments⟩ :: rest => if rest.isEmpty then arguments.kept? else segmentsKept? rest

def Arguments.kept? : Arguments → Option (List String)
  | .none => some []
  | .angled _ arguments _ => some (argumentsKept arguments)
  | .parenthesized _ => none

def argumentsKept : List Argument → List String
  | [] => []
  | .lifetime _ :: rest => argumentsKept rest
  | .type type :: rest => type.keptLifetimes ++ argumentsKept rest
  | .verbatim tokens :: rest => lifetimesFrom false tokens ++ argumentsKept rest

/-- Those in the first trait among some bounds. -/
def boundsKept? : List Bound → Option (List String)
  | [] => none
  | .trait _ _ _ path :: _ => some path.keptLifetimes
  | .lifetime _ :: rest => boundsKept? rest
  | .capture _ :: rest => boundsKept? rest
  | .constant _ :: rest => boundsKept? rest

end

end Kept

variable {index : ModuleIndex} {package : String} {σ : String → String}

/-! ## Where renamed paths lead -/

theorem names_renameSegments (segments : List Segment) :
    (renameSegments σ segments).map Segment.name = segments.map Segment.name := by
  induction segments with
  | nil => rw [renameSegments]
  | cons first rest ih =>
    cases first
    simp [renameSegments, ih]

theorem target_rename (rooted : Bool) (segments : List Segment) :
    index.target package ⟨rooted, renameSegments σ segments⟩ =
      index.target package ⟨rooted, segments⟩ := by
  rw [ModuleIndex.target, ModuleIndex.target, PathExpr.names, PathExpr.names, names_renameSegments]

theorem arguments_rename (rooted : Bool) (segments : List Segment) :
    (PathExpr.mk rooted (renameSegments σ segments)).arguments =
      (PathExpr.mk rooted segments).arguments.rename σ := by
  have last : ((renameSegments σ segments).getLast?.map Segment.arguments) =
      (segments.getLast?.map Segment.arguments).map (Arguments.rename σ) := by
    induction segments with
    | nil => simp [renameSegments]
    | cons first rest ih =>
      cases first
      cases rest with
      | nil => simp [renameSegments]
      | cons second others =>
        cases second
        simpa [renameSegments, List.getLast?_cons_cons] using ih
  rw [PathExpr.arguments, PathExpr.arguments, last]
  cases segments.getLast? with
  | none => simp [Arguments.rename]
  | some found => rfl

/-! ## What renaming makes of references -/

/-- Tokens that keep some lifetimes stay as they are where these do, and become longer where all
lifetimes do. -/
structure RespelledTokens (σ : String → String) (kept : List String) (tokens renamed : List Token) :
    Prop where
  same : (∀ name ∈ kept, σ name = name) → renamed = tokens
  longer : σ = lengthened → inkOf renamed = inkOf tokens + kept.length

/-- A reference that keeps some lifetimes does so as well. -/
structure Respelled (σ : String → String) (kept : List String) (found renamed : TypeRef) :
    Prop where
  same : (∀ name ∈ kept, σ name = name) → renamed = found
  longer : σ = lengthened → renamed.ink = found.ink + kept.length

structure RespelledAll (σ : String → String) (kept : List String) (found renamed : List TypeRef) :
    Prop where
  same : (∀ name ∈ kept, σ name = name) → renamed = found
  longer : σ = lengthened → TypeRef.inkAll renamed = TypeRef.inkAll found + kept.length

/-- A type, path or list of arguments that is kept as a whole keeps all its lifetimes. -/
theorem TypeExpr.respelled (type : TypeExpr) :
    RespelledTokens σ type.lifetimes type.tokens (type.rename σ).tokens where
  same fixed := by rw [type.rename_eq_self fixed]
  longer := by
    rintro rfl
    exact type.ink_rename

theorem PathExpr.respelled (path : PathExpr) :
    RespelledTokens σ path.lifetimes path.tokens (path.rename σ).tokens where
  same fixed := by rw [path.rename_eq_self fixed]
  longer := by
    rintro rfl
    exact path.ink_rename

theorem Arguments.respelled (arguments : Arguments) :
    RespelledTokens σ arguments.lifetimes arguments.tokens (arguments.rename σ).tokens where
  same fixed := by rw [arguments.rename_eq_self fixed]
  longer := by
    rintro rfl
    exact arguments.ink_rename

theorem respelled_tokens (tokens : List Token) :
    RespelledTokens σ (lifetimesFrom false tokens) tokens (renameFrom σ false tokens) where
  same fixed := renameFrom_eq_self false tokens fixed
  longer := by
    rintro rfl
    exact inkOf_renameFrom false tokens

section Respelled

variable {kept others : List String} {tokens tokens' : List Token} {found renamed : TypeRef}
  {refs refs' : List TypeRef}

/-- Where a renaming that changes every lifetime changes nothing, none is kept. -/
theorem Respelled.eq_nil (h : Respelled lengthened kept found renamed) (same : renamed = found) :
    kept = [] := by
  have longer := h.longer rfl
  rw [same] at longer
  exact List.length_eq_zero_iff.mp (Nat.left_eq_add.mp longer)

theorem RespelledAll.eq_nil (h : RespelledAll lengthened kept refs refs') (same : refs' = refs) :
    kept = [] := by
  have longer := h.longer rfl
  rw [same] at longer
  exact List.length_eq_zero_iff.mp (Nat.left_eq_add.mp longer)

theorem RespelledTokens.verbatim (h : RespelledTokens σ kept tokens tokens') :
    Respelled σ kept (.verbatim (written tokens)) (.verbatim (written tokens')) where
  same fixed := by rw [h.same fixed]
  longer long := by rw [TypeRef.ink, TypeRef.ink, ink_written, ink_written, h.longer long]

theorem Arguments.respelled_external (segments : List String) (arguments : Arguments) :
    Respelled σ arguments.lifetimes (externalTo segments arguments)
      (externalTo segments (arguments.rename σ)) where
  same fixed := by rw [arguments.rename_eq_self fixed]
  longer long := by
    have longer := arguments.respelled.longer long
    cases arguments with
    | none => simp [Arguments.rename, Arguments.lifetimes]
    | angled | parenthesized =>
      rw [Arguments.rename] at longer ⊢
      simp only [externalTo, TypeRef.ink, String.toList_append, ink_append, ink_written, longer,
        Nat.add_assoc]

theorem Respelled.ref (mutable : Bool) (h : Respelled σ kept found renamed) :
    Respelled σ kept (.ref mutable found) (.ref mutable renamed) where
  same fixed := by rw [h.same fixed]
  longer := h.longer

theorem Respelled.dyn (h : Respelled σ kept found renamed) :
    Respelled σ kept (.dyn found) (.dyn renamed) where
  same fixed := by rw [h.same fixed]
  longer := h.longer

theorem Respelled.impl (h : Respelled σ kept found renamed) :
    Respelled σ kept (.impl found) (.impl renamed) where
  same fixed := by rw [h.same fixed]
  longer := h.longer

theorem RespelledAll.nil : RespelledAll σ [] [] [] where
  same _ := rfl
  longer _ := rfl

theorem RespelledAll.cons (first : Respelled σ kept found renamed)
    (rest : RespelledAll σ others refs refs') :
    RespelledAll σ (kept ++ others) (found :: refs) (renamed :: refs') where
  same fixed := by
    rw [List.forall_mem_append] at fixed
    rw [first.same fixed.1, rest.same fixed.2]
  longer long := by
    rw [TypeRef.inkAll, TypeRef.inkAll, first.longer long, rest.longer long, List.length_append]
    omega

theorem ink_appliedTo (base : QualifiedName) (refs : List TypeRef) :
    (appliedTo base refs).ink = TypeRef.inkAll refs := by
  cases refs <;> rfl

theorem RespelledAll.appliedTo (base : QualifiedName) (h : RespelledAll σ kept refs refs') :
    Respelled σ kept (appliedTo base refs) (appliedTo base refs') where
  same fixed := by rw [h.same fixed]
  longer long := by rw [ink_appliedTo, ink_appliedTo, h.longer long]

end Respelled

/-- What may not be there is there before and after a renaming, or neither. -/
inductive RespelledOption {α : Type} (respelled : List String → α → α → Prop) :
    Option (List String) → Option α → Option α → Prop
  | none : RespelledOption respelled none none none
  | some {kept : List String} {found renamed : α} (h : respelled kept found renamed) :
    RespelledOption respelled (some kept) (some found) (some renamed)

/-- A path that leads into the file keeps what its arguments keep, or all of it is kept. -/
theorem PathExpr.respelled_reference (rooted : Bool) {segments : List Segment}
    (h : RespelledOption (RespelledAll σ) (segmentsKept? index package segments)
      (index.segmentsRefs package segments)
      (index.segmentsRefs package (renameSegments σ segments))) :
    Respelled σ (PathExpr.keptLifetimes index package ⟨rooted, segments⟩)
      (index.pathRef package ⟨rooted, segments⟩)
      (index.pathRef package ⟨rooted, renameSegments σ segments⟩) := by
  have whole : RespelledTokens σ (segmentsLifetimes segments)
      (PathExpr.mk rooted segments).tokens
      (PathExpr.mk rooted (renameSegments σ segments)).tokens := by
    have path := (PathExpr.mk rooted segments).respelled (σ := σ)
    rwa [PathExpr.lifetimes, PathExpr.rename] at path
  rw [PathExpr.keptLifetimes, ModuleIndex.pathRef, ModuleIndex.pathRef, ModuleIndex.reference,
    ModuleIndex.reference, target_rename, arguments_rename]
  cases index.target package ⟨rooted, segments⟩ with
  | elsewhere path => exact Arguments.respelled_external path _
  | here place =>
    generalize segmentsKept? index package segments = kept,
      index.segmentsRefs package segments = found,
      index.segmentsRefs package (renameSegments σ segments) = renamed at h
    cases declared? : declarationAt? place with
    | none =>
      simp only [declared?]
      exact whole.verbatim
    | some base =>
      simp only [declared?]
      cases h with
      | none => exact whole.verbatim
      | some h => exact h.appliedTo base

mutual

theorem TypeExpr.respelled_typeRef : ∀ type : TypeExpr,
    Respelled σ (type.keptLifetimes index package) (index.typeRef package type)
      (index.typeRef package (type.rename σ))
  | .reference _ mutable target => by
    rw [TypeExpr.keptLifetimes, TypeExpr.rename, ModuleIndex.typeRef, ModuleIndex.typeRef]
    exact (TypeExpr.respelled_typeRef target).ref mutable
  | .paren inner => by
    rw [TypeExpr.keptLifetimes, TypeExpr.rename, ModuleIndex.typeRef, ModuleIndex.typeRef]
    exact TypeExpr.respelled_typeRef inner
  | .path path => by
    rw [TypeExpr.keptLifetimes, TypeExpr.rename, ModuleIndex.typeRef, ModuleIndex.typeRef]
    exact PathExpr.respelled_pathRef path
  | .traitObject marked bounds trailing => by
    have whole := (TypeExpr.traitObject marked bounds trailing).respelled (σ := σ)
    rw [TypeExpr.lifetimes, TypeExpr.rename] at whole
    rw [TypeExpr.keptLifetimes, TypeExpr.rename, ModuleIndex.typeRef, ModuleIndex.typeRef]
    have first := respelled_boundsRef bounds
    generalize boundsKept? index package bounds = kept, index.boundsRef package bounds = found,
      index.boundsRef package (renameBounds σ bounds) = renamed at first
    cases first with
    | none => exact whole.verbatim
    | some h => exact h.dyn
  | .implTrait bounds trailing => by
    have whole := (TypeExpr.implTrait bounds trailing).respelled (σ := σ)
    rw [TypeExpr.lifetimes, TypeExpr.rename] at whole
    rw [TypeExpr.keptLifetimes, TypeExpr.rename, ModuleIndex.typeRef, ModuleIndex.typeRef]
    have first := respelled_boundsRef bounds
    generalize boundsKept? index package bounds = kept, index.boundsRef package bounds = found,
      index.boundsRef package (renameBounds σ bounds) = renamed at first
    cases first with
    | none => exact whole.verbatim
    | some h => exact h.impl
  | .verbatim tokens => by
    rw [TypeExpr.keptLifetimes, TypeExpr.rename, ModuleIndex.typeRef, ModuleIndex.typeRef]
    exact (respelled_tokens tokens).verbatim

theorem PathExpr.respelled_pathRef : ∀ path : PathExpr,
    Respelled σ (path.keptLifetimes index package) (index.pathRef package path)
      (index.pathRef package (path.rename σ))
  | ⟨rooted, segments⟩ => by
    rw [PathExpr.rename]
    exact PathExpr.respelled_reference rooted (respelled_segmentsRefs segments)

theorem respelled_segmentsRefs : ∀ segments : List Segment,
    RespelledOption (RespelledAll σ) (segmentsKept? index package segments)
      (index.segmentsRefs package segments)
      (index.segmentsRefs package (renameSegments σ segments))
  | [] => by
    rw [segmentsKept?, renameSegments, ModuleIndex.segmentsRefs]
    exact .some .nil
  | [⟨_, arguments⟩] => by
    simp only [segmentsKept?, renameSegments, ModuleIndex.segmentsRefs, List.isEmpty_nil, if_true]
    exact Arguments.respelled_argumentsRefs arguments
  | ⟨_, _⟩ :: second :: others => by
    have rest := respelled_segmentsRefs (second :: others)
    cases second
    rw [renameSegments] at rest
    simpa [segmentsKept?, renameSegments, ModuleIndex.segmentsRefs] using rest

theorem Arguments.respelled_argumentsRefs : ∀ arguments : Arguments,
    RespelledOption (RespelledAll σ) (arguments.kept? index package)
      (index.argumentsRefs package arguments) (index.argumentsRefs package (arguments.rename σ))
  | .none => by
    rw [Arguments.kept?, Arguments.rename, ModuleIndex.argumentsRefs]
    exact .some .nil
  | .angled _ arguments _ => by
    rw [Arguments.kept?, Arguments.rename, ModuleIndex.argumentsRefs, ModuleIndex.argumentsRefs]
    exact .some (respelled_argumentRefs arguments)
  | .parenthesized _ => by
    rw [Arguments.kept?, Arguments.rename, ModuleIndex.argumentsRefs, ModuleIndex.argumentsRefs]
    exact .none

theorem respelled_argumentRefs : ∀ arguments : List Argument,
    RespelledAll σ (argumentsKept index package arguments) (index.argumentRefs package arguments)
      (index.argumentRefs package (renameArguments σ arguments))
  | [] => by
    rw [argumentsKept, renameArguments, ModuleIndex.argumentRefs]
    exact .nil
  | .lifetime _ :: rest => by
    rw [argumentsKept, renameArguments, Argument.rename, ModuleIndex.argumentRefs,
      ModuleIndex.argumentRefs]
    exact respelled_argumentRefs rest
  | .type type :: rest => by
    rw [argumentsKept, renameArguments, Argument.rename, ModuleIndex.argumentRefs,
      ModuleIndex.argumentRefs]
    exact .cons (TypeExpr.respelled_typeRef type) (respelled_argumentRefs rest)
  | .verbatim tokens :: rest => by
    rw [argumentsKept, renameArguments, Argument.rename, ModuleIndex.argumentRefs,
      ModuleIndex.argumentRefs]
    exact .cons (respelled_tokens tokens).verbatim (respelled_argumentRefs rest)

theorem respelled_boundsRef : ∀ bounds : List Bound,
    RespelledOption (Respelled σ) (boundsKept? index package bounds)
      (index.boundsRef package bounds) (index.boundsRef package (renameBounds σ bounds))
  | [] => by
    rw [boundsKept?, renameBounds, ModuleIndex.boundsRef]
    exact .none
  | .trait _ _ _ path :: _ => by
    rw [boundsKept?, renameBounds, Bound.rename, ModuleIndex.boundsRef, ModuleIndex.boundsRef]
    exact .some (PathExpr.respelled_pathRef path)
  | .lifetime _ :: rest | .capture _ :: rest | .constant _ :: rest => by
    rw [boundsKept?, renameBounds, Bound.rename, ModuleIndex.boundsRef, ModuleIndex.boundsRef]
    exact respelled_boundsRef rest

end

theorem respelled_typeRefs : ∀ types : List TypeExpr,
    RespelledAll σ (types.flatMap (TypeExpr.keptLifetimes index package))
      (types.map (index.typeRef package))
      ((types.map (TypeExpr.rename σ)).map (index.typeRef package))
  | [] => .nil
  | type :: rest => .cons type.respelled_typeRef (respelled_typeRefs rest)

end Source

end MiddlewareStack
