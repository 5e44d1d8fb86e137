import MiddlewareStack.Proofs.ModuleNames
import MiddlewareStack.Proofs.Spelling
import MiddlewareStack.Source.Declarations

/-!
# The places that types name

A written type names places, by the paths in it. What it refers to says which, in whatever package
it is written: wherever two types refer to the same, they name the same places. Of a path that leads
out of the file, arguments are kept as they are written and so name none.
-/

namespace MiddlewareStack

open Source

/-- A type with the places that its paths lead to. Lifetimes are left out. -/
inductive PlacedType where
  | reference (mutable : Bool) (target : PlacedType)
  | applied (place : Expanded) (arguments : List PlacedType)
  /-- A path with what is kept as it is written. -/
  | unresolved (place : Expanded) (written : String)
  | other (text : String)

mutual

/-- The places that a reference says. -/
def TypeRef.placed : TypeRef → PlacedType
  | .declared base => .applied (.here (Text.segments base.package ++ [base.name])) []
  | .generic base args =>
    .applied (.here (Text.segments base.package ++ [base.name])) (TypeRef.placedAll args)
  | .external path =>
    let front := String.ofList (path.toList.takeWhile (· != '<'))
    .unresolved (.elsewhere ((Text.segments front).filter (IsName ·)))
      (String.ofList (path.toList.dropWhile (· != '<')))
  | .ref mutable inner => .reference mutable inner.placed
  | .verbatim text => .unresolved (.here [rootPackage]) text
  | other => .other other.text

def TypeRef.placedAll : List TypeRef → List PlacedType
  | [] => []
  | first :: rest => first.placed :: placedAll rest

end

namespace Source

/-- What is written from the opening bracket of some arguments on. -/
def Arguments.bracketed (arguments : Arguments) : String :=
  String.ofList ((written arguments.tokens).toList.dropWhile (· != '<'))

mutual

/-- The places that a type names which is written in `package`. -/
def TypeExpr.placed (index : ModuleIndex) (package : String) : TypeExpr → PlacedType
  | .reference _ mutable target => .reference mutable (target.placed index package)
  | .path path => path.placed index package
  | other => .other (written other.tokens)

/-- The top level of the file itself is the place of no type. -/
def PathExpr.placed (index : ModuleIndex) (package : String) : PathExpr → PlacedType
  | ⟨rooted, segments⟩ =>
    match index.target package ⟨rooted, segments⟩ with
    | .elsewhere path =>
      .unresolved (.elsewhere path) (PathExpr.arguments ⟨rooted, segments⟩).bracketed
    | .here path =>
      if path.length > 1 then .applied (.here path) (lastPlaced index package segments)
      else .unresolved (.here path) (written (PathExpr.tokens ⟨rooted, segments⟩))

/-- The arguments of the last of some segments. -/
def lastPlaced (index : ModuleIndex) (package : String) : List Segment → List PlacedType
  | [] => []
  | ⟨_, arguments⟩ :: rest =>
    if rest.isEmpty then arguments.placed index package else lastPlaced index package rest

def Arguments.placed (index : ModuleIndex) (package : String) : Arguments → List PlacedType
  | .angled _ arguments _ => argumentsPlaced index package arguments
  | _ => []

def argumentsPlaced (index : ModuleIndex) (package : String) : List Argument → List PlacedType
  | [] => []
  | .lifetime _ :: rest => argumentsPlaced index package rest
  | .type type :: rest => type.placed index package :: argumentsPlaced index package rest
  | .verbatim tokens :: rest => .other (written tokens) :: argumentsPlaced index package rest

end

/-- A segment without arguments. -/
def bareSegment (name : String) : Segment :=
  { name, arguments := .none }

def Argument.isVerbatim : Argument → Bool
  | .verbatim _ => true
  | _ => false

/-- Types of references and of paths of names, the last of which may have lifetimes and types as
arguments. -/
inductive TypeExpr.Simple : TypeExpr → Prop
  | reference (lifetime : Option String) (mutable : Bool) {target : TypeExpr}
      (inner : target.Simple) : Simple (.reference lifetime mutable target)
  | path (rooted : Bool) {front : List String} {last : String}
      (named : ∀ name ∈ front, IsName name) (isName : IsName last) :
    Simple (.path ⟨rooted, front.map bareSegment ++ [bareSegment last]⟩)
  | applied (rooted : Bool) {front : List String} {last : String} (separated trailing : Bool)
      {arguments : List Argument} (named : ∀ name ∈ front, IsName name) (isName : IsName last)
      (plain : ∀ argument ∈ arguments, argument.isVerbatim = false)
      (types : ∀ type, .type type ∈ arguments → type.Simple) :
    Simple (.path ⟨rooted,
      front.map bareSegment ++ [⟨last, .angled separated arguments trailing⟩]⟩)

variable {index : ModuleIndex} {package name : String} {path : List String}

theorem declarationAt?_eq_some (long : path.length > 1) :
    ∃ package name, package ≠ [] ∧ path = package ++ [name] ∧
      declarationAt? path = some ⟨Text.pathText package, name⟩ := by
  cases reversed : path.reverse with
  | nil =>
    rw [List.reverse_eq_nil_iff.mp reversed] at long
    exact absurd long (by decide)
  | cons name package =>
    have split : path = package.reverse ++ [name] := by
      rw [← List.reverse_reverse path, reversed, List.reverse_cons]
    have some : package ≠ [] := by
      rintro rfl
      rw [split] at long
      exact absurd long (by simp)
    refine ⟨package.reverse, name, by simpa using some, split, ?_⟩
    simp [declarationAt?, reversed, some]

theorem declarationAt?_eq_none (short : ¬path.length > 1) : declarationAt? path = none := by
  match path, short with
  | [], _ => rfl
  | [_], _ => rfl
  | _ :: _ :: _, short => exact absurd (by simp) short

/-- The name of a declaration gives back the path to it. -/
theorem placed_appliedTo (long : path.length > 1) (named : ∀ name ∈ path, IsName name) :
    ∃ base, declarationAt? path = some base ∧ ∀ args,
      (appliedTo base args).placed = .applied (.here path) (TypeRef.placedAll args) := by
  obtain ⟨package, name, some, rfl, found⟩ := declarationAt?_eq_some long
  refine ⟨_, found, fun args => ?_⟩
  have cut : Text.segments (Text.pathText package) = package :=
    segments_pathText (fun name member => named name (List.mem_append_left _ member)) some
  cases args <;> simp [appliedTo, TypeRef.placed, TypeRef.placedAll, cut]

/-- What may stand between a path and the bracket of its arguments. -/
def separators : List (List Char) :=
  [[], [':', ':'], [':', ':', ' ']]

theorem no_bracket_of_separator {separator : List Char} (member : separator ∈ separators) :
    ∀ c ∈ separator, c != '<' := by
  have all : ∀ separator ∈ separators, separator.all (· != '<') := by decide
  exact List.all_eq_true.mp (all separator member)

/-- Arguments are written from a bracket on, behind the separator if there is one. -/
theorem written_angled (separated trailing : Bool) (arguments : List Argument) :
    ∃ separator ∈ separators, ∃ rest,
      (written (Arguments.angled separated arguments trailing).tokens).toList =
        separator ++ '<' :: rest := by
  have bracket : ∃ rest, Token.charsOf (angleBrackets
      (lifetimesFirst trailing (argumentItems arguments))) = '<' :: rest := by
    rw [angleBrackets, operator_less, List.append_assoc, List.singleton_append]
    rcases charsOf_cons (.punct '<' false) (lifetimesFirst trailing (argumentItems arguments) ++
      Token.operator ">") with ⟨chars, _⟩ | ⟨chars, _⟩ <;> exact ⟨_, chars⟩
  have kept : ∀ {text text'}, Closes text text' → (∃ rest, text = '<' :: rest) →
      ∃ rest, text' = '<' :: rest := by
    rintro _ _ closes ⟨rest, rfl⟩
    rcases closes.head with found | ⟨blank, _⟩
    · exact found
    · cases blank
  refine written_induction (P := fun text => ∃ separator ∈ separators, ∃ rest,
    text = separator ++ '<' :: rest) ?_ ?_
  · rintro _ _ closes ⟨separator, member, rest, rfl⟩
    simp only [separators, List.mem_cons, List.not_mem_nil, or_false] at member
    rcases member with rfl | rfl | rfl
    · obtain ⟨behind, rfl⟩ := kept closes ⟨rest, rfl⟩
      exact ⟨[], by decide, behind, rfl⟩
    · cases closes with | keep _ closes =>
      cases closes with | keep _ closes =>
      obtain ⟨behind, rfl⟩ := kept closes ⟨rest, rfl⟩
      exact ⟨[':', ':'], by decide, behind, rfl⟩
    · cases closes with | keep _ closes =>
      cases closes with
      | keep _ closes =>
        cases closes with
        | keep _ closes =>
          obtain ⟨behind, rfl⟩ := kept closes ⟨rest, rfl⟩
          exact ⟨[':', ':', ' '], by decide, behind, rfl⟩
        | before _ closes =>
          obtain ⟨behind, same⟩ := kept closes ⟨rest, rfl⟩
          rw [same]
          exact ⟨[':', ':'], by decide, behind, rfl⟩
      | after _ closes =>
        obtain ⟨behind, rfl⟩ := kept closes ⟨rest, rfl⟩
        exact ⟨[':', ':'], by decide, behind, rfl⟩
  · obtain ⟨rest, chars⟩ := bracket
    cases separated with
    | false => exact ⟨[], by simp [separators], rest, chars⟩
    | true =>
      refine ⟨[':', ':', ' '], by simp [separators], rest, ?_⟩
      have some : (angleBrackets (lifetimesFirst trailing (argumentItems arguments))).isEmpty =
          false := rfl
      rw [Arguments.tokens, if_pos rfl, operator_separator, List.cons_append, List.cons_append,
        List.nil_append, Token.charsOf, if_pos (by rfl), Token.charsOf, if_neg (by simp [some,
        Token.isJoint]), chars]
      rfl

theorem names_of_external (named : ∀ name ∈ path, IsName name) {separator : List Char}
    (member : separator ∈ separators) :
    (Text.segments (String.ofList ((Text.pathText path).toList ++ separator))).filter (IsName ·) =
      path := by
  have all : path.filter (IsName ·) = path := by simpa using named
  have noColon : ∀ name ∈ path, ':' ∉ name.toList := fun name member =>
    (named name member).no_colon
  have behind : ∀ last : String, ':' ∉ last.toList → ¬IsName last →
      (Text.segments (Text.pathText path ++ "::" ++ last)).filter (IsName ·) = path := by
    intro last single noName
    cases path with
    | nil =>
      have cut : Text.segments (Text.pathText ["", last]) = ["", last] :=
        Text.segments_pathText (List.cons_ne_nil _ _) (by simpa using single)
      have text : Text.pathText [] ++ "::" ++ last = Text.pathText ["", last] := by
        simp [Text.pathText, String.intercalate_cons_cons]
      have empty : ¬IsName "" := by decide
      rw [text, cut]
      simp [noName, empty]
    | cons first others =>
      have text : Text.pathText (first :: others) ++ "::" ++ last =
          Text.pathText (first :: others ++ [last]) := (pathText_concat (List.cons_ne_nil _ _)).symm
      rw [text, Text.segments_pathText (by simp) (List.forall_mem_append.mpr
        ⟨noColon, List.forall_mem_singleton.mpr single⟩), List.filter_append, all]
      simp [noName]
  simp only [separators, List.mem_cons, List.not_mem_nil, or_false] at member
  rcases member with rfl | rfl | rfl
  · rw [List.append_nil, String.ofList_toList]
    cases path with
    | nil => decide +kernel
    | cons first others => rw [segments_pathText named (List.cons_ne_nil _ _), all]
  · have text : String.ofList ((Text.pathText path).toList ++ [':', ':']) =
        Text.pathText path ++ "::" ++ "" := by simp
    rw [text, behind "" (by decide) (by decide)]
  · have text : String.ofList ((Text.pathText path).toList ++ [':', ':', ' ']) =
        Text.pathText path ++ "::" ++ " " := by simp [← String.toList_inj]
    rw [text, behind " " (by decide) (by decide +kernel)]

/-- A path that leads elsewhere, and its arguments from the bracket on, are found in their text. -/
theorem placed_externalTo (named : ∀ name ∈ path, IsName name) {arguments : Arguments}
    (angled : arguments = .none ∨ ∃ separated list trailing,
      arguments = .angled separated list trailing) :
    (externalTo path arguments).placed = .unresolved (.elsewhere path) arguments.bracketed := by
  have noBracket : ∀ c ∈ (Text.pathText path).toList, c != '<' := by
    intro c member
    rcases Text.mem_pathText member with rfl | ⟨name, among, inside⟩
    · rfl
    · rw [bne_iff_ne]
      rintro rfl
      exact (named name among).not_mem (by decide) (by decide) inside
  have cut : ∀ {separator behind : List Char}, separator ∈ separators →
      (behind = [] ∨ ∃ rest, behind = '<' :: rest) →
      (TypeRef.external (String.ofList
        ((Text.pathText path).toList ++ (separator ++ behind)))).placed =
        .unresolved (.elsewhere path) (String.ofList behind) := by
    intro separator behind member bracket
    have front : ∀ c ∈ (Text.pathText path).toList ++ separator, c != '<' := by
      refine List.forall_mem_append.mpr ⟨noBracket, ?_⟩
      exact no_bracket_of_separator member
    have taken : behind.takeWhile (· != '<') = [] ∧ behind.dropWhile (· != '<') = behind := by
      rcases bracket with rfl | ⟨rest, rfl⟩ <;> exact ⟨rfl, rfl⟩
    rw [TypeRef.placed, String.toList_ofList, ← List.append_assoc,
      List.takeWhile_append_of_pos front, List.dropWhile_append_of_pos front, taken.1, taken.2,
      List.append_nil, names_of_external named member]
  rcases angled with rfl | ⟨separated, list, trailing, rfl⟩
  · have empty : [] ∈ separators := by decide
    have bare : Arguments.none.bracketed = String.ofList [] := rfl
    rw [externalTo, bare, ← cut empty (.inl rfl), List.append_nil, List.append_nil,
      String.ofList_toList]
  · obtain ⟨separator, member, rest, text⟩ := written_angled separated trailing list
    have bracketed : (Arguments.angled separated list trailing).bracketed =
        String.ofList ('<' :: rest) := by
      rw [Arguments.bracketed, text, List.dropWhile_append_of_pos (no_bracket_of_separator member)]
      rfl
    have whole : Text.pathText path ++ written (Arguments.angled separated list trailing).tokens =
        String.ofList ((Text.pathText path).toList ++ (separator ++ '<' :: rest)) := by
      rw [← String.toList_inj, String.toList_append, text, String.toList_ofList]
    rw [externalTo, whole, cut member (.inr ⟨rest, rfl⟩), bracketed]
    exact nofun

section Path

variable {front : List Segment} {last : Segment} {rooted : Bool}

theorem segmentsRefs_last : index.segmentsRefs package (front ++ [last]) =
    index.argumentsRefs package last.arguments := by
  induction front with
  | nil =>
    cases last
    simp [ModuleIndex.segmentsRefs]
  | cons first others ih =>
    cases first
    simpa [ModuleIndex.segmentsRefs] using ih

theorem lastPlaced_last : lastPlaced index package (front ++ [last]) =
    last.arguments.placed index package := by
  induction front with
  | nil =>
    cases last
    simp [lastPlaced]
  | cons first others ih =>
    cases first
    simpa [lastPlaced] using ih

theorem placed_pathRef (indexed : index.Named) (isPackage : IsPackage package)
    (named : ∀ s ∈ front ++ [last], IsName s.name)
    (angled : last.arguments = .none ∨ ∃ separated list trailing,
      last.arguments = .angled separated list trailing)
    (h : ∃ refs, index.argumentsRefs package last.arguments = some refs ∧
      TypeRef.placedAll refs = last.arguments.placed index package) :
    (index.pathRef package ⟨rooted, front ++ [last]⟩).placed =
      PathExpr.placed index package ⟨rooted, front ++ [last]⟩ := by
  obtain ⟨refs, resolved, placed⟩ := h
  have arguments : (PathExpr.mk rooted (front ++ [last])).arguments = last.arguments := by
    simp [PathExpr.arguments]
  have allNamed : ∀ name ∈ (PathExpr.mk rooted (front ++ [last])).names, IsName name := by
    rw [PathExpr.names, List.forall_mem_map]
    exact named
  have leads : (index.target package ⟨rooted, front ++ [last]⟩).Named := by
    rw [ModuleIndex.target]
    split
    · exact allNamed
    · exact indexed.expand isPackage allNamed
  rw [ModuleIndex.pathRef, ModuleIndex.reference, PathExpr.placed, segmentsRefs_last,
    lastPlaced_last, arguments, resolved]
  cases place : index.target package ⟨rooted, front ++ [last]⟩ with
  | elsewhere path =>
    rw [place] at leads
    exact placed_externalTo leads angled
  | here path =>
    rw [place] at leads
    by_cases long : path.length > 1
    · obtain ⟨base, found, applied⟩ := placed_appliedTo long leads.2
      simp only [found, long, if_true, applied, placed]
    · obtain rfl : path = [rootPackage] := by
        obtain ⟨others, rfl⟩ := List.head?_eq_some_iff.mp leads.1
        simpa using long
      rfl

end Path

theorem named_segments {front : List String} {last : Segment} (named : ∀ name ∈ front, IsName name)
    (isName : IsName last.name) : ∀ s ∈ front.map bareSegment ++ [last], IsName s.name := by
  rw [List.forall_mem_append, List.forall_mem_map]
  exact ⟨named, List.forall_mem_singleton.mpr isName⟩

theorem placedAll_argumentRefs {arguments : List Argument}
    (plain : ∀ argument ∈ arguments, argument.isVerbatim = false)
    (h : ∀ type, .type type ∈ arguments →
      (index.typeRef package type).placed = type.placed index package) :
    TypeRef.placedAll (index.argumentRefs package arguments) =
      argumentsPlaced index package arguments := by
  induction arguments with
  | nil => simp [ModuleIndex.argumentRefs, TypeRef.placedAll, argumentsPlaced]
  | cons first rest ih =>
    obtain ⟨isPlain, others⟩ := List.forall_mem_cons.mp plain
    have behind := ih others fun type member => h type (List.mem_cons_of_mem _ member)
    cases first with
    | lifetime _ => rw [ModuleIndex.argumentRefs, argumentsPlaced, behind]
    | type type =>
      rw [ModuleIndex.argumentRefs, argumentsPlaced, TypeRef.placedAll, behind,
        h type List.mem_cons_self]
    | verbatim _ => cases isPlain

/-- What a type refers to says the places that it names. -/
theorem placed_typeRef (indexed : index.Named) (isPackage : IsPackage package) {type : TypeExpr}
    (simple : type.Simple) :
    (index.typeRef package type).placed = type.placed index package := by
  induction simple with
  | reference lifetime mutable _ ih =>
    rw [ModuleIndex.typeRef, TypeRef.placed, ih, TypeExpr.placed]
  | path rooted named isName =>
    rw [ModuleIndex.typeRef, TypeExpr.placed]
    refine placed_pathRef indexed isPackage (named_segments named isName) (.inl rfl) ⟨[], ?_, ?_⟩
    · rw [bareSegment, ModuleIndex.argumentsRefs]
    · rw [bareSegment, TypeRef.placedAll, Arguments.placed]
      exact nofun
  | @applied rooted front last separated trailing arguments named isName plain _ ih =>
    rw [ModuleIndex.typeRef, TypeExpr.placed]
    refine placed_pathRef indexed isPackage (named_segments named isName) (.inr ⟨_, _, _, rfl⟩)
      ⟨index.argumentRefs package arguments, ?_, ?_⟩
    · rw [ModuleIndex.argumentsRefs]
    · rw [Arguments.placed, placedAll_argumentRefs plain ih]

/-! ## Signatures -/

/-- An input with a type, and its position among all inputs of its signature. -/
structure TypedInput where
  position : Nat
  pattern : Pattern
  type : TypeExpr

def TypedInput.paramName (input : TypedInput) : String :=
  Input.nameAt input.position input.pattern

/-- The parameter that the input declares. -/
def TypedInput.param (index : ModuleIndex) (package : String) (input : TypedInput) : Param where
  name := input.paramName
  ty := index.typeRef package input.type
  rendered := written input.type.tokens

namespace Input

/-- The type of an input. A receiver is not typed as one. -/
def type? : Input → Option TypeExpr
  | .receiver .. => none
  | .typed _ _ type => some type

def typedAt? (position : Nat) : Input → Option TypedInput
  | .typed _ pattern type => some { position, pattern, type }
  | .receiver .. => none

end Input

namespace Signature

def paramTypes (s : Signature) : List TypeExpr :=
  s.inputs.filterMap Input.type?

/-- The inputs that have types, in order. -/
def typedInputs (s : Signature) : List TypedInput :=
  s.inputs.zipIdx.filterMap fun entry => entry.1.typedAt? entry.2

/-- What is made of each input by its position, where nothing is made of a receiver. -/
theorem filterMap_mapIdx_inputs {α β : Type} {f : Nat → Input → α} {g : α → Option β}
    {k : TypedInput → β}
    (each : ∀ position input, g (f position input) = (input.typedAt? position).map k)
    (s : Signature) : (s.inputs.mapIdx f).filterMap g = s.typedInputs.map k := by
  rw [typedInputs, List.map_filterMap, List.mapIdx_eq_zipIdx_map, List.filterMap_map]
  exact congrArg (List.filterMap · _) (funext fun entry => each entry.2 entry.1)

theorem paramTypes_eq (s : Signature) : s.paramTypes = s.typedInputs.map TypedInput.type := by
  have kept : s.inputs.mapIdx (fun _ input => input) = s.inputs := by
    rw [List.mapIdx_eq_zipIdx_map]
    exact List.zipIdx_map_fst 0 s.inputs
  rw [paramTypes, ← kept]
  refine filterMap_mapIdx_inputs (fun position input => ?_) s
  cases input <;> rfl

theorem params_eq (index : ModuleIndex) (package : String) (s : Signature) :
    (s.method index package).params = s.typedInputs.map (TypedInput.param index package) := by
  refine filterMap_mapIdx_inputs (fun position input => ?_) s
  cases input <;> rfl

/-- The types of the parameters and of the output are simple. -/
structure Simple (s : Signature) : Prop where
  params : ∀ type ∈ s.paramTypes, type.Simple
  output : ∀ type ∈ s.output, type.Simple

/-- Each parameter has what its type refers to, and its type as written. -/
theorem params_method (index : ModuleIndex) (package : String) (s : Signature) :
    (s.method index package).params.map (fun p => (p.ty, p.rendered)) =
      s.paramTypes.map fun type => (index.typeRef package type, written type.tokens) := by
  rw [params_eq, paramTypes_eq, List.map_map, List.map_map]
  rfl

theorem paramTypes_method (s : Signature) :
    (s.method index package).paramTypes = s.paramTypes.map (index.typeRef package) := by
  have types := congrArg (List.map Prod.fst) (s.params_method index package)
  rwa [List.map_map, List.map_map] at types

theorem placed_params {s : Signature} (indexed : index.Named) (isPackage : IsPackage package)
    (simple : s.Simple) :
    (s.method index package).paramTypes.map TypeRef.placed =
      s.paramTypes.map (·.placed index package) := by
  rw [paramTypes_method, List.map_map]
  exact List.map_congr_left fun type member =>
    placed_typeRef indexed isPackage (simple.params type member)

theorem placed_output {s : Signature} (indexed : index.Named) (isPackage : IsPackage package)
    (simple : s.Simple) :
    (s.method index package).output.map TypeRef.placed =
      s.output.map (·.placed index package) := by
  rw [method, Option.map_map]
  exact Option.map_congr fun type member =>
    placed_typeRef indexed isPackage (simple.output type member)

end Signature

/-- Wherever in a source file two types refer to the same, they name the same places. Methods of the
same signature therefore take and give types that name the same places. -/
theorem placed_eq_of_same {text : String} {items : List Item} (read : parse? text = some items)
    {p q : String} (hp : p ∈ (ModuleIndex.ofItems items).packages)
    (hq : q ∈ (ModuleIndex.ofItems items).packages) :
    let index := ModuleIndex.ofItems items
    (∀ S T : TypeExpr, S.Simple → T.Simple → index.typeRef p S = index.typeRef q T →
      S.placed index p = T.placed index q) ∧
    ∀ s t : Signature, s.Simple → t.Simple →
      (s.method index p).SameSignature (t.method index q) →
      s.name = t.name ∧ s.paramTypes.map (·.placed index p) = t.paramTypes.map (·.placed index q) ∧
        s.output.map (·.placed index p) = t.output.map (·.placed index q) := by
  have indexed := ModuleIndex.named_ofItems (parse?_named read)
  have inP := indexed.isPackage hp
  have inQ := indexed.isPackage hq
  refine ⟨fun S T simple simple' same => ?_, fun s t simple simple' same => ?_⟩
  · rw [← placed_typeRef indexed inP simple, same, placed_typeRef indexed inQ simple']
  · obtain ⟨name, _, output, params⟩ := same
    refine ⟨name, ?_, ?_⟩
    · rw [← Signature.placed_params indexed inP simple, params,
        Signature.placed_params indexed inQ simple']
    · rw [← Signature.placed_output indexed inP simple, output,
        Signature.placed_output indexed inQ simple']

/-- A path of names without arguments. -/
def namedType (front : List String) (last : String) : TypeExpr :=
  .path ⟨false, front.map bareSegment ++ [bareSegment last]⟩

def vectorOf (argument : TypeExpr) : TypeExpr :=
  .path ⟨false, [⟨"Vec", .angled false [.type argument] false⟩]⟩

theorem imported_placed_as_declared :
    ∃ items, parse? "mod a { pub struct Token; } mod b { use super::a::Token; }" = some items ∧
      let index := ModuleIndex.ofItems items
      ("self::a" ∈ index.packages ∧ "self::b" ∈ index.packages) ∧
      (namedType [] "Token").Simple ∧
      index.typeRef "self::a" (namedType [] "Token") =
        index.typeRef "self::b" (namedType [] "Token") ∧
      (namedType [] "Token").placed index "self::a" =
        (namedType [] "Token").placed index "self::b" := by
  have evaluated : (parse? "mod a { pub struct Token; } mod b { use super::a::Token; }").map
      (fun items => ((ModuleIndex.ofItems items).packages,
        (ModuleIndex.ofItems items).typeRef "self::a" (namedType [] "Token"),
        (ModuleIndex.ofItems items).typeRef "self::b" (namedType [] "Token"))) =
      some (["self", "self::a", "self::b"], .declared ⟨"self::a", "Token"⟩,
        .declared ⟨"self::a", "Token"⟩) := by decide +kernel
  obtain ⟨items, read, found⟩ := Option.map_eq_some_iff.mp evaluated
  simp only [Prod.mk.injEq] at found
  obtain ⟨packages, inA, inB⟩ := found
  have simple : (namedType [] "Token").Simple :=
    .path false (List.forall_mem_nil _) (by decide +kernel)
  have a : "self::a" ∈ (ModuleIndex.ofItems items).packages := by simp [packages]
  have b : "self::b" ∈ (ModuleIndex.ofItems items).packages := by simp [packages]
  refine ⟨items, read, ⟨a, b⟩, simple, inA.trans inB.symm, ?_⟩
  exact (placed_eq_of_same read a b).1 _ _ simple simple (inA.trans inB.symm)

/-- The same text may name different declarations behind a path that leads out of the file. -/
theorem arguments_elsewhere_confused :
    ∃ items, parse? "mod a { struct Token; } mod b { struct Token; }" = some items ∧
      let index := ModuleIndex.ofItems items
      ("self::a" ∈ index.packages ∧ "self::b" ∈ index.packages) ∧
      index.typeRef "self::a" (vectorOf (namedType [] "Token")) =
        index.typeRef "self::b" (vectorOf (namedType [] "Token")) ∧
      index.expand "self::a" ["Token"] ≠ index.expand "self::b" ["Token"] := by
  have evaluated : (parse? "mod a { struct Token; } mod b { struct Token; }").map
      (fun items => ((ModuleIndex.ofItems items).packages,
        (ModuleIndex.ofItems items).typeRef "self::a" (vectorOf (namedType [] "Token")),
        (ModuleIndex.ofItems items).typeRef "self::b" (vectorOf (namedType [] "Token")),
        (ModuleIndex.ofItems items).expand "self::a" ["Token"],
        (ModuleIndex.ofItems items).expand "self::b" ["Token"])) =
      some (["self", "self::a", "self::b"], .external "Vec<Token>", .external "Vec<Token>",
        .here ["self", "a", "Token"], .here ["self", "b", "Token"]) := by decide +kernel
  obtain ⟨items, read, found⟩ := Option.map_eq_some_iff.mp evaluated
  simp only [Prod.mk.injEq] at found
  obtain ⟨packages, inA, inB, leadsA, leadsB⟩ := found
  refine ⟨items, read, by simp [packages], inA.trans inB.symm, ?_⟩
  rw [leadsA, leadsB]
  decide

end Source

end MiddlewareStack
