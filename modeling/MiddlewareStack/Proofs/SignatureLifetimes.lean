import MiddlewareStack.Proofs.KeptLifetimes
import MiddlewareStack.Proofs.PlacedTypes

/-!
# Lifetimes in signatures

Two signatures that differ in the names of lifetimes only are the same if no lifetime is kept in
what their types refer to. Where one is kept, there are names with which they differ
(`lifetimes_matter_iff`).
-/

namespace MiddlewareStack.Source

/-- The input with other names for lifetimes. -/
def Input.rename (σ : String → String) : Input → Input
  | .receiver attributes borrow mutable type =>
    .receiver (renameFrom σ false attributes) (borrow.map (Option.map σ)) mutable
      (type.map (TypeExpr.rename σ))
  | .typed attributes pattern type =>
    .typed (renameFrom σ false attributes)
      { pattern with tokens := renameFrom σ false pattern.tokens } (type.rename σ)

namespace Signature

/-- The signature with other names for lifetimes, those that it declares included. -/
def rename (σ : String → String) (s : Signature) : Signature :=
  { s with
    generics := renameFrom σ false s.generics
    inputs := s.inputs.map (Input.rename σ)
    variadic := renameFrom σ false s.variadic
    output := s.output.map (TypeExpr.rename σ)
    conditions := renameFrom σ false s.conditions }

/-- The types of the parameters and of the output. -/
def types (s : Signature) : List TypeExpr :=
  s.paramTypes ++ s.output.toList

/-- The lifetimes that what its types refer to keeps as they are written. -/
def keptLifetimes (index : ModuleIndex) (package : String) (s : Signature) : List String :=
  s.types.flatMap (TypeExpr.keptLifetimes index package)

end Signature

variable {index : ModuleIndex} {package : String} {σ : String → String}

theorem Input.isReceiver_rename (input : Input) :
    (input.rename σ).isReceiver = input.isReceiver := by
  cases input <;> rfl

/-- Only whether a receiver is a borrow counts, and of what kind. -/
theorem Input.receiverKind_rename (input : Input) :
    (input.rename σ).receiverKind = input.receiverKind := by
  cases input with
  | typed => rfl
  | receiver attributes borrow mutable type =>
    cases borrow with
    | some lifetime => rfl
    | none =>
      cases type with
      | none => rfl
      | some type => cases type <;> simp [rename, receiverKind, TypeExpr.rename]

theorem Input.type?_rename (input : Input) :
    (input.rename σ).type? = input.type?.map (TypeExpr.rename σ) := by
  cases input <;> rfl

namespace Signature

theorem paramTypes_rename (s : Signature) :
    (s.rename σ).paramTypes = s.paramTypes.map (TypeExpr.rename σ) := by
  rw [paramTypes, paramTypes, rename, List.filterMap_map, List.map_filterMap]
  exact congrArg (List.filterMap · s.inputs) (funext Input.type?_rename)

theorem types_rename (s : Signature) :
    (s.rename σ).types = s.types.map (TypeExpr.rename σ) := by
  have output : (s.rename σ).output.toList = s.output.toList.map (TypeExpr.rename σ) := by
    cases given : s.output <;> simp [rename, given]
  rw [types, types, List.map_append, paramTypes_rename, output]

theorem receiver_rename (s : Signature) :
    ((s.rename σ).method index package).receiver = (s.method index package).receiver := by
  have first : (s.rename σ).receiver?.map Input.receiverKind =
      s.receiver?.map Input.receiverKind := by
    rw [receiver?, receiver?, rename, List.head?_map]
    cases s.inputs.head? with
    | none => rfl
    | some input =>
      simp only [Option.map_some, Option.filter_some, Input.isReceiver_rename]
      split <;> simp [Input.receiverKind_rename]
  rw [method, method, first]

/-- Renamed or not, a method is called in the same way, so that its types decide. -/
theorem sameSignature_rename_iff (s : Signature) :
    ((s.rename σ).method index package).SameSignature (s.method index package) ↔
      (s.types.map (TypeExpr.rename σ)).map (index.typeRef package) =
        s.types.map (index.typeRef package) := by
  rw [← types_rename, types, types, List.map_append, List.map_append, ← paramTypes_method,
    ← paramTypes_method]
  have output : ∀ given : Option TypeExpr, given.toList.map (index.typeRef package) =
      (given.map (index.typeRef package)).toList := by
    intro given
    cases given <;> rfl
  rw [output, output]
  constructor
  · rintro ⟨-, -, gives, takes⟩
    rw [takes]
    exact congrArg (_ ++ Option.toList ·) gives
  · intro same
    have length : ((s.rename σ).method index package).paramTypes.length =
        (s.method index package).paramTypes.length := by
      simp only [paramTypes_method, paramTypes_rename, List.length_map]
    obtain ⟨takes, gives⟩ := List.append_inj same length
    have gives : ((s.rename σ).method index package).output = (s.method index package).output := by
      simpa [method] using congrArg List.head? gives
    exact ⟨rfl, s.receiver_rename, gives, takes⟩

end Signature

/-- What a type refers to depends on the lifetimes that are kept and on no other. All renamings
leave it as it is exactly if none is kept. The same holds for whether a method with other names for
lifetimes has the signature of the method. -/
theorem lifetimes_matter_iff (index : ModuleIndex) (package : String) :
    (∀ type : TypeExpr,
      (∀ σ : String → String, (∀ name ∈ type.keptLifetimes index package, σ name = name) →
        index.typeRef package (type.rename σ) = index.typeRef package type) ∧
      ((∀ σ, IsRenaming σ → index.typeRef package (type.rename σ) = index.typeRef package type) ↔
        type.keptLifetimes index package = [])) ∧
    ∀ s : Signature,
      (∀ σ : String → String, (∀ name ∈ s.keptLifetimes index package, σ name = name) →
        ((s.rename σ).method index package).SameSignature (s.method index package)) ∧
      ((∀ σ, IsRenaming σ →
          ((s.rename σ).method index package).SameSignature (s.method index package)) ↔
        s.keptLifetimes index package = []) := by
  refine ⟨fun type => ⟨fun σ fixed => ?_, fun unchanged => ?_, fun none σ _ => ?_⟩,
    fun s => ⟨fun σ fixed => ?_, fun unchanged => ?_, fun none σ _ => ?_⟩⟩
  · exact type.respelled_typeRef.same fixed
  · exact type.respelled_typeRef.eq_nil (unchanged lengthened isRenaming_lengthened)
  · refine type.respelled_typeRef.same ?_
    rw [none]
    exact List.forall_mem_nil _
  · exact s.sameSignature_rename_iff.mpr ((respelled_typeRefs s.types).same fixed)
  · exact (respelled_typeRefs s.types).eq_nil
      (s.sameSignature_rename_iff.mp (unchanged lengthened isRenaming_lengthened))
  · refine s.sameSignature_rename_iff.mpr ((respelled_typeRefs s.types).same ?_)
    rw [← Signature.keptLifetimes, none]
    exact List.forall_mem_nil _

/-- The lifetime `a` under another name. -/
def calledB (name : String) : String :=
  if name = "a" then "b" else name

/-- The signature of the first method of an interface. -/
def firstMethod? : List Item → Option Signature
  | .interface _ _ methods :: _ => methods.head?
  | _ => none

theorem wrapped_lifetimes_do_not_matter :
    ∃ items s, parse? "trait Auth \x7b fn token<'a>(&'a self, by: &'a Wrap<'a, u8>) -> Box<u8>; \x7d
        struct Wrap<'a, A>(&'a A);" = some items ∧ firstMethod? items = some s ∧
      let index := ModuleIndex.ofItems items
      written (s.rename calledB).tokens =
        "fn token<'b>(&'b self, by: &'b Wrap<'b, u8>) -> Box<u8>" ∧
      s.keptLifetimes index "self" = [] ∧
      ((s.rename calledB).method index "self").SameSignature (s.method index "self") := by
  have evaluated :
      (parse? "trait Auth \x7b fn token<'a>(&'a self, by: &'a Wrap<'a, u8>) -> Box<u8>; \x7d
        struct Wrap<'a, A>(&'a A);").bind (fun items => (firstMethod? items).map fun s =>
          (written (s.rename calledB).tokens, s.keptLifetimes (ModuleIndex.ofItems items) "self")) =
      some ("fn token<'b>(&'b self, by: &'b Wrap<'b, u8>) -> Box<u8>", []) := by decide +kernel
  obtain ⟨items, read, found⟩ := Option.bind_eq_some_iff.mp evaluated
  obtain ⟨s, first, found⟩ := Option.map_eq_some_iff.mp found
  obtain ⟨text, none⟩ := Prod.mk.inj found
  refine ⟨items, s, read, first, text, none, ?_⟩
  refine ((lifetimes_matter_iff (ModuleIndex.ofItems items) "self").2 s).1 calledB ?_
  rw [none]
  exact List.forall_mem_nil _

/-- The arguments of a type from elsewhere are kept as written, lifetimes included. -/
theorem borrowed_text_lifetime_kept :
    ∃ items s, parse? "trait Auth \x7b fn token<'a>(&'a self) -> Cow<'a, str>; \x7d" = some items ∧
      firstMethod? items = some s ∧
      let index := ModuleIndex.ofItems items
      written (s.rename calledB).tokens = "fn token<'b>(&'b self) -> Cow<'b, str>" ∧
      ¬((s.rename calledB).method index "self").SameSignature (s.method index "self") := by
  have evaluated : (parse? "trait Auth \x7b fn token<'a>(&'a self) -> Cow<'a, str>; \x7d").bind
      (fun items => (firstMethod? items).map fun s =>
        let index := ModuleIndex.ofItems items
        (written (s.rename calledB).tokens,
          ((s.rename calledB).method index "self").output, (s.method index "self").output)) =
      some ("fn token<'b>(&'b self) -> Cow<'b, str>", some (.external "Cow<'b, str>"),
        some (.external "Cow<'a, str>")) := by decide +kernel
  obtain ⟨items, read, found⟩ := Option.bind_eq_some_iff.mp evaluated
  obtain ⟨s, first, found⟩ := Option.map_eq_some_iff.mp found
  simp only [Prod.mk.injEq] at found
  obtain ⟨text, renamed, asWritten⟩ := found
  refine ⟨items, s, read, first, text, ?_⟩
  rintro ⟨-, -, same, -⟩
  rw [renamed, asWritten] at same
  exact absurd same (by decide)

end MiddlewareStack.Source
