import MiddlewareStack.Proofs.EmittedTypes

/-!
# The names of parameters

A parameter has the name that its input is bound to. An input that is taken apart by a pattern has
none, and is called by its position instead, whatever the other inputs are called. Names are
therefore distinct exactly if none is given twice and no position has a name that is given
(`parameters_described`).
-/

namespace MiddlewareStack

open Source Aggregate

namespace Source

/-- The pattern that is a name and nothing else. -/
def Pattern.bare (name : String) : Pattern :=
  { name? := some name, tokens := [.ident name] }

def Input.pattern? : Input → Option Pattern
  | .typed _ pattern _ => some pattern
  | .receiver .. => none

namespace TypedInput

/-- What an input is called that no name is given to. -/
def ownName (input : TypedInput) : String :=
  "arg" ++ toString input.position

/-- What the parameter of an input is called, and what type it has. -/
structure DescribedBy (index : ModuleIndex) (package : String) (input : TypedInput) (p : Param) :
    Prop where
  kept : ∀ name ∈ input.pattern.name?, p.name = name
  own : input.pattern.name? = none → p.name = input.ownName
  type : p.ty = index.typeRef package input.type
  shown : p.rendered = written input.type.tokens

variable {input other : TypedInput} {name : String}

theorem paramName_of_given (given : input.pattern.name? = some name) : input.paramName = name := by
  rw [TypedInput.paramName, Input.nameAt, given, Option.getD_some]

theorem paramName_of_own (own : input.pattern.name? = none) : input.paramName = input.ownName := by
  rw [TypedInput.paramName, Input.nameAt, own, Option.getD_none, ownName]

theorem describedBy_param (index : ModuleIndex) (package : String) (input : TypedInput) :
    input.DescribedBy index package (input.param index package) where
  kept _ given := paramName_of_given given
  own := paramName_of_own
  type := rfl
  shown := rfl

/-- Inputs at different positions have different names of their own. -/
theorem ownName_inj : input.ownName = other.ownName ↔ input.position = other.position := by
  refine ⟨fun same => ?_, fun same => by rw [ownName, same, ownName]⟩
  have shown : toString input.position = toString other.position :=
    (String.append_right_inj _).mp same
  have digits : Nat.toDigits 10 input.position = Nat.toDigits 10 other.position := by
    rw [← Nat.toList_repr, ← Nat.toList_repr]
    exact congrArg String.toList shown
  have back := congrArg (Nat.ofDigitChars 10 · 0) digits
  simpa using back

end TypedInput

namespace Signature

variable {s : Signature} {index : ModuleIndex} {package : String}

/-- The names that are given to inputs, in order. -/
def givenNames (s : Signature) : List String :=
  s.typedInputs.filterMap (·.pattern.name?)

/-- What the inputs are bound by, the receiver apart. -/
def patterns (s : Signature) : List Pattern :=
  s.inputs.filterMap Input.pattern?

theorem mem_givenNames {name : String} : name ∈ s.givenNames ↔
    ∃ input ∈ s.typedInputs, input.pattern.name? = some name :=
  List.mem_filterMap

theorem argNames_eq (s : Signature) :
    (s.method index package).argNames = s.typedInputs.map TypedInput.paramName := by
  rw [Method.argNames, params_eq, List.map_map]
  rfl

/-- With a name for every input, the patterns are these names. -/
theorem patterns_named (s : Signature) :
    s.named.patterns = s.typedInputs.map fun input => .bare input.paramName := by
  refine filterMap_mapIdx_inputs (fun position input => ?_) s
  cases input <;> rfl

/-- No two inputs have one position. -/
theorem positions_differ (s : Signature) :
    s.typedInputs.Pairwise fun input other => input.position ≠ other.position := by
  have positions : (s.inputs.zipIdx.map Prod.snd).Nodup := by
    rw [List.zipIdx_map_snd]
    exact List.nodup_range'
  rw [List.Nodup, List.pairwise_map] at positions
  rw [typedInputs, List.pairwise_filterMap]
  refine positions.imp fun {entry other} differ => ?_
  rintro input isTyped input' isTyped'
  have position : ∀ {entry : Input × Nat} {input : TypedInput},
      entry.1.typedAt? entry.2 = some input → input.position = entry.2 := by
    rintro ⟨_ | _, position⟩ input isTyped <;> cases isTyped
    rfl
  rwa [position isTyped, position isTyped']

/-- The names are distinct exactly if those that are given are, and none of these is the name of an
input that no name is given to. -/
theorem nodup_argNames_iff : (s.method index package).argNames.Nodup ↔ s.givenNames.Nodup ∧
    ∀ input ∈ s.typedInputs, input.pattern.name? = none → input.ownName ∉ s.givenNames := by
  rw [argNames_eq]
  constructor
  · intro distinct
    constructor
    · rw [List.Nodup, List.pairwise_map] at distinct
      rw [givenNames, List.Nodup, List.pairwise_filterMap]
      refine distinct.imp fun differ name given name' given' same => differ ?_
      rw [TypedInput.paramName_of_given given, TypedInput.paramName_of_given given', same]
    · intro input member own taken
      obtain ⟨other, among, given⟩ := mem_givenNames.mp taken
      have same : input.paramName = other.paramName :=
        (TypedInput.paramName_of_own own).trans (TypedInput.paramName_of_given given).symm
      rw [← List.inj_on_of_nodup_map distinct member among same, own] at given
      cases given
  · rintro ⟨distinct, apart⟩
    rw [givenNames, List.Nodup, List.pairwise_filterMap] at distinct
    rw [List.Nodup, List.pairwise_map]
    refine (distinct.and s.positions_differ).imp_of_mem
      fun {input other} member among ⟨differ, position⟩ same => ?_
    -- either name is given or the input's own
    cases given : input.pattern.name? with
    | some name =>
      rw [TypedInput.paramName_of_given given] at same
      cases given' : other.pattern.name? with
      | some name' =>
        exact differ _ given _ given' (same.trans (TypedInput.paramName_of_given given'))
      | none =>
        rw [TypedInput.paramName_of_own given'] at same
        exact apart other among given' (mem_givenNames.mpr ⟨input, member, same ▸ given⟩)
    | none =>
      rw [TypedInput.paramName_of_own given] at same
      cases given' : other.pattern.name? with
      | some name =>
        rw [TypedInput.paramName_of_given given'] at same
        exact apart input member given (mem_givenNames.mpr ⟨other, among, same ▸ given'⟩)
      | none =>
        rw [TypedInput.paramName_of_own given'] at same
        exact position (TypedInput.ownName_inj.mp same)

end Signature

/-- A signature is described by one parameter for each typed input. Their names are distinct exactly
if those that are given are, and none of these is what an input without one is called. The signature
is written with these names as patterns, in order. Its text has its tokens, and declares them again
if it is plain. A method that forwards it passes on the names, in order, behind the field. -/
theorem parameters_described (index : ModuleIndex) (package : String) (s : Signature) :
    let m := s.method index package
    List.Forall₂ (TypedInput.DescribedBy index package) s.typedInputs m.params ∧
      (m.argNames.Nodup ↔ s.givenNames.Nodup ∧
        ∀ input ∈ s.typedInputs, input.pattern.name? = none → input.ownName ∉ s.givenNames) ∧
      (s.named.patterns = m.argNames.map Pattern.bare ∧ m.rendered = written s.named.tokens ∧
        (Legible s.named.tokens → ∃ found, scan? m.rendered.toList = some found ∧
          Found s.named.tokens found) ∧
        (s.named.Plain → ∃ found, scan? m.rendered.toList = some found ∧
          Signature.ofTokens? found = some s.named)) ∧
      ∀ contract field d, delegate contract field m = .ok d → d.signature = m.rendered ∧
        ∃ arguments, CallArguments field m arguments ∧ d.call =
          field.implementation.filePath ++ "::" ++ m.name ++ "(" ++ ", ".intercalate arguments ++
            ")" := by
  intro m
  refine ⟨?_, Signature.nodup_argNames_iff, ⟨?_, rfl, scan?_written, fun plain => plain.read_back⟩,
    fun contract field d made => ?_⟩
  · rw [Signature.params_eq, List.forall₂_map_right_iff]
    exact List.forall₂_same.mpr fun input _ => input.describedBy_param index package
  · rw [Signature.patterns_named, Signature.argNames_eq, List.map_map]
    rfl
  · have calls := delegate_calls made
    exact ⟨calls.signature.trans (signatureText_method s), calls.call⟩

theorem namedType_plain {name : String} (isName : IsPathName name) :
    (namedType [] name).Plain := by
  change (TypeExpr.path ⟨false, [⟨name, .none⟩]⟩).Plain
  exact .path false (.bare isName) (List.forall_mem_nil _)

/-- A field that holds `B` for the capability `A`. -/
def fieldOfB : Field :=
  { name := "a", capability := ⟨"self", "A"⟩, implementation := ⟨"self", "B"⟩ }

/-- `fn pair(&self, [a, b]: P, mut n: u32)`. -/
def pairSignature : Signature where
  qualifiers := []
  name := "pair"
  generics := []
  inputs := [.receiver [] (some none) false none,
    .typed [] { tokens := [.group .bracket [.ident "a", .punct ',' false, .ident "b"]] }
      (namedType [] "P"),
    .typed [] { name? := some "n", tokens := [.ident "mut", .ident "n"] } (namedType [] "u32")]
  trailing := false
  variadic := []
  output := none
  conditions := []

theorem pair_named_plain : pairSignature.named.Plain where
  qualifiers := rfl
  name := by decide +kernel
  generics := rfl
  inputs := by
    have ofP : (namedType [] "P").Plain := namedType_plain (by decide +kernel)
    have ofU32 : (namedType [] "u32").Plain := namedType_plain (by decide +kernel)
    simp only [Signature.named, pairSignature, List.mapIdx_cons, List.mapIdx_nil,
      List.forall_mem_cons]
    exact ⟨.receiver false nofun, .typed (by decide +kernel) ofP rfl,
      .typed (by decide +kernel) ofU32 rfl, List.forall_mem_nil _⟩
  receiver := by decide
  closed := nofun
  variadic := rfl
  output := nofun
  conditions := rfl

theorem pair_described :
    let m := pairSignature.method (ModuleIndex.ofItems []) "self"
    pairSignature.givenNames = ["n"] ∧ m.argNames = ["arg1", "n"] ∧ m.argNames.Nodup ∧
      m.rendered = "fn pair(&self, arg1: P, n: u32)" ∧
      (∃ found, scan? "fn pair(&self, arg1: P, n: u32)".toList = some found ∧
        Found pairSignature.named.tokens found ∧
        Signature.ofTokens? found = some pairSignature.named) ∧
      ∃ d, delegate fieldOfB.capability fieldOfB m = .ok d ∧
        d.signature = "fn pair(&self, arg1: P, n: u32)" ∧ d.call = "B::pair(&self.a, arg1, n)" := by
  intro m
  obtain ⟨_, distinct, ⟨_, _, rescanned, readBack⟩, forwarded⟩ :=
    parameters_described (ModuleIndex.ofItems []) "self" pairSignature
  obtain ⟨found, scanned, same⟩ := rescanned pair_named_plain.legible
  obtain ⟨found', scanned', declared⟩ := readBack pair_named_plain
  obtain rfl : found' = found := Option.some.inj (scanned'.symm.trans scanned)
  have given : pairSignature.givenNames = ["n"] := by decide
  have names : m.argNames = ["arg1", "n"] := by decide +kernel
  have rendered : m.rendered = "fn pair(&self, arg1: P, n: u32)" := by decide +kernel
  have call : (delegate fieldOfB.capability fieldOfB m).toOption.map
      Delegate.call = some "B::pair(&self.a, arg1, n)" := by decide +kernel
  obtain ⟨d, made, call⟩ := exists_ok_of_read call
  refine ⟨given, names, distinct.mpr ⟨?_, ?_⟩, rendered, ?_, d, made, ?_, call⟩
  · rw [given]
    decide
  · decide +kernel
  · exact ⟨found', rendered ▸ scanned, same, declared⟩
  · exact (forwarded _ _ d made).1.trans rendered

/-- The signatures of an item: those of a contract, or of an implementation. -/
def Item.signatures : Item → List Signature
  | .interface _ _ methods => methods
  | .implementation _ methods => methods
  | _ => []

/-- A method with a pattern, behind which stands an input of the name that the pattern gets. -/
def takenName : String :=
  "trait A \x7b fn put(&self, (a, b): (u8, u8), arg1: u8) \x7b\x7d \x7d"

theorem given_name_taken :
    ∃ items s, parse? takenName = some items ∧ items.flatMap Item.signatures = [s] ∧
      s.givenNames = ["arg1"] ∧
      let m := s.method (ModuleIndex.ofItems items) "self"
      m.argNames = ["arg1", "arg1"] ∧ ¬m.argNames.Nodup ∧
      m.rendered = "fn put(&self, arg1: (u8, u8), arg1: u8)" ∧
      (delegate fieldOfB.capability fieldOfB m).toOption.map Delegate.call =
        some "B::put(&self.a, arg1, arg1)" := by
  have evaluated : (parse? takenName).map (fun items =>
      (items.flatMap Item.signatures).map fun s =>
        let m := s.method (ModuleIndex.ofItems items) "self"
        ((s.givenNames, m.argNames, m.rendered),
          (delegate fieldOfB.capability fieldOfB m).toOption.map Delegate.call)) =
      some [((["arg1"], ["arg1", "arg1"], "fn put(&self, arg1: (u8, u8), arg1: u8)"),
        some "B::put(&self.a, arg1, arg1)")] := by decide +kernel
  obtain ⟨items, read, found⟩ := Option.map_eq_some_iff.mp evaluated
  obtain ⟨s, declared, shown⟩ := List.map_eq_singleton_iff.mp found
  simp only [Prod.mk.injEq] at shown
  obtain ⟨⟨given, names, rendered⟩, call⟩ := shown
  exact ⟨items, s, read, declared, given, names, by rw [names]; decide, rendered, call⟩

end Source

end MiddlewareStack
