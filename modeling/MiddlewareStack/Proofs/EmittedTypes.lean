import MiddlewareStack.Proofs.ForwardedCalls
import MiddlewareStack.Proofs.MovedTypes
import MiddlewareStack.Proofs.ReadSignatures
import MiddlewareStack.Proofs.RequestTypes
import MiddlewareStack.Proofs.SourceTable
import MiddlewareStack.Proofs.WrittenCharacters

/-!
# What emitted types mean

The generated code is included at the top level of the file that a stack is from. The signatures of
forwarded methods and the type of the request are put into it as they were written, in the packages
of contracts and implementations. Plain ones are read there as they were written, and mean the same
exactly if their types name the same places from both packages.
-/

namespace MiddlewareStack

open Source Aggregate

namespace Source

variable {index : ModuleIndex} {p : String}

/-- What a type in the generated code refers to. -/
def emittedType? (index : ModuleIndex) (text : String) : Option TypeRef := do
  let tokens ← scan? text.toList
  let type ← TypeExpr.ofTokens? tokens
  return index.typeRef rootPackage type

/-- The method that a signature in the generated code declares. -/
def emittedMethod? (index : ModuleIndex) (text : String) : Option Method := do
  let tokens ← scan? text.toList
  let s ← Signature.ofTokens? tokens
  return s.method index rootPackage

/-- In the generated code, a text declares a method that takes and gives what `m` does. -/
def KeepsMeaning (index : ModuleIndex) (m : Method) (text : String) : Prop :=
  ∃ emitted, emittedMethod? index text = some emitted ∧
    emitted.paramTypes = m.paramTypes ∧ emitted.output = m.output

namespace Signature

/-- The types of a signature name the same places from two packages. -/
def SamePlaces (index : ModuleIndex) (p q : String) (s : Signature) : Prop :=
  (∀ type ∈ s.paramTypes, type.placed index p = type.placed index q) ∧
    ∀ type ∈ s.output, type.placed index p = type.placed index q

theorem paramTypes_named (s : Signature) : s.named.paramTypes = s.paramTypes := by
  rw [s.paramTypes_eq]
  refine filterMap_mapIdx_inputs (fun position input => ?_) s
  cases input <;> rfl

theorem Plain.paramTypes {s : Signature} (h : s.Plain) : ∀ type ∈ s.paramTypes, type.Plain := by
  intro type member
  obtain ⟨input, among, typed⟩ := List.mem_filterMap.mp member
  cases h.inputs input among with
  | receiver => cases typed
  | typed _ plain =>
    cases typed
    exact plain

end Signature

/-- The text of a plain signature keeps its meaning exactly if its types name the same places. -/
theorem keepsMeaning_iff {s : Signature} (indexed : index.Named) (inP : IsPackage p)
    (plain : s.named.Plain) : KeepsMeaning index (s.method index p) (written s.named.tokens) ↔
      s.SamePlaces index p rootPackage := by
  obtain ⟨found, scanned, read⟩ := plain.read_back
  have emitted : emittedMethod? index (written s.named.tokens) =
      some (s.named.method index rootPackage) := by simp [emittedMethod?, scanned, read]
  have params : ∀ type ∈ s.paramTypes, type.Plain := s.paramTypes_named ▸ plain.paramTypes
  have output : ∀ type ∈ s.output, type.Plain := plain.output
  have same : ∀ {type : TypeExpr}, type.Plain →
      (index.typeRef rootPackage type = index.typeRef p type ↔
        type.placed index p = type.placed index rootPackage) := fun plain =>
    (plain.typeRef_eq_iff indexed isPackage_root inP).trans eq_comm
  have sameParams : (s.named.method index rootPackage).paramTypes = (s.method index p).paramTypes ↔
      ∀ type ∈ s.paramTypes, type.placed index p = type.placed index rootPackage := by
    rw [Signature.paramTypes_method, Signature.paramTypes_method, s.paramTypes_named,
      List.map_inj_left]
    exact forall₂_congr fun type member => same (params type member)
  have sameOutput : (s.named.method index rootPackage).output = (s.method index p).output ↔
      ∀ type ∈ s.output, type.placed index p = type.placed index rootPackage := by
    change s.output.map _ = s.output.map _ ↔ _
    cases declared : s.output with
    | none => simp
    | some type => simpa using same (output type declared)
  rw [KeepsMeaning, emitted, Signature.SamePlaces, ← sameParams, ← sameOutput]
  simp

/-- A type in the generated code refers to what it does where it was written exactly if it names the
same places. -/
theorem emittedType?_eq_iff {type : TypeExpr} (indexed : index.Named) (inP : IsPackage p)
    (plain : type.Plain) : emittedType? index (written type.tokens) = some (index.typeRef p type) ↔
      type.placed index p = type.placed index rootPackage := by
  obtain ⟨found, scanned, read⟩ := plain.read_back
  have emitted : emittedType? index (written type.tokens) =
      some (index.typeRef rootPackage type) := by simp [emittedType?, scanned, read]
  rw [emitted, Option.some.injEq, plain.typeRef_eq_iff indexed isPackage_root inP]
  exact eq_comm

/-- What is read from a text, where nothing is not read, is not empty. -/
theorem ne_empty_of_read {α : Type} {reader : List Token → Option α} {text : String} {a : α}
    (none : reader [] = none) {found : List Token} (scanned : scan? text.toList = some found)
    (read : reader found = some a) : text ≠ "" := by
  rintro rfl
  have empty : scan? "".toList = some [] := by cbv
  obtain rfl := Option.some.inj (empty.symm.trans scanned)
  rw [none] at read
  cases read

theorem typeText_eq {name : String} {type : TypeExpr} (plain : type.Plain) {ty : TypeRef} :
    typeText { name, ty, rendered := written type.tokens } = written type.tokens := by
  obtain ⟨found, scanned, read⟩ := plain.read_back
  have some : written type.tokens ≠ "" := ne_empty_of_read (by rfl) scanned read
  simp [typeText, some]

theorem signatureText_method (s : Signature) :
    signatureText (s.method index p) = written s.named.tokens := by
  have some := s.named.written_ne_empty
  simp [signatureText, Signature.method, some]

end Source

variable {t : Table} {c : Conventions} {root : QualifiedName} {s : CompiledStack} {config : Config}
  {a : Aggregate}

/-- The contract of `impl` is an interface of the file, and its methods are forwarded. Where a
signature is plain, what is emitted for it keeps its meaning exactly if its types name the same
places at the top level as in the package of the contract. -/
def ForwardsAsWritten (items : List Item) (impl : ContractImpl) : Prop :=
  let index := ModuleIndex.ofItems items
  let package := impl.contract.package
  ∃ i bounds methods, (tableOf items).interface? impl.contract = some i ∧
    (package, .interface impl.contract.name bounds methods) ∈ placedItems rootPackage items ∧
    i.methods = methods.map (Signature.method index package) ∧
    List.Forall₂ (fun sig d => sig.named.Plain →
      (KeepsMeaning index (sig.method index package) d.signature ↔
        sig.SamePlaces index package rootPackage)) methods impl.methods

/-- The invocation of `comp` is a method of an implementation of the file. Where the type of its
first parameter is plain, what is emitted for it refers to the same exactly if it names the same
places at the top level as in the package of the implementation. -/
def RequestAsWritten (items : List Item) (comp : Component) (emitted : String) : Prop :=
  let index := ModuleIndex.ofItems items
  ∃ package type methods, (package, .implementation type methods) ∈ placedItems rootPackage items ∧
    ∃ sig ∈ methods, comp.invocation = sig.method index package ∧
    ∃ request, sig.paramTypes.head? = some request ∧
      (request.Plain → (emittedType? index emitted = some (index.typeRef package request) ↔
        request.placed index package = request.placed index rootPackage))

variable {text : String} {items : List Item}

theorem forwardsAsWritten (read : parse? text = some items)
    (rendered : Aggregate.ofStack s (tableOf items) config = .ok a) {impl : ContractImpl}
    (member : impl ∈ a.impls) : ForwardsAsWritten items impl := by
  have named := parse?_named read
  have indexed := ModuleIndex.named_ofItems named
  obtain ⟨field, i, forwards⟩ := impls_forward rendered impl member
  obtain ⟨bounds, methods, placed, declared⟩ := interface_of_table forwards.declared
  have inPackage : IsPackage impl.contract.package :=
    isPackage_of_mem_placedItems isPackage_root items named _ placed
  have calls := forwards.calls
  rw [declared, List.forall₂_map_left_iff] at calls
  refine ⟨i, bounds, methods, forwards.declared, placed, declared, calls.imp ?_⟩
  intro sig d calls plain
  rw [calls.signature, signatureText_method]
  exact keepsMeaning_iff indexed inPackage plain

/-- The method that invokes a component is one of its implementation. -/
theorem CompiledFrom.invocation_declared (h : CompiledFrom t c root s) {comp : Component}
    (member : comp ∈ s.graph.components) :
    ∃ q decl, t.concrete? q = some decl ∧ comp.invocation ∈ decl.methods := by
  obtain ⟨id, present⟩ := DependencyGraph.mem_components.mp member
  obtain ⟨_, decl, _, declared, _, found, _⟩ :=
    Table.resolve_eq_ok.mp (h.settled.settled id comp present).resolved
  exact ⟨_, decl, declared, (List.mem_filter.mp (List.mem_of_find?_eq_some found)).1⟩

theorem requestAsWritten (read : parse? text = some items)
    (h : CompiledFrom (tableOf items) c root s) {comp : Component}
    (member : comp ∈ s.graph.components) {p : Param} {request : TypeRef}
    (takes : TakesRequest c comp p request) : RequestAsWritten items comp (typeText p) := by
  have named := parse?_named read
  have indexed := ModuleIndex.named_ofItems named
  obtain ⟨q, decl, declared, isMethod⟩ := h.invocation_declared member
  obtain ⟨package, type, methods, placed, sig, among, invocation⟩ :=
    method_of_table declared isMethod
  have inPackage : IsPackage package :=
    isPackage_of_mem_placedItems isPackage_root items named _ placed
  have first := takes.first
  have params := congrArg List.head? (sig.params_method (ModuleIndex.ofItems items) package)
  rw [← invocation, List.head?_map, first, List.head?_map, Option.map_some, eq_comm,
    Option.map_eq_some_iff] at params
  obtain ⟨written', head, same⟩ := params
  obtain ⟨name, ty, shown⟩ := p
  obtain ⟨rfl, rfl⟩ := Prod.mk.inj same
  refine ⟨package, type, methods, placed, sig, among, invocation, written', head, fun plain => ?_⟩
  rw [typeText_eq plain]
  exact emittedType?_eq_iff indexed inPackage plain

/-- In the code generated for a stack, plain signatures of forwarded methods and a plain type of the
request mean what the table says exactly if their types name the same places at the top level of the
file as where they were written. -/
theorem emitted_types_mean_iff {scope name : String} (read : parse? text = some items)
    (compiled : (tableOf items).compile c scope name = .ok s)
    (rendered : Aggregate.ofStack s (tableOf items) config = .ok a) :
    (∀ impl ∈ a.impls, ForwardsAsWritten items impl) ∧
    ∀ comp, s.orderedComponents.head? = some comp →
      RequestAsWritten items comp a.requestParam := by
  obtain ⟨package, _, result⟩ := Table.compile_ok compiled
  refine ⟨fun impl member => forwardsAsWritten read rendered member, fun comp head => ?_⟩
  obtain ⟨p, request, takes, emitted⟩ := result.request_emitted rendered head
  have member : comp ∈ s.graph.components :=
    result.orderedComponents_eq ▸ List.mem_of_mem_head? head
  exact emitted ▸ requestAsWritten read result member takes

/-- A capability of an inner module, one of whose methods gives a type of that module. -/
def nestedSource : String :=
  "mod inner \x7b pub trait Auth \x7b fn token(&self) -> Token; \x7d pub struct Token; " ++
  "pub struct AuthMiddleware; impl AuthMiddleware \x7b " ++
  "pub fn run(&self, req: &http::Request) \x7b\x7d fn token(&self) -> Token \x7b\x7d \x7d \x7d " ++
  "trait Root: inner::Auth \x7b\x7d"

set_option synthInstance.maxSize 2000 in
/-- What is recorded for the method, what is emitted, and what that refers to. -/
theorem nested_generates :
    ∃ items s a, parse? nestedSource = some items ∧
      (tableOf items).compile {} "self" "Root" = .ok s ∧
      Aggregate.ofStack s (tableOf items) {} = .ok a ∧
      s.orderedComponents.map Component.implementation = [⟨"self::inner", "AuthMiddleware"⟩] ∧
      ((tableOf items).interface? ⟨"self::inner", "Auth"⟩).map Interface.methods =
        some [{ name := "token", output := some (.declared ⟨"self::inner", "Token"⟩)
                rendered := "fn token(&self) -> Token" }] ∧
      a.impls.map (fun impl => (impl.contract, impl.methods.map Delegate.signature)) =
        [(⟨"self::inner", "Auth"⟩, ["fn token(&self) -> Token"])] ∧
      (emittedMethod? (ModuleIndex.ofItems items) "fn token(&self) -> Token").bind Method.output =
        some (.external "Token") := by
  have evaluated : (parse? nestedSource).bind (fun items =>
      ((tableOf items).compile {} "self" "Root").toOption.bind fun s =>
        (Aggregate.ofStack s (tableOf items) {}).toOption.map fun a =>
          (s.orderedComponents.map Component.implementation,
            ((tableOf items).interface? ⟨"self::inner", "Auth"⟩).map Interface.methods,
            a.impls.map fun impl => (impl.contract, impl.methods.map Delegate.signature),
            (emittedMethod? (ModuleIndex.ofItems items) "fn token(&self) -> Token").bind
              Method.output)) =
      some ([⟨"self::inner", "AuthMiddleware"⟩],
        some [{ name := "token", output := some (.declared ⟨"self::inner", "Token"⟩)
                rendered := "fn token(&self) -> Token" }],
        [(⟨"self::inner", "Auth"⟩, ["fn token(&self) -> Token"])], some (.external "Token")) := by
    decide +kernel
  obtain ⟨items, read, evaluated⟩ := Option.bind_eq_some_iff.mp evaluated
  obtain ⟨s, compiled, evaluated⟩ := exists_ok_of_bind evaluated
  obtain ⟨a, rendered, shown⟩ := exists_ok_of_read evaluated
  simp only [Prod.mk.injEq] at shown
  exact ⟨items, s, a, read, compiled, rendered, shown⟩

theorem nested_types_mean_iff :
    ∃ items s a, parse? nestedSource = some items ∧
      (tableOf items).compile {} "self" "Root" = .ok s ∧
      Aggregate.ofStack s (tableOf items) {} = .ok a ∧
      (∀ impl ∈ a.impls, ForwardsAsWritten items impl) ∧
      ∃ comp, s.orderedComponents = [comp] ∧ RequestAsWritten items comp a.requestParam := by
  obtain ⟨items, s, a, read, compiled, rendered, ordered, _⟩ := nested_generates
  obtain ⟨comp, single, _⟩ := List.map_eq_singleton_iff.mp ordered
  obtain ⟨forwards, request⟩ := emitted_types_mean_iff read compiled rendered
  exact ⟨items, s, a, read, compiled, rendered, forwards, comp, single,
    request comp (by rw [single, List.head?_cons])⟩

/-- The type of an inner module is emitted as it is written there, and names nothing of the file at
the top level. -/
theorem moved_type_changes :
    ∃ items s a, parse? nestedSource = some items ∧
      (tableOf items).compile {} "self" "Root" = .ok s ∧
      Aggregate.ofStack s (tableOf items) {} = .ok a ∧
      ∃ i m impl d, (tableOf items).interface? ⟨"self::inner", "Auth"⟩ = some i ∧ i.methods = [m] ∧
        impl ∈ a.impls ∧ impl.contract = ⟨"self::inner", "Auth"⟩ ∧ impl.methods = [d] ∧
        ¬KeepsMeaning (ModuleIndex.ofItems items) m d.signature := by
  obtain ⟨items, s, a, read, compiled, rendered, _, recorded, emitted, meaning⟩ := nested_generates
  obtain ⟨i, declared, methods⟩ := Option.map_eq_some_iff.mp recorded
  obtain ⟨impl, impls, same⟩ := List.map_eq_singleton_iff.mp emitted
  obtain ⟨contract, signatures⟩ := Prod.mk.inj same
  obtain ⟨d, delegates, signature⟩ := List.map_eq_singleton_iff.mp signatures
  have member : impl ∈ a.impls := by simp [impls]
  refine ⟨items, s, a, read, compiled, rendered, i, _, impl, d, declared, methods, member, contract,
    delegates, ?_⟩
  rintro ⟨m, found, _, output⟩
  rw [signature] at found
  rw [found, Option.bind_some, output] at meaning
  cases meaning

end MiddlewareStack
