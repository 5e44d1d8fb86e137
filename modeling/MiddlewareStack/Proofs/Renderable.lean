import MiddlewareStack.Proofs.ForwardedCalls

/-!
# When code can be generated

Two things keep a compiled stack from having an aggregate: a stack contract with a method of its
own, and a method below a capability that consumes what it is called on. The check that a component
has passed refuses such a method by itself, but not behind another one of its name.
-/

namespace MiddlewareStack

open Relation

variable {t : Table}

namespace Aggregate

theorem stackContracts_succeeds {listed : List QualifiedName}
    (embedsOnly : ∀ stack ∈ listed, EmbedsOnly t stack) (found : List QualifiedName) :
    ∃ markers, stackContracts t found listed = .ok markers := by
  induction listed generalizing found with
  | nil => exact ⟨found, rfl⟩
  | cons stack rest ih =>
    obtain ⟨⟨i, declared, noMethods⟩, others⟩ := List.forall_mem_cons.mp embedsOnly
    unfold stackContracts
    split
    · exact ih others found
    · rw [interfaceOf_eq_ok.mpr declared]
      simpa [bind, Except.bind, noMethods] using ih others (found ++ [stack])

/-- Nothing that a contract reaches along embeds has a method that consumes what it is called on. -/
def Forwardable (t : Table) (name : QualifiedName) : Prop :=
  ∀ d j, ReflTransGen t.EmbedsCapability name d → t.interface? d = some j →
    ∀ m ∈ j.methods, m.receiver ≠ .value

theorem mapM_succeeds {ε α β : Type} {step : α → Except ε β} {items : List α}
    (each : ∀ item ∈ items, ∃ result, step item = .ok result) :
    ∃ results, items.mapM step = .ok results := by
  induction items with
  | nil => exact ⟨[], rfl⟩
  | cons first rest ih =>
    obtain ⟨⟨result, made⟩, others⟩ := List.forall_mem_cons.mp each
    obtain ⟨results, madeOthers⟩ := ih others
    exact ⟨result :: results, by simp [made, madeOthers, bind, Except.bind, pure, Except.pure]⟩

theorem Forwardable.forwards {name : QualifiedName} (h : Forwardable t name)
    (isInterface : (t.interface? name).isSome) (field : Field) :
    ∃ i methods, interfaceOf t name = .ok i ∧
      i.methods.mapM (delegate name field) = .ok methods := by
  obtain ⟨i, declared⟩ := Option.isSome_iff_exists.mp isInterface
  have each : ∀ m ∈ i.methods, ∃ d, delegate name field m = .ok d := fun m own =>
    exists_delegate_iff.mpr (h name i .refl declared m own)
  obtain ⟨methods, made⟩ := mapM_succeeds each
  exact ⟨i, methods, interfaceOf_eq_ok.mpr declared, made⟩

section Walk

variable {visit : QualifiedName → Progress → Except Fault Progress}

/-- `visit` succeeds wherever all that is reached can be forwarded. -/
def Succeeds (t : Table) (visit : QualifiedName → Progress → Except Fault Progress) : Prop :=
  ∀ name p, (t.interface? name).isSome → Forwardable t name → ∃ p', visit name p = .ok p'

theorem visitEmbeds_succeeds (visits : Succeeds t visit) {names : List QualifiedName}
    (forwardable : ∀ d ∈ names, (t.interface? d).isSome → Forwardable t d) (p : Progress) :
    ∃ p', visitEmbeds t visit names p = .ok p' := by
  induction names generalizing p with
  | nil => exact ⟨p, rfl⟩
  | cons name rest ih =>
    obtain ⟨first, others⟩ := List.forall_mem_cons.mp forwardable
    rw [visitEmbeds]
    split
    · exact ih others p
    · next unmet =>
      have isInterface : (t.interface? name).isSome := by
        cases found : t.interface? name <;> simp_all
      obtain ⟨middle, visited⟩ := visits name { p with handled := name :: p.handled } isInterface
        (first isInterface)
      rw [visited]
      exact ih others middle

theorem implement_succeeds (field : Field) : ∀ depth, Succeeds t (implement t field depth) := by
  intro depth
  induction depth with
  | zero =>
    intro name p isInterface forwardable
    obtain ⟨i, methods, declared, made⟩ := forwardable.forwards isInterface field
    simp only [implement, bind_eq_ok]
    exact ⟨_, i, declared, methods, made, rfl⟩
  | succ depth ih =>
    intro name p isInterface forwardable
    obtain ⟨i, methods, declared, made⟩ := forwardable.forwards isInterface field
    have below : ∀ d ∈ i.declaredEmbeds, (t.interface? d).isSome → Forwardable t d :=
      fun d embedded found e j path => forwardable e j (.head
        ⟨i, interfaceOf_eq_ok.mp declared, Table.mem_declaredEmbeds.mp embedded, found⟩ path)
    obtain ⟨p', visited⟩ :=
      visitEmbeds_succeeds ih below { p with impls := p.impls ++ [{ contract := name, methods }] }
    simp only [implement, bind_eq_ok]
    exact ⟨p', i, declared, methods, made, visited⟩

theorem implementAll_succeeds {fields : List Field}
    (forwardable : ∀ field ∈ fields,
      (t.interface? field.capability).isSome ∧ Forwardable t field.capability) (p : Progress) :
    ∃ p', implementAll t fields p = .ok p' := by
  induction fields generalizing p with
  | nil => exact ⟨p, rfl⟩
  | cons field rest ih =>
    obtain ⟨⟨isInterface, first⟩, others⟩ := List.forall_mem_cons.mp forwardable
    obtain ⟨middle, implemented⟩ :=
      implement_succeeds field t.symbolCount field.capability p isInterface first
    obtain ⟨p', after⟩ := ih others middle
    exact ⟨p', by rw [implementAll, bind_eq_ok]; exact ⟨middle, implemented, after⟩⟩

end Walk

end Aggregate

open Aggregate

variable {c : Conventions} {root : QualifiedName} {s : CompiledStack} {config : Config}

/-- The contracts that stand for stacks. -/
def CompiledStack.stackNames (s : CompiledStack) : List QualifiedName :=
  s.pipeline.target :: s.pipeline.steps.filterMap Step.bundle

/-- No stack contract has a method of its own. -/
def CompiledStack.OnlyEmbeds (t : Table) (s : CompiledStack) : Prop :=
  ∀ stack ∈ s.stackNames, ∀ i, t.interface? stack = some i → i.methods = []

instance (t : Table) (s : CompiledStack) : Decidable (s.OnlyEmbeds t) :=
  inferInstanceAs (Decidable (∀ stack ∈ s.stackNames, ∀ i ∈ t.interface? stack, i.methods = []))

/-- No method that the capability of a component requires consumes what it is called on. -/
def Component.Borrowed (t : Table) (comp : Component) : Prop :=
  ∀ contract, t.interface? comp.capability = some contract →
    ∀ m, t.Requires contract m → m.receiver ≠ .value

theorem Component.Borrowed.forwardable {comp : Component} (h : comp.Borrowed t) :
    Forwardable t comp.capability := by
  intro d j path found m own
  cases declared : t.interface? comp.capability with
  | none =>
    rcases ReflTransGen.cases_head path with rfl | ⟨_, ⟨_, same, _⟩, _⟩
    · cases declared.symm.trans found
    · cases declared.symm.trans same
  | some contract =>
    exact h contract declared m ((Table.requires_iff_reached declared).mpr ⟨d, j, path, found, own⟩)

/-- Where required methods of one name agree, the check has refused those that consume. -/
theorem CompiledFrom.borrowed (h : CompiledFrom t c root s) {comp : Component}
    (member : comp ∈ s.graph.components) (unambiguous : comp.Unambiguous t) : comp.Borrowed t := by
  intro contract declared m required consumes
  obtain ⟨_, first, requiredFirst, sameName, borrows⟩ := h.required_checked member declared required
  have same := unambiguous contract declared first m requiredFirst required sameName
  cases borrows.symm.trans (same.2.1.trans consumes)

namespace CompiledFrom

theorem stack_contract (h : CompiledFrom t c root s) {stack : QualifiedName}
    (listed : stack ∈ s.stackNames) : ∃ i, t.interface? stack = some i := by
  refine Option.isSome_iff_exists.mp (h.names_contract ?_)
  rcases List.mem_cons.mp listed with rfl | isBundle
  · exact .root
  · obtain ⟨step, member, taken⟩ := List.mem_filterMap.mp isBundle
    exact .bundle member taken

theorem renders (h : CompiledFrom t c root s) (embedsOnly : s.OnlyEmbeds t)
    (borrowed : ∀ comp ∈ s.graph.components, comp.Borrowed t) (config : Config) :
    ∃ a, Aggregate.ofStack s t config = .ok a := by
  have bare : ∀ stack ∈ s.stackNames, Aggregate.EmbedsOnly t stack := by
    intro stack listed
    obtain ⟨i, declared⟩ := h.stack_contract listed
    exact ⟨i, declared, embedsOnly stack listed i declared⟩
  have fields : ∀ field ∈ s.orderedComponents.map (fieldOf s.graph.components),
      (t.interface? field.capability).isSome ∧ Forwardable t field.capability := by
    rw [h.orderedComponents_eq, List.forall_mem_map]
    intro comp member
    exact ⟨h.names_contract (.capability member), (borrowed comp member).forwardable⟩
  obtain ⟨markers, marked⟩ := stackContracts_succeeds bare []
  obtain ⟨progress, implemented⟩ := implementAll_succeeds fields
    { handled := s.graph.components.map Component.capability ++ markers }
  simp only [ofStack, bind_eq_ok]
  exact ⟨_, markers, marked, progress, implemented, rfl⟩

theorem renders_only_if (h : CompiledFrom t c root s) {a : Aggregate}
    (rendered : Aggregate.ofStack s t config = .ok a) :
    s.OnlyEmbeds t ∧ ∀ comp ∈ s.graph.components, comp.Borrowed t := by
  obtain ⟨_, marked, _⟩ := ofStack_eq_ok rendered
  obtain ⟨_, embedsOnly, members⟩ := stackContracts_spec marked .nil (by simp)
  obtain ⟨named, _, closed⟩ := contracts_spec h rendered
  refine ⟨fun stack listed i declared => ?_, fun comp member contract declared m required => ?_⟩
  · obtain ⟨_, same, noMethods⟩ := embedsOnly stack ((members stack).mpr (.inr listed))
    cases declared.symm.trans same
    exact noMethods
  · obtain ⟨d, j, path, found, own⟩ := (Table.requires_iff_reached declared).mp required
    have implemented : d ∈ a.contracts := by
      clear found own
      induction path with
      | refl => exact named _ (.capability member)
      | tail _ step ih => exact closed _ ih _ step
    rcases List.mem_append.mp implemented with isMarker | isForwarded
    · obtain ⟨_, same, noMethods⟩ := embedsOnly d isMarker
      cases found.symm.trans same
      simp [noMethods] at own
    · obtain ⟨impl, among, rfl⟩ := List.mem_map.mp isForwarded
      obtain ⟨field, i, forwards⟩ := impls_forward rendered impl among
      cases found.symm.trans forwards.declared
      obtain ⟨position, bound, rfl⟩ := List.mem_iff_getElem.mp own
      have each := forall₂_of_mapM forwards.methods
      exact exists_delegate_iff.mp ⟨_, each.get bound (each.length_eq ▸ bound)⟩

end CompiledFrom

/-- Code is generated for a compiled stack exactly if its stack contracts only embed and no method
below a capability consumes what it is called on. The compiler has taken care of the latter where
required methods of one name agree. -/
theorem generates_iff {scope name : String} (compiled : t.compile c scope name = .ok s)
    (config : Config) :
    ((∃ a, Aggregate.ofStack s t config = .ok a) ↔
      s.OnlyEmbeds t ∧ ∀ comp ∈ s.graph.components, comp.Borrowed t) ∧
    ∀ comp ∈ s.graph.components, comp.Unambiguous t → comp.Borrowed t := by
  obtain ⟨package, _, result⟩ := Table.compile_ok compiled
  refine ⟨⟨fun ⟨a, rendered⟩ => result.renders_only_if rendered, fun ⟨onlyEmbeds, borrowed⟩ => ?_⟩,
    fun comp member => result.borrowed member⟩
  exact result.renders onlyEmbeds borrowed config

theorem login_generates :
    login.compile {} "self" "Root" = .ok (.ofRange loginGraph) ∧
      (∃ a, Aggregate.ofStack (.ofRange loginGraph) login {} = .ok a) ∧
      CompiledStack.OnlyEmbeds login (.ofRange loginGraph) ∧
      ∀ comp ∈ loginGraph.components, comp.Borrowed login := by
  have compiled : login.compile {} "self" "Root" = .ok (.ofRange loginGraph) := by decide +kernel
  have evaluated : (Aggregate.ofStack (.ofRange loginGraph) login {}).toOption.map
      (fun a => a.impls.length) = some 3 := by decide +kernel
  obtain ⟨a, rendered, _⟩ := exists_ok_of_read evaluated
  exact ⟨compiled, ⟨a, rendered⟩, (generates_iff compiled {}).1.mp ⟨a, rendered⟩⟩

/-- The embedded method consumes what it is called on. The compiler, which has seen the other one of
its name, accepts the stack. -/
theorem consuming_method_compiles :
    ∃ s fault, (namesakes .value).compile {} "self" "Root" = .ok s ∧
      s.OnlyEmbeds (namesakes .value) ∧
      Aggregate.ofStack s (namesakes .value) {} = .error fault ∧
      fault.messages =
        ["cannot delegate self::Named to AuthMiddleware", "token() takes self by value"] := by
  have evaluated : ((namesakes .value).compile {} "self" "Root").toOption.map (fun s =>
      (decide (s.OnlyEmbeds (namesakes .value)),
        match Aggregate.ofStack s (namesakes .value) {} with
        | .ok _ => []
        | .error fault => fault.messages)) =
      some (true,
        ["cannot delegate self::Named to AuthMiddleware", "token() takes self by value"]) := by
    decide +kernel
  obtain ⟨s, compiled, read⟩ := exists_ok_of_read evaluated
  obtain ⟨onlyEmbeds, messages⟩ := Prod.mk.inj read
  cases rendered : Aggregate.ofStack s (namesakes .value) {} with
  | ok a => simp [rendered] at messages
  | error fault =>
    simp only [rendered] at messages
    exact ⟨s, fault, compiled, of_decide_eq_true onlyEmbeds, rendered, messages⟩

end MiddlewareStack
