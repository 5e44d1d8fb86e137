import MiddlewareStack.Aggregate
import MiddlewareStack.Proofs.DiscoveryOrder

/-!
# The contracts that an aggregate implements

Stack contracts are marked as implemented, each once. The other implementations forward to fields:
one for the capability of each field, and one for every further contract that is met on the way,
each of them once. A contract is implemented twice only where a capability is a stack as well.
-/

namespace MiddlewareStack.Aggregate

theorem bind_eq_ok {ε α β : Type} {step : Except ε α} {next : α → Except ε β} {value : β} :
    (step >>= next) = .ok value ↔ ∃ first, step = .ok first ∧ next first = .ok value := by
  cases step with
  | error e => simp [bind, Except.bind]
  | ok first => simp [bind, Except.bind]

/-- A computation has succeeded if something can be read off its result. -/
theorem exists_ok_of_read {ε α β : Type} {computed : Except ε α} {read : α → β} {value : β}
    (h : computed.toOption.map read = some value) : ∃ a, computed = .ok a ∧ read a = value := by
  cases computed with
  | error e => simp [Except.toOption] at h
  | ok a => exact ⟨a, rfl, by simpa [Except.toOption] using h⟩

theorem exists_ok_of_bind {ε α β : Type} {computed : Except ε α} {read : α → Option β} {value : β}
    (h : computed.toOption.bind read = some value) :
    ∃ a, computed = .ok a ∧ read a = some value := by
  cases computed with
  | error e => simp [Except.toOption] at h
  | ok a => exact ⟨a, rfl, by simpa [Except.toOption] using h⟩

variable {t : Table}

theorem interfaceOf_eq_ok {name : QualifiedName} {i : Interface} :
    interfaceOf t name = .ok i ↔ t.interface? name = some i := by
  unfold interfaceOf
  cases t.interface? name <;> simp

/-- A contract without methods of its own. -/
def EmbedsOnly (t : Table) (stack : QualifiedName) : Prop :=
  ∃ i, t.interface? stack = some i ∧ i.methods = []

/-- The stack contracts are those asked for, each once, and none has a method. -/
theorem stackContracts_spec {listed : List QualifiedName} :
    ∀ {found markers : List QualifiedName}, stackContracts t found listed = .ok markers →
      found.Nodup → (∀ stack ∈ found, EmbedsOnly t stack) →
      markers.Nodup ∧ (∀ stack ∈ markers, EmbedsOnly t stack) ∧
        ∀ stack, stack ∈ markers ↔ stack ∈ found ∨ stack ∈ listed := by
  induction listed with
  | nil =>
    intro found markers h nodup embedsOnly
    cases h
    exact ⟨nodup, embedsOnly, by simp⟩
  | cons stack rest ih =>
    intro found markers h nodup embedsOnly
    unfold stackContracts at h
    by_cases again : stack ∈ found
    · rw [if_pos again] at h
      obtain ⟨nodup', embedsOnly', members⟩ := ih h nodup embedsOnly
      refine ⟨nodup', embedsOnly', fun x => ?_⟩
      rw [members, List.mem_cons]
      constructor
      · exact Or.imp id .inr
      · rintro (old | rfl | later)
        · exact .inl old
        · exact .inl again
        · exact .inr later
    · rw [if_neg again, bind_eq_ok] at h
      obtain ⟨i, declared, h⟩ := h
      cases methods : i.methods with
      | cons m others => simp [methods] at h
      | nil =>
        simp only [methods] at h
        have isNew : (found ++ [stack]).Nodup := by
          refine List.nodup_append.mpr ⟨nodup, by simp, fun x old y last => ?_⟩
          rw [List.mem_singleton.mp last]
          exact fun same => again (same ▸ old)
        have noMethods : EmbedsOnly t stack := ⟨i, interfaceOf_eq_ok.mp declared, methods⟩
        obtain ⟨nodup', embedsOnly', members⟩ := ih h isNew
          (List.forall_mem_append.mpr ⟨embedsOnly, List.forall_mem_singleton.mpr noMethods⟩)
        refine ⟨nodup', embedsOnly', fun x => ?_⟩
        rw [members, List.mem_append, List.mem_singleton, List.mem_cons, or_assoc]

namespace Progress

def contracts (p : Progress) : List QualifiedName :=
  p.impls.map ContractImpl.contract

/-- `fresh` are contracts handled between `p` and `p'`, each of them once. -/
structure Meets (p p' : Progress) (fresh : List QualifiedName) : Prop where
  nodup : fresh.Nodup
  new : ∀ name ∈ fresh, name ∉ p.handled
  handled : p.handled ⊆ p'.handled
  met : fresh ⊆ p'.handled

namespace Meets

variable {p p' p'' : Progress} {first second : List QualifiedName}

theorem refl (p : Progress) : Meets p p [] :=
  ⟨.nil, by simp, List.Subset.refl _, by simp⟩

theorem trans (h : Meets p p' first) (h' : Meets p' p'' second) :
    Meets p p'' (first ++ second) where
  nodup := by
    refine List.nodup_append.mpr ⟨h.nodup, h'.nodup, fun name earlier other later same => ?_⟩
    subst same
    exact h'.new name later (h.met earlier)
  new name member := by
    rcases List.mem_append.mp member with earlier | later
    · exact h.new name earlier
    · exact fun old => h'.new name later (h.handled old)
  handled := List.Subset.trans h.handled h'.handled
  met := List.append_subset.mpr ⟨List.Subset.trans h.met h'.handled, h'.met⟩

theorem single {name : QualifiedName} (new : name ∉ p.handled) :
    Meets p { p with handled := name :: p.handled } [name] where
  nodup := by simp
  new := by simpa using new
  handled := List.subset_cons_self ..
  met := by simp

end Meets

end Progress

/-- `visit` implements the contract it is given, and then contracts that it meets for the first
time. -/
def ImplementsOnce (visit : QualifiedName → Progress → Except Fault Progress) : Prop :=
  ∀ name p p', visit name p = .ok p' →
    ∃ fresh, p'.contracts = p.contracts ++ name :: fresh ∧ p.Meets p' fresh

/-- Embedded contracts are implemented when they are met for the first time, and not again. -/
theorem visitEmbeds_meets {visit : QualifiedName → Progress → Except Fault Progress}
    (once : ImplementsOnce visit) {names : List QualifiedName} {p p' : Progress}
    (h : visitEmbeds t visit names p = .ok p') :
    ∃ fresh, p'.contracts = p.contracts ++ fresh ∧ p.Meets p' fresh := by
  induction names generalizing p with
  | nil =>
    cases h
    exact ⟨[], by simp, .refl _⟩
  | cons name rest ih =>
    rw [visitEmbeds] at h
    split at h
    · exact ih h
    · next unmet =>
      have new : name ∉ p.handled := fun old => unmet (by simp [old])
      obtain ⟨middle, visited, h⟩ := bind_eq_ok.mp h
      obtain ⟨inner, contracts, meets⟩ := once _ _ _ visited
      obtain ⟨later, contracts', meets'⟩ := ih h
      refine ⟨[name] ++ inner ++ later, ?_, ((Progress.Meets.single new).trans meets).trans meets'⟩
      rw [contracts', contracts]
      simp [Progress.contracts]

theorem implement_once (field : Field) : ∀ depth, ImplementsOnce (implement t field depth)
  | 0 => by
    intro name p p' h
    simp only [implement, bind_eq_ok] at h
    obtain ⟨i, _, methods, _, h⟩ := h
    cases h
    exact ⟨[], by simp [Progress.contracts], { Progress.Meets.refl p with }⟩
  | depth + 1 => by
    intro name p p' h
    simp only [implement, bind_eq_ok] at h
    obtain ⟨i, _, methods, _, h⟩ := h
    obtain ⟨fresh, contracts, meets⟩ := visitEmbeds_meets (implement_once field depth) h
    refine ⟨fresh, ?_, { meets with }⟩
    rw [contracts]
    simp [Progress.contracts]

/-- All fields together: their capabilities, and contracts that are met for the first time. -/
theorem implementAll_meets {fields : List Field} {p p' : Progress}
    (h : implementAll t fields p = .ok p') :
    ∃ fresh, p'.contracts.Perm (p.contracts ++ fields.map Field.capability ++ fresh) ∧
      p.Meets p' fresh := by
  induction fields generalizing p with
  | nil =>
    cases h
    exact ⟨[], by simp, .refl _⟩
  | cons field rest ih =>
    rw [implementAll, bind_eq_ok] at h
    obtain ⟨middle, implemented, h⟩ := h
    obtain ⟨first, contracts, meets⟩ := implement_once field t.symbolCount _ _ _ implemented
    obtain ⟨later, permuted, meets'⟩ := ih h
    refine ⟨first ++ later, permuted.trans ?_, meets.trans meets'⟩
    rw [contracts, List.map_cons]
    simp only [List.append_assoc, List.cons_append]
    refine (List.perm_append_left_iff p.contracts).mpr (.cons _ ?_)
    rw [← List.append_assoc, ← List.append_assoc]
    exact (List.perm_append_comm).append_right later

end MiddlewareStack.Aggregate

namespace MiddlewareStack

open Aggregate

variable {t : Table} {c : Conventions} {root : QualifiedName} {s : CompiledStack} {config : Config}
  {a : Aggregate}

namespace CompiledFrom

theorem orderedComponents_eq (h : CompiledFrom t c root s) :
    s.orderedComponents = s.graph.components := by
  rw [h.discovered]
  exact filterMap_getElem?_range s.graph.components

/-- What a step has from its component alone stands in the order of the components. -/
theorem map_steps (h : CompiledFrom t c root s) {β : Type} {ofStep : Step → β}
    {ofComponent : Component → β}
    (carried : ∀ i comp, ofStep (Step.ofComponent i comp) = ofComponent comp) :
    s.pipeline.steps.map ofStep = s.graph.components.map ofComponent := by
  have asPairs : (ofStep ∘ fun entry : Component × Nat => Step.ofComponent entry.2 entry.1) =
      ofComponent ∘ Prod.fst := funext fun entry => carried entry.2 entry.1
  rw [h.steps_eq, List.mapIdx_eq_zipIdx_map, List.map_map, asPairs, ← List.map_map,
    List.zipIdx_map_fst]

theorem bundles_eq (h : CompiledFrom t c root s) :
    s.pipeline.steps.filterMap Step.bundle = s.graph.components.filterMap Component.bundle := by
  have bundles : s.pipeline.steps.map Step.bundle = s.graph.components.map Component.bundle :=
    h.map_steps fun _ _ => rfl
  simpa using congrArg (List.filterMap id) bundles

theorem invocationOrder_eq (h : CompiledFrom t c root s) :
    s.pipeline.invocationOrder = s.graph.components.map Component.key :=
  h.map_steps fun _ _ => rfl

theorem target_eq (h : CompiledFrom t c root s) : s.pipeline.target = root := by
  rw [h.discovered]
  exact h.root_eq

end CompiledFrom

namespace Aggregate

/-- The parts of an aggregate come from the walks over stacks and over fields. -/
theorem ofStack_eq_ok (h : ofStack s t config = .ok a) :
    a.fields = s.orderedComponents.map (fieldOf s.graph.components) ∧
    stackContracts t [] (s.pipeline.target :: s.pipeline.steps.filterMap Step.bundle) =
      .ok a.markers ∧
    ∃ progress,
      implementAll t a.fields
        { handled := s.graph.components.map Component.capability ++ a.markers } = .ok progress ∧
      a.impls = progress.impls := by
  simp only [ofStack, bind_eq_ok] at h
  obtain ⟨markers, marked, progress, implemented, h⟩ := h
  cases h
  exact ⟨rfl, marked, progress, implemented, rfl⟩

/-- There is one field for each component, in the order of their ids. -/
theorem fields_eq (compiled : CompiledFrom t c root s) {table : Table}
    (h : ofStack s table config = .ok a) :
    a.fields = s.graph.components.map (fieldOf s.graph.components) := by
  rw [(ofStack_eq_ok h).1, compiled.orderedComponents_eq]

theorem capabilities_eq (compiled : CompiledFrom t c root s) {table : Table}
    (h : ofStack s table config = .ok a) :
    a.fields.map Field.capability = s.graph.components.map Component.capability := by
  rw [fields_eq compiled h, List.map_map]
  rfl

/-- What stands for a stack in a compile: the root, or the bundle of a component. -/
def IsStack (g : DependencyGraph) (name : QualifiedName) : Prop :=
  name = g.root ∨ ∃ comp ∈ g.components, comp.bundle = some name

instance (g : DependencyGraph) (name : QualifiedName) : Decidable (IsStack g name) :=
  inferInstanceAs (Decidable (_ ∨ _))

theorem markers_spec (compiled : CompiledFrom t c root s) (h : ofStack s t config = .ok a) :
    a.markers.Nodup ∧ (∀ name ∈ a.markers, EmbedsOnly t name) ∧
      ∀ name, name ∈ a.markers ↔ IsStack s.graph name := by
  obtain ⟨_, marked, _⟩ := ofStack_eq_ok h
  obtain ⟨nodup, embedsOnly, members⟩ := stackContracts_spec marked .nil (by simp)
  refine ⟨nodup, embedsOnly, fun name => ?_⟩
  rw [members, compiled.bundles_eq, compiled.target_eq, ← compiled.root_eq]
  simp [IsStack]

/-- Besides the capabilities, what is implemented is neither a capability nor a stack. -/
theorem impls_spec (compiled : CompiledFrom t c root s) (h : ofStack s t config = .ok a) :
    ∃ fresh : List QualifiedName, fresh.Nodup ∧
      (a.impls.map ContractImpl.contract).Perm
        (s.graph.components.map Component.capability ++ fresh) ∧
      ∀ name ∈ fresh, name ∉ s.graph.components.map Component.capability ∧ name ∉ a.markers := by
  obtain ⟨_, _, progress, implemented, impls⟩ := ofStack_eq_ok h
  obtain ⟨fresh, permuted, meets⟩ := implementAll_meets implemented
  refine ⟨fresh, meets.nodup, ?_, fun name member => ?_⟩
  · rw [capabilities_eq compiled h] at permuted
    rw [impls]
    simpa [Progress.contracts] using permuted
  · simpa using meets.new name member

end Aggregate

/-- Neither the stacks nor the forwarded contracts are implemented twice. Together they are
implemented once each exactly if no capability stands for a stack. -/
theorem contracts_implemented_once {scope name : String} (compiled : t.compile c scope name = .ok s)
    (rendered : Aggregate.ofStack s t config = .ok a) :
    a.markers.Nodup ∧ (a.impls.map ContractImpl.contract).Nodup ∧
      ((a.markers ++ a.impls.map ContractImpl.contract).Nodup ↔
        ∀ comp ∈ s.graph.components, ¬IsStack s.graph comp.capability) := by
  obtain ⟨package, _, result⟩ := Table.compile_ok compiled
  obtain ⟨markersOnce, _, isStack⟩ := markers_spec result rendered
  obtain ⟨fresh, freshOnce, permuted, new⟩ := impls_spec result rendered
  have implsOnce : (a.impls.map ContractImpl.contract).Nodup := by
    refine permuted.nodup_iff.mpr (List.nodup_append.mpr ⟨result.settled.nodup, freshOnce, ?_⟩)
    rintro capability isCapability _ isFresh rfl
    exact (new capability isFresh).1 isCapability
  refine ⟨markersOnce, implsOnce, ?_⟩
  rw [List.nodup_append]
  constructor
  · rintro ⟨_, _, apart⟩ comp member stack
    have implemented : comp.capability ∈ a.impls.map ContractImpl.contract :=
      permuted.mem_iff.mpr (List.mem_append_left _ (List.mem_map_of_mem member))
    exact apart _ ((isStack _).mpr stack) _ implemented rfl
  · intro noStack
    refine ⟨markersOnce, implsOnce, ?_⟩
    rintro marker marked _ implemented rfl
    rcases List.mem_append.mp (permuted.mem_iff.mp implemented) with isCapability | isFresh
    · obtain ⟨comp, member, rfl⟩ := List.mem_map.mp isCapability
      exact noStack comp member ((isStack _).mp marked)
    · exact (new marker isFresh).2 marked

/-- Two capabilities that share a third one, and a contract that both of them embed. -/
def namedDiamond : Table :=
  ((diamond.addStack "A" ["Named"]).addStack "B" ["Named"]).addStack "Named" []

theorem named_diamond_implemented_once :
    ∃ a, namedDiamond.compile {} "self" "Root" = .ok (.ofRange diamondGraph) ∧
      Aggregate.ofStack (.ofRange diamondGraph) namedDiamond {} = .ok a ∧
      (a.markers.map (·.name), a.impls.map (·.contract.name)) =
        (["Root", "ADeps", "BDeps"], ["Shared", "A", "Named", "B"]) ∧
      (a.markers ++ a.impls.map ContractImpl.contract).Nodup := by
  have compiled : namedDiamond.compile {} "self" "Root" = .ok (.ofRange diamondGraph) := by
    decide +kernel
  have evaluated : (Aggregate.ofStack (.ofRange diamondGraph) namedDiamond {}).toOption.map
      (fun a => (a.markers.map (·.name), a.impls.map (·.contract.name))) =
        some (["Root", "ADeps", "BDeps"], ["Shared", "A", "Named", "B"]) := by decide +kernel
  obtain ⟨a, rendered, named⟩ := exists_ok_of_read evaluated
  exact ⟨a, compiled, rendered, named,
    (contracts_implemented_once compiled rendered).2.2.mpr (by decide +kernel)⟩

/-- A capability that another one takes as its bundle. -/
def capabilityAsBundle : Table :=
  ((Table.empty.addStack "Root" ["A", "B"]).addCapability "A" (some "B")).addCapability "B" none

/-- Such a capability is implemented as a stack and once more as a capability. -/
theorem capability_as_bundle_implemented_twice :
    ∃ s a, capabilityAsBundle.compile {} "self" "Root" = .ok s ∧
      Aggregate.ofStack s capabilityAsBundle {} = .ok a ∧
      (a.markers ++ a.impls.map ContractImpl.contract).map (·.name) = ["Root", "B", "A", "B"] ∧
      ¬(a.markers ++ a.impls.map ContractImpl.contract).Nodup := by
  have evaluated : (capabilityAsBundle.compile {} "self" "Root").toOption.map (fun s =>
      (Aggregate.ofStack s capabilityAsBundle {}).toOption.map fun a =>
        a.markers ++ a.impls.map ContractImpl.contract) =
      some (some [{ package := "self", name := "Root" }, { package := "self", name := "B" },
        { package := "self", name := "A" }, { package := "self", name := "B" }]) := by
    decide +kernel
  obtain ⟨s, compiled, read⟩ := exists_ok_of_read evaluated
  obtain ⟨a, rendered, contracts⟩ := exists_ok_of_read read
  exact ⟨s, a, compiled, rendered, by rw [contracts]; rfl, by rw [contracts]; decide⟩

end MiddlewareStack
