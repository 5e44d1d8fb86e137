import MiddlewareStack.Proofs.ContractImpls

/-!
# Implementations are closed under embedding

An aggregate implements its stacks, the capabilities of its fields, and what these reach along
embeds. The walk that makes the implementations passes over a contract as soon as it has been met,
which may be long before its turn; that nothing is lost by this is said here with a relation for the
walk that knows no bound on its depth.
-/

namespace MiddlewareStack.Aggregate

open Relation

variable {t : Table}

namespace Progress

def meet (p : Progress) (name : QualifiedName) : Progress :=
  { p with handled := name :: p.handled }

def emit (p : Progress) (impl : ContractImpl) : Progress :=
  { p with impls := p.impls ++ [impl] }

@[simp] theorem contracts_emit (p : Progress) (impl : ContractImpl) :
    (p.emit impl).contracts = p.contracts ++ [impl.contract] := by
  simp [contracts, emit]

end Progress

/-- All methods of a contract are forwarded to one field. -/
structure Forwards (t : Table) (field : Field) (impl : ContractImpl) (i : Interface) : Prop where
  declared : t.interface? impl.contract = some i
  methods : i.methods.mapM (delegate impl.contract field) = .ok impl.methods

/-- The walk over some embedded names. What is new and an interface is implemented by the field,
and then what it embeds. -/
inductive Emits (t : Table) (field : Field) : List QualifiedName → Progress → Progress → Prop
  | done (p : Progress) : Emits t field [] p p
  | pass {name : QualifiedName} {rest : List QualifiedName} {p p' : Progress}
      (passed : name ∈ p.handled ∨ t.interface? name = none) (others : Emits t field rest p p') :
      Emits t field (name :: rest) p p'
  | emit {impl : ContractImpl} {i : Interface} {rest : List QualifiedName}
      {p middle p' : Progress} (new : impl.contract ∉ p.handled)
      (forwards : Forwards t field impl i)
      (inner : Emits t field i.declaredEmbeds ((p.meet impl.contract).emit impl) middle)
      (others : Emits t field rest middle p') : Emits t field (impl.contract :: rest) p p'

/-- The walk from a contract that has been met. -/
def EmitsFrom (t : Table) (field : Field) (name : QualifiedName) (p p' : Progress) : Prop :=
  ∃ impl i, impl.contract = name ∧ Forwards t field impl i ∧
    Emits t field i.declaredEmbeds (p.emit impl) p'

section Bounded

variable {field : Field} {depth : Nat} {names : List QualifiedName} {p p' : Progress}

/-- A walk forgets nothing that it has met. -/
theorem Emits.handled_subset (h : Emits t field names p p') : p.handled ⊆ p'.handled := by
  induction h with
  | done => exact List.Subset.refl _
  | pass _ _ ih => exact ih
  | emit _ _ _ _ inner others =>
    intro x met
    exact others (inner (List.mem_cons_of_mem _ met))

/-- Where every symbol of the table has been met, there is nothing left to do. -/
theorem passed_of_unmet_eq_zero (all : t.unmet p.handled = 0) (name : QualifiedName) :
    name ∈ p.handled ∨ t.interface? name = none := by
  by_contra unmet
  obtain ⟨new, isInterface⟩ := not_or.mp unmet
  obtain ⟨i, found⟩ := Option.ne_none_iff_exists'.mp isInterface
  have fewer := Table.unmet_lt (List.subset_cons_self name p.handled) List.mem_cons_self new
    (Table.lookup_isSome_of_interface? found)
  omega

theorem Emits.of_unmet_eq_zero (all : t.unmet p.handled = 0) : Emits t field names p p := by
  induction names with
  | nil => exact .done p
  | cons name rest ih => exact .pass (passed_of_unmet_eq_zero all name) ih

theorem visitEmbeds_emits {visit : QualifiedName → Progress → Except Fault Progress}
    (emits : ∀ name p p', t.unmet p.handled < depth → visit name p = .ok p' →
      EmitsFrom t field name p p')
    (bound : t.unmet p.handled < depth + 1) (h : visitEmbeds t visit names p = .ok p') :
    Emits t field names p p' := by
  induction names generalizing p with
  | nil =>
    cases h
    exact .done _
  | cons name rest ih =>
    rw [visitEmbeds] at h
    split at h
    · next passed =>
      exact .pass (by simpa using passed) (ih bound h)
    · next unmet =>
      obtain ⟨new, isInterface⟩ : name ∉ p.handled ∧ (t.interface? name).isSome := by
        simpa [Option.isSome_iff_ne_none] using unmet
      obtain ⟨middle, visited, after⟩ := bind_eq_ok.mp h
      have deeper : t.unmet (p.meet name).handled < depth :=
        Table.unmet_lt_depth (List.subset_cons_self ..) List.mem_cons_self new isInterface bound
      obtain ⟨impl, i, rfl, forwards, inner⟩ := emits name (p.meet name) middle deeper visited
      have kept : t.unmet middle.handled ≤ t.unmet (p.meet impl.contract).handled :=
        Table.unmet_le inner.handled_subset
      exact .emit new forwards inner (ih (by omega) after)

/-- The bounded walk does all of the walk, as long as it may go deep enough. -/
theorem implement_emits (field : Field) : ∀ depth name p p', t.unmet p.handled < depth + 1 →
    implement t field depth name p = .ok p' → EmitsFrom t field name p p'
  | 0, name, p, p', bound, h => by
    simp only [implement, bind_eq_ok] at h
    obtain ⟨i, declared, methods, delegated, h⟩ := h
    cases h
    -- no embed is visited at this depth, but none is left to visit
    have all : t.unmet p.handled = 0 := by omega
    exact ⟨⟨name, methods⟩, i, rfl, ⟨interfaceOf_eq_ok.mp declared, delegated⟩,
      .of_unmet_eq_zero all⟩
  | depth + 1, name, p, p', bound, h => by
    simp only [implement, bind_eq_ok] at h
    obtain ⟨i, declared, methods, delegated, h⟩ := h
    exact ⟨⟨name, methods⟩, i, rfl, ⟨interfaceOf_eq_ok.mp declared, delegated⟩,
      visitEmbeds_emits (implement_emits field depth) bound h⟩

end Bounded

/-- What has happened between `p` and `p'`: contracts that `starts` reach were implemented, nothing
was met without being implemented, and all that they embed was met. -/
structure Spreads (t : Table) (starts : List QualifiedName) (p p' : Progress) : Prop where
  handled : p.handled ⊆ p'.handled
  kept : p.contracts ⊆ p'.contracts
  implemented : ∀ name ∈ p'.handled, name ∈ p.handled ∨ name ∈ p'.contracts
  closed : ∀ name ∈ p'.contracts,
    name ∈ p.contracts ∨ ∀ d, t.EmbedsCapability name d → d ∈ p'.handled
  reached : ∀ name ∈ p'.contracts, name ∈ p.contracts ∨ ∃ start ∈ starts,
    (t.interface? start).isSome ∧ ReflTransGen t.EmbedsCapability start name

namespace Spreads

variable {p p' p'' : Progress} {starts starts' : List QualifiedName}

theorem refl (p : Progress) : Spreads t starts p p :=
  ⟨List.Subset.refl _, List.Subset.refl _, fun _ => .inl, fun _ => .inl, fun _ => .inl⟩

theorem mono (h : Spreads t starts p p') (more : starts ⊆ starts') : Spreads t starts' p p' :=
  { h with
    reached := fun name member => (h.reached name member).imp_right fun ⟨start, isStart, path⟩ =>
      ⟨start, more isStart, path⟩ }

theorem trans (h : Spreads t starts p p') (h' : Spreads t starts p' p'') :
    Spreads t starts p p'' where
  handled := List.Subset.trans h.handled h'.handled
  kept := List.Subset.trans h.kept h'.kept
  implemented name met := by
    rcases h'.implemented name met with earlier | done
    · exact (h.implemented name earlier).imp_right (h'.kept ·)
    · exact .inr done
  closed name member := by
    rcases h'.closed name member with earlier | closed
    · exact (h.closed name earlier).imp_right fun closed d embedded =>
        h'.handled (closed d embedded)
    · exact .inr closed
  reached name member := by
    rcases h'.reached name member with earlier | path
    · exact h.reached name earlier
    · exact .inr path

/-- A contract is implemented, and then what its embeds reach. -/
theorem emit {impl : ContractImpl} {i : Interface} (declared : t.interface? impl.contract = some i)
    (inner : Spreads t i.declaredEmbeds (p.emit impl) p')
    (covers : ∀ d ∈ i.declaredEmbeds, (t.interface? d).isSome → d ∈ p'.handled) :
    Spreads t [impl.contract] p p' ∧ impl.contract ∈ p'.contracts := by
  have own : impl.contract ∈ p'.contracts := inner.kept (by simp)
  have isInterface : (t.interface? impl.contract).isSome := by simp [declared]
  have before : ∀ name ∈ (p.emit impl).contracts, name ∈ p.contracts ∨ name = impl.contract := by
    simp
  refine ⟨⟨inner.handled, fun name old => inner.kept (by simp [old]), inner.implemented,
    fun name member => ?_, fun name member => ?_⟩, own⟩
  · rcases inner.closed name member with earlier | closed
    · rcases before name earlier with old | rfl
      · exact .inl old
      · refine .inr fun d embedded => ?_
        obtain ⟨contract, found, named, isCapability⟩ := embedded
        cases declared.symm.trans found
        exact covers d (Table.mem_declaredEmbeds.mpr named) isCapability
    · exact .inr closed
  · rcases inner.reached name member with earlier | ⟨d, embedded, isCapability, path⟩
    · rcases before name earlier with old | rfl
      · exact .inl old
      · exact .inr ⟨_, List.mem_singleton_self _, isInterface, .refl⟩
    · have step : t.EmbedsCapability impl.contract d :=
        ⟨i, declared, Table.mem_declaredEmbeds.mp embedded, isCapability⟩
      exact .inr ⟨_, List.mem_singleton_self _, isInterface, .head step path⟩

/-- That a contract was met just before it was implemented makes no difference. -/
theorem of_meet {name : QualifiedName} (h : Spreads t starts (p.meet name) p')
    (implemented : name ∈ p'.contracts) : Spreads t starts p p' where
  handled x old := h.handled (List.mem_cons_of_mem _ old)
  kept := h.kept
  implemented x met := by
    rcases h.implemented x met with earlier | done
    · rcases List.mem_cons.mp earlier with rfl | old
      · exact .inr implemented
      · exact .inl old
    · exact .inr done
  closed := h.closed
  reached := h.reached

end Spreads

section Walk

variable {field : Field} {names : List QualifiedName} {p p' : Progress}

theorem Emits.spreads (h : Emits t field names p p') :
    Spreads t names p p' ∧ ∀ d ∈ names, (t.interface? d).isSome → d ∈ p'.handled := by
  induction h with
  | done => exact ⟨.refl _, by simp⟩
  | @pass name rest p p' passed others ih =>
    obtain ⟨spreads, covers⟩ := ih
    refine ⟨spreads.mono (List.subset_cons_self ..), List.forall_mem_cons.mpr ⟨?_, covers⟩⟩
    intro isInterface
    rcases passed with met | absent
    · exact spreads.handled met
    · simp [absent] at isInterface
  | @emit impl i rest p middle p' new forwards inner others ihInner ihOthers =>
    obtain ⟨inside, insideCovers⟩ := ihInner
    obtain ⟨after, afterCovers⟩ := ihOthers
    obtain ⟨first, implemented⟩ := Spreads.emit forwards.declared inside insideCovers
    have here : impl.contract ∈ p'.handled := after.handled (first.handled List.mem_cons_self)
    refine ⟨?_, List.forall_mem_cons.mpr ⟨fun _ => here, afterCovers⟩⟩
    exact ((first.of_meet implemented).mono (by simp)).trans
      (after.mono (List.subset_cons_self ..))

theorem EmitsFrom.spreads {name : QualifiedName} (h : EmitsFrom t field name p p') :
    Spreads t [name] p p' ∧ name ∈ p'.contracts := by
  obtain ⟨impl, i, rfl, forwards, walk⟩ := h
  exact Spreads.emit forwards.declared walk.spreads.1 walk.spreads.2

/-- All fields together implement what their capabilities reach. -/
theorem implementAll_spreads {fields : List Field} {p p' : Progress}
    (h : implementAll t fields p = .ok p') :
    Spreads t (fields.map Field.capability) p p' ∧
      ∀ field ∈ fields, field.capability ∈ p'.contracts := by
  induction fields generalizing p with
  | nil =>
    cases h
    exact ⟨.refl _, by simp⟩
  | cons field rest ih =>
    rw [implementAll, bind_eq_ok] at h
    obtain ⟨middle, implemented, after⟩ := h
    have bound : t.unmet p.handled < t.symbolCount + 1 :=
      Nat.lt_succ_of_le (t.unmet_nil ▸ Table.unmet_le (List.nil_subset _))
    obtain ⟨first, own⟩ := (implement_emits field _ _ _ _ bound implemented).spreads
    obtain ⟨others, owns⟩ := ih after
    refine ⟨?_, List.forall_mem_cons.mpr ⟨others.kept own, owns⟩⟩
    rw [List.map_cons]
    exact (first.mono (by simp)).trans (others.mono (List.subset_cons_self ..))

end Walk

/-- Everything that the aggregate implements, as a stack or by forwarding. -/
def contracts (a : Aggregate) : List QualifiedName :=
  a.markers ++ a.impls.map ContractImpl.contract

end MiddlewareStack.Aggregate

namespace MiddlewareStack

open Relation Aggregate

variable {t : Table} {c : Conventions} {root : QualifiedName} {s : CompiledStack} {config : Config}
  {a : Aggregate}

/-- The contracts that a stack names: its root, the bundles of its steps and the capabilities of its
components. -/
inductive CompiledStack.Names (s : CompiledStack) : QualifiedName → Prop
  | root : s.Names s.pipeline.target
  | bundle {step : Step} {stack : QualifiedName} (member : step ∈ s.pipeline.steps)
      (taken : step.bundle = some stack) : s.Names stack
  | capability {comp : Component} (member : comp ∈ s.graph.components) : s.Names comp.capability

theorem CompiledFrom.names_iff (h : CompiledFrom t c root s) {name : QualifiedName} :
    s.Names name ↔
      IsStack s.graph name ∨ ∃ comp ∈ s.graph.components, comp.capability = name := by
  have target : s.pipeline.target = s.graph.root := h.target_eq.trans h.root_eq.symm
  have bundles : ∀ stack, (∃ step ∈ s.pipeline.steps, step.bundle = some stack) ↔
      ∃ comp ∈ s.graph.components, comp.bundle = some stack := by
    intro stack
    rw [← List.mem_filterMap, h.bundles_eq, List.mem_filterMap]
  constructor
  · rintro (_ | ⟨member, taken⟩ | member)
    · exact .inl (.inl target)
    · exact .inl (.inr ((bundles name).mp ⟨_, member, taken⟩))
    · exact .inr ⟨_, member, rfl⟩
  · rintro ((rfl | taken) | ⟨comp, member, rfl⟩)
    · exact target ▸ .root
    · obtain ⟨step, member, taken⟩ := (bundles name).mpr taken
      exact .bundle member taken
    · exact .capability member

/-- Everything that a stack names is a contract of the table it was compiled from. -/
theorem CompiledFrom.names_contract (h : CompiledFrom t c root s) {name : QualifiedName}
    (named : s.Names name) : (t.interface? name).isSome := by
  rcases h.names_iff.mp named with (rfl | ⟨comp, member, taken⟩) | ⟨comp, member, rfl⟩
  · exact h.root_eq ▸ h.contract
  · obtain ⟨id, present⟩ := DependencyGraph.mem_components.mp member
    exact Table.resolve_bundle_interface (h.settled.settled id comp present).resolved taken
  · obtain ⟨id, present⟩ := DependencyGraph.mem_components.mp member
    exact Table.resolve_interface (h.settled.settled id comp present).resolved

/-- What a stack contract embeds is the capability of a component. -/
theorem CompiledFrom.embedded_capability (h : CompiledFrom t c root s) {stack d : QualifiedName}
    (isStack : IsStack s.graph stack) (embedded : t.EmbedsCapability stack d) :
    ∃ comp ∈ s.graph.components, comp.capability = d := by
  have required : t.RequiredStack c root stack := by
    rcases isStack with rfl | ⟨comp, member, taken⟩
    · exact .inl h.root_eq
    · obtain ⟨id, present⟩ := DependencyGraph.mem_components.mp member
      have settled := h.settled.settled id comp present
      exact .inr ⟨comp.capability, settled.required, _, settled.resolved, taken⟩
  obtain ⟨id, named⟩ := h.capability_iff_required.mpr (required.required embedded)
  obtain ⟨comp, present, same⟩ := Option.map_eq_some_iff.mp named
  exact ⟨comp, DependencyGraph.mem_components.mpr ⟨id, present⟩, same⟩

/-- The walk over all fields of an aggregate, whose capabilities it implements. -/
theorem Aggregate.fields_spread (compiled : CompiledFrom t c root s)
    (h : ofStack s t config = .ok a) :
    ∃ progress, a.impls.map ContractImpl.contract = progress.contracts ∧
      Spreads t (s.graph.components.map Component.capability)
        { handled := s.graph.components.map Component.capability ++ a.markers } progress ∧
      ∀ comp ∈ s.graph.components, comp.capability ∈ progress.contracts := by
  obtain ⟨_, _, progress, implemented, impls⟩ := ofStack_eq_ok h
  obtain ⟨spreads, owns⟩ := implementAll_spreads implemented
  have capabilities := capabilities_eq compiled h
  refine ⟨progress, by rw [impls, Progress.contracts], capabilities ▸ spreads, ?_⟩
  intro comp member
  have listed : comp.capability ∈ a.fields.map Field.capability :=
    capabilities ▸ List.mem_map_of_mem member
  obtain ⟨field, isField, same⟩ := List.mem_map.mp listed
  exact same ▸ owns field isField

/-- The walk over the fields leaves out nothing that it has met: the stacks are marked, and all else
is implemented by a field. -/
theorem Aggregate.contracts_spec (compiled : CompiledFrom t c root s)
    (h : ofStack s t config = .ok a) :
    (∀ name, s.Names name → name ∈ a.contracts) ∧
    (∀ name ∈ a.contracts, ∃ start, s.Names start ∧ ReflTransGen t.EmbedsCapability start name) ∧
    ∀ name ∈ a.contracts, ∀ d, t.EmbedsCapability name d → d ∈ a.contracts := by
  obtain ⟨_, _, isMarker⟩ := markers_spec compiled h
  obtain ⟨progress, forwarded, spreads, owns⟩ := fields_spread compiled h
  have capability : ∀ comp ∈ s.graph.components, comp.capability ∈ a.contracts :=
    fun comp member => List.mem_append_right _ (forwarded ▸ owns comp member)
  have met : ∀ name ∈ progress.handled, name ∈ a.contracts := by
    intro name met
    rcases spreads.implemented name met with before | done
    · rcases List.mem_append.mp before with isCapability | isStack
      · obtain ⟨comp, member, rfl⟩ := List.mem_map.mp isCapability
        exact capability comp member
      · exact List.mem_append_left _ isStack
    · exact List.mem_append_right _ (forwarded ▸ done)
  refine ⟨fun name named => ?_, fun name member => ?_, fun name member d embedded => ?_⟩
  · rcases compiled.names_iff.mp named with isStack | ⟨comp, member, rfl⟩
    · exact List.mem_append_left _ ((isMarker name).mpr isStack)
    · exact capability comp member
  · rcases List.mem_append.mp member with marked | done
    · exact ⟨name, compiled.names_iff.mpr (.inl ((isMarker name).mp marked)), .refl⟩
    · rcases spreads.reached name (forwarded ▸ done) with before | ⟨start, isStart, _, path⟩
      · simp [Progress.contracts] at before
      · obtain ⟨comp, member, rfl⟩ := List.mem_map.mp isStart
        exact ⟨comp.capability, .capability member, path⟩
  · rcases List.mem_append.mp member with marked | done
    -- a stack is not walked through: what it embeds is the capability of some other field
    · obtain ⟨comp, member, rfl⟩ :=
        compiled.embedded_capability ((isMarker name).mp marked) embedded
      exact capability comp member
    · rcases spreads.closed name (forwarded ▸ done) with before | closed
      · simp [Progress.contracts] at before
      · exact met d (closed d embedded)

/-- An aggregate implements what its stack names and all that this reaches along embeds, and nothing
else. -/
theorem implemented_iff_reachable {scope name : String} (compiled : t.compile c scope name = .ok s)
    (rendered : Aggregate.ofStack s t config = .ok a) :
    (∀ contract, contract ∈ a.contracts ↔
      ∃ start, s.Names start ∧ ReflTransGen t.EmbedsCapability start contract) ∧
    ∀ contract ∈ a.contracts, ∀ d, t.EmbedsCapability contract d → d ∈ a.contracts := by
  obtain ⟨package, _, result⟩ := Table.compile_ok compiled
  obtain ⟨named, reached, closed⟩ := Aggregate.contracts_spec result rendered
  refine ⟨fun contract => ⟨reached contract, ?_⟩, closed⟩
  rintro ⟨start, isStart, path⟩
  induction path with
  | refl => exact named start isStart
  | tail _ step ih => exact closed _ ih _ step

/-- A contract that two capabilities embed, and that is embedded in what it embeds itself. -/
def ownedDiamond : Table :=
  (namedDiamond.addStack "Named" ["Owned"]).addStack "Owned" ["Named"]

theorem owned_diamond_implements_reachable :
    ∃ a, ownedDiamond.compile {} "self" "Root" = .ok (.ofRange diamondGraph) ∧
      Aggregate.ofStack (.ofRange diamondGraph) ownedDiamond {} = .ok a ∧
      a.contracts.map (·.name) = ["Root", "ADeps", "BDeps", "Shared", "A", "Named", "Owned", "B"] ∧
      ∀ contract, contract ∈ a.contracts ↔
        ∃ start, (CompiledStack.ofRange diamondGraph).Names start ∧
          ReflTransGen ownedDiamond.EmbedsCapability start contract := by
  have compiled : ownedDiamond.compile {} "self" "Root" = .ok (.ofRange diamondGraph) := by
    decide +kernel
  have evaluated : (Aggregate.ofStack (.ofRange diamondGraph) ownedDiamond {}).toOption.map
      (fun a => a.contracts.map (·.name)) =
        some ["Root", "ADeps", "BDeps", "Shared", "A", "Named", "Owned", "B"] := by decide +kernel
  obtain ⟨a, rendered, named⟩ := exists_ok_of_read evaluated
  exact ⟨a, compiled, rendered, named, (implemented_iff_reachable compiled rendered).1⟩

end MiddlewareStack
