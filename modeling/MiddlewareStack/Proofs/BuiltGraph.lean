import MiddlewareStack.Proofs.Descent
import MiddlewareStack.Proofs.Placement

/-!
# What a finished build owes to the table

A build either fails for a reason that lies in the table, or its graph has a component for exactly
the required capabilities, each after all it depends on.
-/

namespace MiddlewareStack

open DependencyGraph

variable {t : Table} {c : Conventions} {root : QualifiedName} {g : DependencyGraph}

structure BuiltGraph (t : Table) (c : Conventions) (root : QualifiedName) (g : DependencyGraph) :
    Prop where
  root_eq : g.root = root
  contract : (t.interface? root).isSome
  exist : t.EmbedsExist root
  settled : SettledGraph t c root g
  direct : g.direct.map g.capability? = (t.capabilitiesOf root).map some

namespace DependencyGraph

/-- A build deep enough for the table succeeds with a graph for the root, or fails for a reason. -/
theorem buildWithin_spec (beyond : QualifiedName → BuildStep ComponentId) {depth : Nat}
    (deep : t.symbolCount < depth) :
    (∀ g, buildWithin t c beyond depth root = .ok g → BuiltGraph t c root g) ∧
      ∀ e, buildWithin t c beyond depth root = .error e → Failure t c root e := by
  unfold buildWithin
  cases found : t.contract root with
  | error e =>
    simp only [resolveStack, found, reduceCtorEq, false_implies, implies_true, true_and,
      Except.error.injEq]
    rintro e rfl
    exact .noContract found
  | ok contract =>
    have isInterface : (t.interface? root).isSome := Table.isSome_interface?_of_contract found
    have fromRoot : Follows t c root [] root := .root
    have answers := resolveStack_answers (resolveComponent_resolves beyond depth) .start fromRoot
      (t.unmet_nil ▸ deep) isInterface
    rcases answer : resolveStack t (resolveComponent t c beyond depth) root { graph := { root } }
      with ⟨result, s⟩
    rw [answer] at answers
    cases result with
    | error e => simpa using answers.failure
    | ok ids =>
      obtain ⟨exist, named⟩ := answers.value ids rfl
      have settled := answers.consistent.graph
      simp only [reduceCtorEq, false_implies, implies_true, and_true, Except.ok.injEq]
      rintro g rfl
      refine ⟨answers.grows.1, isInterface, exist, ?_, named⟩
      exact ⟨settled.indexed, fun id comp present => { settled.settled id comp present with }⟩

theorem build_ok (h : build t c root = .ok g) : BuiltGraph t c root g :=
  (buildWithin_spec _ (Nat.lt_succ_self _)).1 g h

theorem build_error {e : CompileError} (h : build t c root = .error e) : Failure t c root e :=
  (buildWithin_spec _ (Nat.lt_succ_self _)).2 e h

end DependencyGraph

namespace BuiltGraph

variable (h : BuiltGraph t c root g)

include h

theorem numbered : g.Numbered := fun id comp present => (h.settled.settled id comp present).id_eq

theorem smaller (id : ComponentId) (comp : Component) (present : g.get? id = some comp) :
    ∀ d ∈ comp.dependencies, d < id :=
  (h.settled.settled id comp present).smaller

theorem adjacent_lt {i j : ComponentId} (edge : j ∈ g.adjacent i) : j < i := by
  unfold adjacent at edge
  split at edge
  · next comp present => exact h.smaller i comp present j edge
  · cases edge

/-- Whatever a component depends on, through others or not, has a smaller id. -/
theorem reachable_lt {i j : ComponentId}
    (path : Relation.TransGen (fun a b => b ∈ g.adjacent a) i j) : j < i := by
  induction path with
  | single edge => exact h.adjacent_lt edge
  | tail _ edge less => exact Nat.lt_trans (h.adjacent_lt edge) less

/-- A dependency of a component has a component, and a smaller id. -/
theorem dependency {a d : QualifiedName} {i : ComponentId} (present : g.capability? i = some a)
    (depends : t.DependsOn c a d) : ∃ j, g.capability? j = some d ∧ j < i := by
  obtain ⟨comp, found, rfl⟩ := Option.map_eq_some_iff.mp present
  have settled := h.settled.settled i comp found
  have mapped : some d ∈ (t.dependenciesOf c comp.capability).map some :=
    List.mem_map_of_mem (Table.mem_dependenciesOf.mpr depends)
  rw [← settled.dependencies] at mapped
  obtain ⟨j, member, named⟩ := List.mem_map.mp mapped
  exact ⟨j, named, settled.smaller j member⟩

theorem transitive_dependency {a d : QualifiedName} {i : ComponentId}
    (present : g.capability? i = some a) (depends : Relation.TransGen (t.DependsOn c) a d) :
    ∃ j, g.capability? j = some d ∧ j < i := by
  induction depends with
  | single step => exact h.dependency present step
  | tail _ step ih =>
    obtain ⟨j, found, less⟩ := ih
    obtain ⟨k, found', less'⟩ := h.dependency found step
    exact ⟨k, found', Nat.lt_trans less' less⟩

/-- The components stand for the required capabilities and for no others. -/
theorem capability_iff_required {a : QualifiedName} :
    (∃ id, g.capability? id = some a) ↔ t.Required c root a := by
  constructor
  · rintro ⟨id, present⟩
    obtain ⟨comp, found, rfl⟩ := Option.map_eq_some_iff.mp present
    exact (h.settled.settled id comp found).required
  · intro required
    refine required.induction (P := fun a => ∃ id, g.capability? id = some a)
      (fun d embedded => ?_) fun b d _ step before => ?_
    · have mapped : some d ∈ (t.capabilitiesOf root).map some :=
        List.mem_map_of_mem (Table.mem_capabilitiesOf.mpr embedded)
      rw [← h.direct] at mapped
      obtain ⟨id, _, named⟩ := List.mem_map.mp mapped
      exact ⟨id, named⟩
    · obtain ⟨i, present⟩ := before
      obtain ⟨j, found, _⟩ := h.dependency present step
      exact ⟨j, found⟩

/-- Success leaves nothing in the way. -/
theorem compilable : t.Compilable c root where
  contract := h.contract
  resolves a required := by
    obtain ⟨id, present⟩ := h.capability_iff_required.mpr required
    obtain ⟨comp, found, rfl⟩ := Option.map_eq_some_iff.mp present
    exact ⟨_, (h.settled.settled id comp found).resolved⟩
  exist stack required := by
    rcases required with rfl | ⟨a, required, r, resolved, taken⟩
    · exact h.exist
    · obtain ⟨id, present⟩ := h.capability_iff_required.mpr required
      obtain ⟨comp, found, rfl⟩ := Option.map_eq_some_iff.mp present
      have settled := h.settled.settled id comp found
      cases resolved.symm.trans settled.resolved
      exact settled.declared stack taken
  acyclic a required cyclic := by
    obtain ⟨i, present⟩ := h.capability_iff_required.mpr required
    obtain ⟨j, found, less⟩ := h.transitive_dependency present cyclic
    exact absurd (Indexed.unique h.settled.indexed found present) (Nat.ne_of_lt less)

end BuiltGraph

/-- A chain of dependencies back to its start. -/
theorem Table.Cycle.transGen {a : QualifiedName} {chain : List QualifiedName}
    (h : t.Cycle c a chain) : Relation.TransGen (t.DependsOn c) a a := by
  obtain ⟨between, rfl, _, linked⟩ := h
  have reach : ∀ (rest : List QualifiedName) (b : QualifiedName),
      (b :: rest ++ [a]).IsChain (t.DependsOn c) → Relation.TransGen (t.DependsOn c) b a := by
    intro rest
    induction rest with
    | nil => exact fun b linked => .single (List.isChain_cons_cons.mp linked).1
    | cons d rest ih =>
      intro b linked
      obtain ⟨step, linked⟩ := List.isChain_cons_cons.mp linked
      exact .head step (ih d linked)
  exact reach between a linked

/-- Where everything required is there, a cycle is the only reason to fail. -/
theorem Failure.cycle_of_provided {e : CompileError} (failed : Failure t c root e)
    (h : t.Provided c root) :
    ∃ a chain, e = .cyclicDependency a chain ∧ t.Required c root a ∧ t.Cycle c a chain := by
  cases failed with
  | noContract absent =>
    obtain ⟨i, present⟩ := Option.isSome_iff_exists.mp h.contract
    cases (Table.contract_eq_ok.mpr present).symm.trans absent
  | unresolved required failed =>
    obtain ⟨r, resolved⟩ := h.resolves _ required
    cases resolved.symm.trans failed
  | dangling required declared embedded missing =>
    have present := h.exist _ required _ _ declared embedded
    simp [Table.contains, missing] at present
  | cycle required cycle => exact ⟨_, _, rfl, required, cycle⟩

theorem Table.Compilable.build_ok (h : t.Compilable c root) :
    ∃ g, DependencyGraph.build t c root = .ok g := by
  cases built : DependencyGraph.build t c root with
  | ok g => exact ⟨g, rfl⟩
  | error e =>
    obtain ⟨a, _, _, required, cycle⟩ :=
      (DependencyGraph.build_error built).cycle_of_provided h.toProvided
    exact absurd cycle.transGen (h.acyclic a required)

end MiddlewareStack
