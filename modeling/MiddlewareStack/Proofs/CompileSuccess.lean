import MiddlewareStack.Proofs.DiscoveryOrder

/-!
# When a compile succeeds

A compile succeeds exactly if its root is a contract, every required capability resolves, no embed
is missing and no capability depends on itself. What it gives is then determined by the table: one
component for each required capability, linked as the contracts embed them.
-/

namespace MiddlewareStack

open DependencyGraph

variable {t : Table} {c : Conventions} {root : QualifiedName} {g : DependencyGraph}

/-- The graph that a root has in a table. -/
structure GraphOf (t : Table) (c : Conventions) (root : QualifiedName) (g : DependencyGraph) :
    Prop where
  once : (g.components.map Component.capability).Nodup
  complete : ∀ a, a ∈ g.components.map Component.capability ↔ t.Required c root a
  numbered : ∀ id comp, g.get? id = some comp → comp.id = id
  resolved : ∀ comp ∈ g.components, t.resolve c comp.capability = .ok comp.resolution
  dependencies : ∀ comp ∈ g.components,
    comp.dependencies.map g.capability? = (t.dependenciesOf c comp.capability).map some
  direct : g.direct.map g.capability? = (t.capabilitiesOf root).map some

theorem BuiltGraph.graphOf (h : BuiltGraph t c root g) : GraphOf t c root g where
  once := h.settled.nodup
  complete a := by
    rw [← h.capability_iff_required, List.mem_map]
    constructor
    · rintro ⟨comp, member, rfl⟩
      obtain ⟨id, present⟩ := mem_components.mp member
      exact ⟨id, by simp [capability?, present]⟩
    · rintro ⟨id, present⟩
      obtain ⟨comp, found, rfl⟩ := Option.map_eq_some_iff.mp present
      exact ⟨comp, mem_components.mpr ⟨id, found⟩, rfl⟩
  numbered := h.numbered
  resolved comp member := by
    obtain ⟨id, present⟩ := mem_components.mp member
    exact (h.settled.settled id comp present).resolved
  dependencies comp member := by
    obtain ⟨id, present⟩ := mem_components.mp member
    exact (h.settled.settled id comp present).dependencies
  direct := h.direct

/-- The exact condition of success, and the graph of a success. -/
theorem compile_succeeds_iff (t : Table) (c : Conventions) (scope name : String) :
    ((∃ s, t.compile c scope name = .ok s) ↔
      ∃ package, t.packagesMatching scope = [package] ∧ t.Compilable c { package, name }) ∧
    ∀ s, t.compile c scope name = .ok s →
      ∃ package, t.packagesMatching scope = [package] ∧
        GraphOf t c { package, name } s.graph := by
  refine ⟨⟨?_, ?_⟩, ?_⟩
  · rintro ⟨s, compiled⟩
    obtain ⟨package, found, result⟩ := Table.compile_ok compiled
    exact ⟨package, found, result.compilable⟩
  · rintro ⟨package, found, compilable⟩
    obtain ⟨g, built⟩ := compilable.build_ok
    exact ⟨.ofRange g, by rw [Table.compile_eq_build found, built]; rfl⟩
  · intro s compiled
    obtain ⟨package, found, result⟩ := Table.compile_ok compiled
    exact ⟨package, found, result.graphOf⟩

end MiddlewareStack
