import MiddlewareStack.Proofs.Placement

/-!
# Graphs made by changes

A graph starts without components and changes in two ways: a component is added, or the edges of one
are replaced. Edges may lead anywhere, but whatever the changes, ids are positions.
-/

namespace MiddlewareStack

/-- One change of a graph. -/
inductive GraphChange where
  | add (resolution : Resolution) (dependencies : List ComponentId)
  | setDependencies (id : ComponentId) (dependencies : List ComponentId)
  deriving DecidableEq, Repr

namespace DependencyGraph

def change (g : DependencyGraph) : GraphChange → DependencyGraph
  | .add resolution dependencies => (g.add resolution dependencies).1
  | .setDependencies id dependencies => g.setDependencies id dependencies

/-- The graph that some changes make of one without components. -/
def ofChanges (root : QualifiedName) (changes : List GraphChange) : DependencyGraph :=
  changes.foldl change { root }

variable {g : DependencyGraph}

theorem Numbered.add (h : g.Numbered) (r : Resolution) (dependencies : List ComponentId) :
    (g.add r dependencies).1.Numbered := by
  cases found : g.byKey.lookup r.capability with
  | some id => rwa [add_present found]
  | none =>
    intro id comp present
    rw [get?_add found] at present
    split at present
    · next last =>
      cases present
      exact last.symm
    · exact h id comp present

theorem Numbered.setDependencies (h : g.Numbered) (id : ComponentId)
    (dependencies : List ComponentId) : (g.setDependencies id dependencies).Numbered := by
  intro i comp present
  rw [DependencyGraph.setDependencies, get?, List.getElem?_modify] at present
  obtain ⟨before, found, rfl⟩ := Option.map_eq_some_iff.mp present
  split <;> exact h i before found

theorem Numbered.change (h : g.Numbered) : ∀ step, (g.change step).Numbered
  | .add r dependencies => h.add r dependencies
  | .setDependencies id dependencies => h.setDependencies id dependencies

theorem numbered_ofChanges (root : QualifiedName) (changes : List GraphChange) :
    (ofChanges root changes).Numbered := by
  induction changes using List.reverseRecOn with
  | nil => exact fun id comp present => by simp [ofChanges, get?] at present
  | append_singleton changes last ih =>
    rw [ofChanges, List.foldl_append]
    exact ih.change last

end DependencyGraph

end MiddlewareStack
