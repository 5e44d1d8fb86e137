import MiddlewareStack.Proofs.GraphChanges
import MiddlewareStack.Proofs.RecordedText

/-!
# What changes keep of a graph

A graph that is made by changes stores the capabilities that were added, in the order in which they
came first. A capability keeps its component and its id through all later changes, except that the
edges of a component can be replaced (`ofChanges_stores`).
-/

namespace MiddlewareStack

/-- The capability that a change adds, if it adds one. -/
def GraphChange.capability? : GraphChange → Option QualifiedName
  | .add r _ => some r.capability
  | .setDependencies _ _ => none

namespace DependencyGraph

variable {g : DependencyGraph} {a : QualifiedName} {id : ComponentId} {comp : Component}
  {r : Resolution} {dependencies : List ComponentId}

/-! ## Replaced edges -/

theorem get?_setDependencies (g : DependencyGraph) (id : ComponentId)
    (dependencies : List ComponentId) (i : ComponentId) :
    (g.setDependencies id dependencies).get? i =
      (g.get? i).map fun comp => if id = i then { comp with dependencies } else comp := by
  unfold get? DependencyGraph.setDependencies
  rw [List.getElem?_modify]
  cases g.components[i]? with
  | none => rfl
  | some comp =>
    by_cases same : id = i <;> simp [same]

theorem capability?_setDependencies (g : DependencyGraph) (id : ComponentId)
    (dependencies : List ComponentId) (i : ComponentId) :
    (g.setDependencies id dependencies).capability? i = g.capability? i := by
  unfold capability?
  rw [get?_setDependencies, Option.map_map]
  congr 1
  funext comp
  dsimp only [Function.comp]
  split <;> rfl

theorem setDependencies_of_none (absent : g.get? id = none) (dependencies : List ComponentId) :
    g.setDependencies id dependencies = g := by
  unfold DependencyGraph.setDependencies
  rw [List.modify_eq_self (List.getElem?_eq_none_iff.mp absent)]

theorem setDependencies_of_some (present : g.get? id = some comp)
    (dependencies : List ComponentId) :
    g.setDependencies id dependencies =
      { g with components := g.components.set id { comp with dependencies } } := by
  have found : g.components[id]? = some comp := present
  unfold DependencyGraph.setDependencies
  rw [List.modify_eq_set_getElem?, found]
  rfl

theorem Indexed.setDependencies (h : g.Indexed) (id : ComponentId)
    (dependencies : List ComponentId) : (g.setDependencies id dependencies).Indexed := by
  intro a i
  rw [capability?_setDependencies]
  exact h a i

theorem Indexed.change (h : g.Indexed) : ∀ step, (g.change step).Indexed
  | .add r dependencies => h.add r dependencies
  | .setDependencies id dependencies => h.setDependencies id dependencies

/-! ## Finding components -/

theorem find?_eq_some_iff (h : g.Indexed) :
    g.find? a = some comp ↔ comp ∈ g.components ∧ comp.capability = a := by
  unfold find?
  rw [Option.bind_eq_some_iff, mem_components]
  constructor
  · rintro ⟨id, indexed, present⟩
    rw [h, capability?, present] at indexed
    exact ⟨⟨id, present⟩, Option.some.inj indexed⟩
  · rintro ⟨⟨id, present⟩, rfl⟩
    exact ⟨id, (h _ _).mpr (by rw [capability?, present]; rfl), present⟩

/-- What the index knows is found. -/
theorem isSome_find? (h : g.Indexed) : (g.find? a).isSome = (g.byKey.lookup a).isSome := by
  unfold find?
  cases indexed : g.byKey.lookup a with
  | none => rfl
  | some id =>
    obtain ⟨comp, present, _⟩ := Option.map_eq_some_iff.mp ((h a id).mp indexed)
    rw [Option.bind_some, present]
    rfl

theorem lookup_of_find? (numbered : g.Numbered) (found : g.find? a = some comp) :
    g.byKey.lookup a = some comp.id := by
  obtain ⟨id, indexed, present⟩ := Option.bind_eq_some_iff.mp found
  rw [indexed, numbered id comp present]

/-- One change leaves a component where it is, with everything but its edges. -/
theorem find?_change (found : g.find? a = some comp) (step : GraphChange) :
    ∃ dependencies, (g.change step).find? a = some { comp with dependencies } := by
  obtain ⟨id, indexed, present⟩ := Option.bind_eq_some_iff.mp found
  cases step with
  | add r dependencies =>
    refine ⟨comp.dependencies, ?_⟩
    change (g.add r dependencies).1.find? a = some comp
    cases known : g.byKey.lookup r.capability with
    | some other => rwa [add_present known]
    | none =>
      have other : a ≠ r.capability := by
        rintro rfl
        cases indexed.symm.trans known
      have still : (g.add r dependencies).1.byKey.lookup a = some id := by
        rw [add_new known, KeyedMap.lookup_cons_ite, if_neg other, indexed]
      rw [find?, still, Option.bind_some]
      exact (grows_add g r dependencies).get? present
  | setDependencies other dependencies =>
    change ∃ final, (g.byKey.lookup a).bind (g.setDependencies other dependencies).get? = some _
    rw [indexed, Option.bind_some, get?_setDependencies, present, Option.map_some]
    by_cases same : other = id
    · exact ⟨dependencies, by rw [if_pos same]⟩
    · exact ⟨comp.dependencies, by rw [if_neg same]⟩

/-- What is found in a graph is found after all later changes, with other edges perhaps. -/
theorem find?_foldl_change (found : g.find? a = some comp) (later : List GraphChange) :
    ∃ dependencies, (later.foldl change g).find? a = some { comp with dependencies } := by
  induction later generalizing g comp with
  | nil => exact ⟨comp.dependencies, found⟩
  | cons step rest ih =>
    obtain ⟨_, kept⟩ := find?_change found step
    obtain ⟨final, found'⟩ := ih kept
    exact ⟨final, found'⟩

/-! ## What is stored -/

/-- A graph that stores some capabilities, each with one component, in the order in which they occur
first. -/
structure Stores (g : DependencyGraph) (added : List QualifiedName) : Prop where
  indexed : g.Indexed
  numbered : g.Numbered
  capabilities : g.components.map Component.capability = added.eraseDups

namespace Stores

variable {added : List QualifiedName}

theorem find?_isSome_iff (h : g.Stores added) : (g.find? a).isSome ↔ a ∈ added := by
  rw [← List.mem_eraseDups, ← h.capabilities, List.mem_map, Option.isSome_iff_exists]
  simp only [find?_eq_some_iff h.indexed]

theorem add (h : g.Stores added) (r : Resolution) (dependencies : List ComponentId) :
    (g.add r dependencies).1.Stores (added ++ [r.capability]) where
  indexed := h.indexed.add r dependencies
  numbered := h.numbered.add r dependencies
  capabilities := by
    have known := h.find?_isSome_iff (a := r.capability)
    rw [isSome_find? h.indexed] at known
    rw [eraseDups_concat, ← h.capabilities]
    cases indexed : g.byKey.lookup r.capability with
    | some id =>
      rw [add_present indexed, if_pos (known.mp (by rw [indexed]; rfl))]
    | none =>
      rw [add_new indexed, if_neg (mt known.mpr (by rw [indexed]; simp)), List.map_append]
      rfl

theorem setDependencies (h : g.Stores added) (id : ComponentId) (dependencies : List ComponentId) :
    (g.setDependencies id dependencies).Stores added where
  indexed := h.indexed.setDependencies id dependencies
  numbered := h.numbered.setDependencies id dependencies
  capabilities := by
    rw [← h.capabilities]
    refine List.ext_getElem? fun i => ?_
    rw [getElem?_capabilities, getElem?_capabilities, capability?_setDependencies]

theorem change (h : g.Stores added) :
    ∀ step, (g.change step).Stores (added ++ step.capability?.toList)
  | .add r dependencies => h.add r dependencies
  | .setDependencies id dependencies => by
    rw [GraphChange.capability?, Option.toList_none, List.append_nil]
    exact h.setDependencies id dependencies

theorem ofChanges (root : QualifiedName) (changes : List GraphChange) :
    (DependencyGraph.ofChanges root changes).Stores
      (changes.filterMap GraphChange.capability?) := by
  induction changes using List.reverseRecOn with
  | nil =>
    exact {
      indexed := fun a id => by simp [DependencyGraph.ofChanges, capability?, get?]
      numbered := numbered_ofChanges root []
      capabilities := rfl }
  | append_singleton changes last ih =>
    have added : [last].filterMap GraphChange.capability? = last.capability?.toList := by
      cases last <;> rfl
    rw [DependencyGraph.ofChanges, List.foldl_append, List.filterMap_append, added]
    exact ih.change last

end Stores

theorem frame_change (g : DependencyGraph) (step : GraphChange) :
    (g.change step).root = g.root ∧ (g.change step).direct = g.direct := by
  cases step with
  | add r dependencies =>
    obtain ⟨root, direct, _⟩ := grows_add g r dependencies
    exact ⟨root, direct⟩
  | setDependencies id dependencies => exact ⟨rfl, rfl⟩

theorem frame_foldl_change (g : DependencyGraph) (changes : List GraphChange) :
    (changes.foldl change g).root = g.root ∧ (changes.foldl change g).direct = g.direct := by
  induction changes generalizing g with
  | nil => exact ⟨rfl, rfl⟩
  | cons step rest ih =>
    obtain ⟨root, direct⟩ := ih (g.change step)
    obtain ⟨root', direct'⟩ := g.frame_change step
    exact ⟨root.trans root', direct.trans direct'⟩

/-! ## Adjacency -/

theorem map_id_get? (h : g.Numbered) (i : ComponentId) :
    (g.get? i).map Component.id = Option.guard (· < g.size) i := by
  cases present : g.get? i with
  | none =>
    have outside : ¬i < g.size := Nat.not_lt.mpr (List.getElem?_eq_none_iff.mp present)
    simp [Option.guard, outside]
  | some comp =>
    have inside : i < g.size := (List.getElem?_eq_some_iff.mp present).1
    simp [Option.guard, inside, h i comp present]

/-- Some entries have one for each component, in the order of ids: its key, and the keys of those of
its dependencies that exist. -/
def ListsDependencies (g : DependencyGraph) (entries : List (String × List String)) : Prop :=
  entries.length = g.size ∧
    ∀ i comp, g.get? i = some comp → ∃ dependencies : List Component,
      entries[i]? = some (comp.key, dependencies.map Component.key) ∧
      dependencies.map Component.id = comp.dependencies.filter (· < g.size) ∧
      ∀ d ∈ dependencies, d ∈ g.components

theorem listsDependencies_keyAdjacency (h : g.Numbered) : g.ListsDependencies g.keyAdjacency := by
  unfold keyAdjacency adjacency
  refine ⟨by simp [size], fun i comp present => ⟨comp.dependencies.filterMap g.get?, ?_, ?_, ?_⟩⟩
  · have found : g.components[i]? = some comp := present
    rw [List.getElem?_map, List.getElem?_map, found]
    rfl
  · rw [List.map_filterMap]
    simp only [map_id_get? h]
    rw [List.filterMap_eq_filter]
  · intro d member
    obtain ⟨id, _, found⟩ := List.mem_filterMap.mp member
    exact mem_components.mpr ⟨id, found⟩

end DependencyGraph

/-- What some changes make of a graph without components. -/
structure StoreOf (root : QualifiedName) (changes : List GraphChange) (g : DependencyGraph) :
    Prop where
  root : g.root = root
  direct : g.direct = []
  numbered : ∀ id comp, g.get? id = some comp → comp.id = id
  once : (g.components.map Component.capability).Nodup
  inOrder : g.components.map Component.capability =
    (changes.filterMap GraphChange.capability?).eraseDups
  found : ∀ a comp, g.find? a = some comp ↔ comp ∈ g.components ∧ comp.capability = a
  added : ∀ a, (g.find? a).isSome ↔
    ∃ r dependencies, .add r dependencies ∈ changes ∧ r.capability = a
  /-- Later changes can replace the edges of a component and nothing else of it. -/
  kept : ∀ a comp, g.find? a = some comp → ∀ later : List GraphChange, ∃ dependencies,
    (later.foldl DependencyGraph.change g).find? a = some { comp with dependencies }
  again : ∀ r dependencies comp, g.find? r.capability = some comp →
    g.add r dependencies = (g, comp.id)
  next : ∀ r dependencies, g.find? r.capability = none →
    (g.add r dependencies).2 = g.size ∧
      (g.add r dependencies).1.components = g.components ++ [g.newComponent r dependencies]
  unknown : ∀ id dependencies, g.get? id = none → g.setDependencies id dependencies = g
  replaced : ∀ id comp dependencies, g.get? id = some comp → g.setDependencies id dependencies =
    { g with components := g.components.set id { comp with dependencies } }
  adjacency : g.ListsDependencies g.keyAdjacency

open DependencyGraph in
/-- Whatever is added to a graph and whatever edges are replaced, in any order, the graph stores one
component for each capability, under an id that stays. -/
theorem changes_make_store (root : QualifiedName) (changes : List GraphChange) :
    StoreOf root changes (ofChanges root changes) where
  root := (frame_foldl_change _ changes).1
  direct := (frame_foldl_change _ changes).2
  numbered := numbered_ofChanges root changes
  once := (Stores.ofChanges root changes).indexed.nodup
  inOrder := (Stores.ofChanges root changes).capabilities
  found _ _ := find?_eq_some_iff (Stores.ofChanges root changes).indexed
  added a := by
    rw [(Stores.ofChanges root changes).find?_isSome_iff, List.mem_filterMap]
    constructor
    · rintro ⟨step, member, isAdded⟩
      cases step with
      | add r dependencies => exact ⟨r, dependencies, member, Option.some.inj isAdded⟩
      | setDependencies id dependencies => cases isAdded
    · rintro ⟨r, dependencies, member, rfl⟩
      exact ⟨_, member, rfl⟩
  kept _ _ found later := find?_foldl_change found later
  again r dependencies comp found :=
    add_present (lookup_of_find? (numbered_ofChanges root changes) found) dependencies
  next r dependencies absent := by
    have unknown : (ofChanges root changes).byKey.lookup r.capability = none := by
      rw [← Option.isNone_iff_eq_none, ← Option.not_isSome,
        ← isSome_find? (Stores.ofChanges root changes).indexed, absent]
      rfl
    rw [add_new unknown]
    exact ⟨rfl, rfl⟩
  unknown _ dependencies absent := setDependencies_of_none absent dependencies
  replaced _ _ dependencies present := setDependencies_of_some present dependencies
  adjacency := listsDependencies_keyAdjacency (numbered_ofChanges root changes)

end MiddlewareStack
