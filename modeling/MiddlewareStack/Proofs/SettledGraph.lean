import Mathlib.Data.List.Nodup
import MiddlewareStack.Graph.Build
import MiddlewareStack.Proofs.Dependency

/-!
# The graph of a build

What a graph owes to the table at any moment of a build: the index finds the component of each
capability, and every component stands for a required capability, carries what its resolution says,
and names components that were there before it.
-/

namespace MiddlewareStack

/-- One more element counts if it is none of those before it. -/
theorem eraseDups_concat {α : Type} [DecidableEq α] (l : List α) (a : α) :
    (l ++ [a]).eraseDups = if a ∈ l then l.eraseDups else l.eraseDups ++ [a] := by
  rw [List.eraseDups_append]
  split
  · next known => simp [List.removeAll, known]
  · next new => simp [List.removeAll, new, List.eraseDups_cons]

/-- What the resolution of its capability said. -/
def Component.resolution (comp : Component) : Resolution :=
  { capability := comp.capability
    implementation := comp.implementation
    invocation := comp.invocation
    bundle := comp.bundle }

namespace DependencyGraph

def capability? (g : DependencyGraph) (id : ComponentId) : Option QualifiedName :=
  (g.get? id).map Component.capability

/-- Nothing is taken from a graph that grows, and what is added stands behind. -/
def Grows (g g' : DependencyGraph) : Prop :=
  g'.root = g.root ∧ g'.direct = g.direct ∧ g.components <+: g'.components

theorem Grows.refl (g : DependencyGraph) : g.Grows g :=
  ⟨rfl, rfl, List.prefix_rfl⟩

theorem Grows.trans {g g' g'' : DependencyGraph} (first : g.Grows g') (second : g'.Grows g'') :
    g.Grows g'' :=
  ⟨second.1.trans first.1, second.2.1.trans first.2.1, first.2.2.trans second.2.2⟩

theorem Grows.get? {g g' : DependencyGraph} (h : g.Grows g') {id : ComponentId} {comp : Component}
    (present : g.get? id = some comp) : g'.get? id = some comp := by
  obtain ⟨_, _, added, components⟩ := h
  have bound : id < g.components.length := (List.getElem?_eq_some_iff.mp present).1
  unfold DependencyGraph.get? at present ⊢
  rw [← components, List.getElem?_append_left bound, present]

theorem Grows.capability? {g g' : DependencyGraph} (h : g.Grows g') {id : ComponentId}
    {a : QualifiedName} (present : g.capability? id = some a) : g'.capability? id = some a := by
  obtain ⟨comp, found, rfl⟩ := Option.map_eq_some_iff.mp present
  exact Option.map_eq_some_iff.mpr ⟨comp, h.get? found, rfl⟩

/-- Ids that name some capabilities still name them. -/
theorem Grows.names {g g' : DependencyGraph} (h : g.Grows g') {ids : List ComponentId}
    {names : List QualifiedName} (named : ids.map g.capability? = names.map some) :
    ids.map g'.capability? = names.map some := by
  induction ids generalizing names with
  | nil => simpa using named
  | cons id rest ih =>
    cases names with
    | nil => simp at named
    | cons a others =>
      simp only [List.map_cons, List.cons.injEq] at named ⊢
      exact ⟨h.capability? named.1, ih named.2⟩

theorem lt_size_of_capability? {g : DependencyGraph} {id : ComponentId} {a : QualifiedName}
    (h : g.capability? id = some a) : id < g.size := by
  obtain ⟨comp, found, _⟩ := Option.map_eq_some_iff.mp h
  exact (List.getElem?_eq_some_iff.mp found).1

theorem mem_components {g : DependencyGraph} {comp : Component} :
    comp ∈ g.components ↔ ∃ id, g.get? id = some comp :=
  List.mem_iff_getElem?

theorem getElem?_capabilities (g : DependencyGraph) (i : ComponentId) :
    (g.components.map Component.capability)[i]? = g.capability? i := by
  rw [List.getElem?_map]
  rfl

section Add

variable {g : DependencyGraph} {r : Resolution} {id : ComponentId}

/-- The component of a resolution under the next id. -/
def newComponent (g : DependencyGraph) (r : Resolution) (dependencies : List ComponentId) :
    Component :=
  { id := g.size, capability := r.capability, implementation := r.implementation,
    invocation := r.invocation, bundle := r.bundle, dependencies }

theorem add_present (present : g.byKey.lookup r.capability = some id)
    (dependencies : List ComponentId) : g.add r dependencies = (g, id) := by
  unfold DependencyGraph.add
  rw [present]

theorem add_new (new : g.byKey.lookup r.capability = none) (dependencies : List ComponentId) :
    g.add r dependencies =
      ({ g with
          components := g.components ++ [g.newComponent r dependencies]
          byKey := (r.capability, g.size) :: g.byKey }, g.size) := by
  unfold DependencyGraph.add
  rw [new]
  rfl

theorem grows_add (g : DependencyGraph) (r : Resolution) (dependencies : List ComponentId) :
    g.Grows (g.add r dependencies).1 := by
  cases found : g.byKey.lookup r.capability with
  | some id =>
    rw [add_present found]
    exact .refl g
  | none =>
    rw [add_new found]
    exact ⟨rfl, rfl, List.prefix_append ..⟩

theorem get?_add (new : g.byKey.lookup r.capability = none) (dependencies : List ComponentId)
    (i : ComponentId) :
    (g.add r dependencies).1.get? i =
      if i = g.size then some (g.newComponent r dependencies) else g.get? i := by
  rw [add_new new]
  by_cases last : i = g.size
  · rw [if_pos last, last]
    simp [get?, size]
  · rw [if_neg last]
    unfold get?
    rcases Nat.lt_or_gt_of_ne last with below | above
    · exact List.getElem?_append_left below
    · rw [List.getElem?_eq_none (Nat.le_of_lt above)]
      exact List.getElem?_eq_none (by simpa [size] using Nat.succ_le_of_lt above)

theorem capability?_add (new : g.byKey.lookup r.capability = none)
    (dependencies : List ComponentId) (i : ComponentId) :
    (g.add r dependencies).1.capability? i =
      if i = g.size then some r.capability else g.capability? i := by
  unfold capability?
  rw [get?_add new]
  split <;> rfl

end Add

/-- The index knows the component of each capability, and no other capability. -/
def Indexed (g : DependencyGraph) : Prop :=
  ∀ a id, g.byKey.lookup a = some id ↔ g.capability? id = some a

namespace Indexed

variable {g : DependencyGraph}

/-- No capability has two components. -/
theorem unique (h : g.Indexed) {i j : ComponentId} {a : QualifiedName}
    (first : g.capability? i = some a) (second : g.capability? j = some a) : i = j := by
  have fromFirst := (h a i).mpr first
  rw [(h a j).mpr second] at fromFirst
  exact (Option.some.inj fromFirst).symm

theorem nodup (h : g.Indexed) : (g.components.map Component.capability).Nodup := by
  refine List.nodup_iff_getElem?_ne_getElem?.mpr fun i j before bound same => ?_
  rw [getElem?_capabilities, getElem?_capabilities] at same
  have present : g.capability? j = some (g.components.map Component.capability)[j] := by
    rw [← getElem?_capabilities, List.getElem?_eq_getElem]
  exact absurd (h.unique (same.trans present) present) (Nat.ne_of_lt before)

theorem add (h : g.Indexed) (r : Resolution) (dependencies : List ComponentId) :
    (g.add r dependencies).1.Indexed := by
  cases found : g.byKey.lookup r.capability with
  | some id => rwa [add_present found]
  | none =>
    intro a id
    have outside : g.capability? g.size = none := by
      simp [capability?, get?, size]
    rw [capability?_add found, add_new found, KeyedMap.lookup_cons_ite]
    by_cases same : a = r.capability
    · by_cases last : id = g.size
      · simp [same, last]
      · rw [if_pos same, if_neg last, ← h, same, found]
        simp [Ne.symm last]
    · by_cases last : id = g.size
      · rw [if_neg same, if_pos last, h, last, outside]
        simp [Ne.symm same]
      · rw [if_neg same, if_neg last, h]

end Indexed

end DependencyGraph

open DependencyGraph

variable {t : Table} {c : Conventions} {root : QualifiedName}

/-- What a component owes to the table and to the components before it. -/
structure Settled (t : Table) (c : Conventions) (root : QualifiedName) (g : DependencyGraph)
    (id : ComponentId) (comp : Component) : Prop where
  id_eq : comp.id = id
  resolved : t.resolve c comp.capability = .ok comp.resolution
  required : t.Required c root comp.capability
  declared : ∀ stack, comp.bundle = some stack → t.EmbedsExist stack
  dependencies : comp.dependencies.map g.capability? =
    (t.dependenciesOf c comp.capability).map some
  smaller : ∀ d ∈ comp.dependencies, d < id

theorem Settled.grows {g g' : DependencyGraph} {id : ComponentId} {comp : Component}
    (h : Settled t c root g id comp) (grows : g.Grows g') : Settled t c root g' id comp :=
  { h with dependencies := grows.names h.dependencies }

/-- The invariant of a graph under construction. -/
structure SettledGraph (t : Table) (c : Conventions) (root : QualifiedName) (g : DependencyGraph) :
    Prop where
  indexed : ∀ a id, g.byKey.lookup a = some id ↔ g.capability? id = some a
  settled : ∀ id comp, g.get? id = some comp → Settled t c root g id comp

theorem SettledGraph.empty : SettledGraph t c root { root } where
  indexed := by simp [capability?, get?]
  settled := by simp [get?]

namespace SettledGraph

variable {g : DependencyGraph}

theorem nodup (h : SettledGraph t c root g) : (g.components.map Component.capability).Nodup :=
  Indexed.nodup h.indexed

/-- An id is new among some ids exactly if its capability is new among theirs. -/
theorem push (h : SettledGraph t c root g) {ids : List ComponentId} {done : List QualifiedName}
    {id : ComponentId} {a : QualifiedName}
    (named : ids.map g.capability? = done.eraseDups.map some)
    (isNamed : g.capability? id = some a) :
    (if id ∈ ids then ids else ids ++ [id]).map g.capability? =
      (done ++ [a]).eraseDups.map some := by
  have again : id ∈ ids ↔ a ∈ done := by
    constructor
    · intro member
      have mapped : g.capability? id ∈ ids.map g.capability? := List.mem_map_of_mem member
      rw [named, isNamed] at mapped
      simpa [List.mem_eraseDups] using mapped
    · intro member
      have mapped : some a ∈ done.eraseDups.map some := by simpa [List.mem_eraseDups] using member
      rw [← named] at mapped
      obtain ⟨id', member', same⟩ := List.mem_map.mp mapped
      exact Indexed.unique h.indexed isNamed same ▸ member'
  rw [eraseDups_concat]
  by_cases old : a ∈ done
  · rw [if_pos old, if_pos (again.mpr old), named]
  · rw [if_neg old, if_neg (mt again.mp old), List.map_append, List.map_append, named,
      List.map_singleton, List.map_singleton, isNamed]

/-- A capability without a component gets one under the next id. -/
theorem add (h : SettledGraph t c root g) {r : Resolution} {dependencies : List ComponentId}
    (new : g.byKey.lookup r.capability = none)
    (resolved : t.resolve c r.capability = .ok r) (required : t.Required c root r.capability)
    (declared : ∀ stack, r.bundle = some stack → t.EmbedsExist stack)
    (named : dependencies.map g.capability? = (t.dependenciesOf c r.capability).map some) :
    SettledGraph t c root (g.add r dependencies).1 ∧ g.Grows (g.add r dependencies).1 ∧
      (g.add r dependencies).1.capability? (g.add r dependencies).2 = some r.capability ∧
      (g.add r dependencies).1.byKey = (r.capability, (g.add r dependencies).2) :: g.byKey := by
  have grows : g.Grows (g.add r dependencies).1 := grows_add g r dependencies
  refine ⟨⟨Indexed.add h.indexed r dependencies, fun id comp present => ?_⟩, grows, ?_, ?_⟩
  · rw [get?_add new] at present
    split at present
    · next last =>
      subst last
      cases present
      refine ⟨rfl, resolved, required, declared, grows.names named, fun d member => ?_⟩
      have mapped : g.capability? d ∈ dependencies.map g.capability? := List.mem_map_of_mem member
      rw [named] at mapped
      obtain ⟨a, _, isNamed⟩ := List.mem_map.mp mapped
      exact lt_size_of_capability? isNamed.symm
    · exact (h.settled id comp present).grows grows
  · rw [capability?_add new, add_new new, if_pos rfl]
  · rw [add_new new]

end SettledGraph

end MiddlewareStack
