import MiddlewareStack.Proofs.ContractImpls

/-!
# What a stack keeps of its embeds

The root and the bundles of a compiled stack list the components of what they embed. An interface
that is embedded as it is always gets its component there. One that is applied to arguments does
not: it is passed over as if it stood outside the table.
-/

namespace MiddlewareStack

variable {t : Table} {c : Conventions} {root stack d : QualifiedName} {s : CompiledStack}
  {ids : List ComponentId}

/-- The declaration of the table that an embed names, whether or not it is applied to arguments. -/
def TypeRef.tableName? : TypeRef → Option QualifiedName
  | .declared name => some name
  | .generic base _ => some base
  | _ => none

namespace Table

/-- `stack` has an embed that names the interface `d`. -/
def RefersTo (t : Table) (stack d : QualifiedName) : Prop :=
  ∃ contract, t.interface? stack = some contract ∧
    (∃ embed ∈ contract.embeds, embed.tableName? = some d) ∧ (t.interface? d).isSome

/-- `stack` embeds the interface `d` applied to arguments. -/
def AppliesCapability (t : Table) (stack d : QualifiedName) : Prop :=
  ∃ contract, t.interface? stack = some contract ∧
    (∃ args, .generic d args ∈ contract.embeds) ∧ (t.interface? d).isSome

theorem refersTo_iff :
    t.RefersTo stack d ↔ t.EmbedsCapability stack d ∨ t.AppliesCapability stack d := by
  constructor
  · rintro ⟨contract, found, ⟨embed, member, named⟩, isInterface⟩
    cases embed with
    | declared name =>
      cases named
      exact .inl ⟨contract, found, member, isInterface⟩
    | generic base args =>
      cases named
      exact .inr ⟨contract, found, ⟨args, member⟩, isInterface⟩
    | external _ | ref _ _ | dyn _ | impl _ | verbatim _ => cases named
  · rintro (⟨contract, found, member, isInterface⟩ | ⟨contract, found, ⟨args, member⟩, isInterface⟩)
    · exact ⟨contract, found, ⟨_, member, rfl⟩, isInterface⟩
    · exact ⟨contract, found, ⟨_, member, rfl⟩, isInterface⟩

end Table

/-- The stacks of a graph with the components that they list: the root lists those it requires
itself, and the bundle of a component the dependencies of that component. -/
inductive StackOf (g : DependencyGraph) : QualifiedName → List ComponentId → Prop
  | root : StackOf g g.root g.direct
  | bundle {comp : Component} {stack : QualifiedName} (member : comp ∈ g.components)
      (taken : comp.bundle = some stack) : StackOf g stack comp.dependencies

/-- A stack lists the capabilities that it embeds, in their order. -/
theorem CompiledFrom.listed (h : CompiledFrom t c root s) (isStack : StackOf s.graph stack ids) :
    ids.map s.graph.capability? = (t.capabilitiesOf stack).map some := by
  cases isStack with
  | root => rw [h.direct, h.root_eq]
  | @bundle comp _ member taken =>
    obtain ⟨id, present⟩ := DependencyGraph.mem_components.mp member
    have settled := h.settled.settled id comp present
    have bundle : comp.resolution.bundle = some stack := taken
    rw [settled.dependencies, Table.dependenciesOf_eq settled.resolved, bundle]
    rfl

/-- A stack lists the components of the interfaces that it embeds as they are, and no others. What
it loses are therefore the interfaces that it only embeds applied to arguments. -/
theorem stack_lists_embedded {scope name : String} (compiled : t.compile c scope name = .ok s)
    (isStack : StackOf s.graph stack ids) :
    (∀ d, (∃ id ∈ ids, s.graph.capability? id = some d) ↔ t.EmbedsCapability stack d) ∧
      ∀ d, t.RefersTo stack d →
        (¬(∃ id ∈ ids, s.graph.capability? id = some d) ↔
          t.AppliesCapability stack d ∧ ¬t.EmbedsCapability stack d) := by
  obtain ⟨package, _, result⟩ := Table.compile_ok compiled
  have listed : ∀ d, (∃ id ∈ ids, s.graph.capability? id = some d) ↔
      t.EmbedsCapability stack d := by
    intro d
    rw [← Table.mem_capabilitiesOf, ← List.mem_map, result.listed isStack]
    simp
  refine ⟨listed, fun d refers => ?_⟩
  rw [listed]
  constructor
  · intro lost
    exact ⟨(Table.refersTo_iff.mp refers).resolve_left lost, lost⟩
  · exact And.right

theorem diamond_bundle_listed :
    diamond.compile {} "self" "Root" = .ok (.ofRange diamondGraph) ∧
      StackOf diamondGraph { package := "self", name := "BDeps" } [0] ∧
      ∃ id ∈ [0], diamondGraph.capability? id = some { package := "self", name := "Shared" } := by
  have compiled : diamond.compile {} "self" "Root" = .ok (.ofRange diamondGraph) := by
    decide +kernel
  have taken : ∃ comp ∈ diamondGraph.components,
      comp.bundle = some { package := "self", name := "BDeps" } ∧ comp.dependencies = [0] := by
    decide +kernel
  have found : diamond.interface? { package := "self", name := "BDeps" } =
      some { embeds := [.declared { package := "self", name := "Shared" }] } := by decide +kernel
  have isInterface : (diamond.interface? { package := "self", name := "Shared" }).isSome := by
    decide +kernel
  obtain ⟨comp, member, bundle, dependencies⟩ := taken
  have isStack : StackOf diamondGraph { package := "self", name := "BDeps" } [0] :=
    dependencies ▸ .bundle member bundle
  exact ⟨compiled, isStack, ((stack_lists_embedded compiled isStack).1 _).mpr
    ⟨_, found, List.mem_singleton_self _, isInterface⟩⟩

/-- A capability `Auth` applied to an argument. -/
def appliedAuth : TypeRef :=
  .generic { package := "self", name := "Auth" } [.external "u8"]

/-- A root and a bundle that embed it. -/
def appliedEmbeds : Table :=
  let capabilities := (Table.empty.addCapability "A" (some "ADeps")).addCapability "Auth" none
  (capabilities.insert { package := "self", name := "ADeps" }
    (.interface { embeds := [appliedAuth] })).insert { package := "self", name := "Root" }
      (.interface { embeds := [.declared { package := "self", name := "A" }, appliedAuth] })

/-- The compile succeeds without a component for what is applied. -/
theorem applied_capability_lost :
    appliedEmbeds.RefersTo { package := "self", name := "Root" }
        { package := "self", name := "Auth" } ∧
      appliedEmbeds.RefersTo { package := "self", name := "ADeps" }
        { package := "self", name := "Auth" } ∧
      ∃ s, appliedEmbeds.compile {} "self" "Root" = .ok s ∧ s.graph.direct = [0] ∧
        s.graph.components.map (fun comp => (comp.capability.name, comp.bundle,
          comp.dependencies)) = [("A", some { package := "self", name := "ADeps" }, [])] := by
  have isInterface : (appliedEmbeds.interface? { package := "self", name := "Auth" }).isSome := by
    decide +kernel
  have root : appliedEmbeds.interface? { package := "self", name := "Root" } =
      some { embeds := [.declared { package := "self", name := "A" }, appliedAuth] } := by
    decide +kernel
  have bundle : appliedEmbeds.interface? { package := "self", name := "ADeps" } =
      some { embeds := [appliedAuth] } := by decide +kernel
  have evaluated : (appliedEmbeds.compile {} "self" "Root").toOption.map (fun s =>
      (s.graph.direct, s.graph.components.map fun comp => (comp.capability.name, comp.bundle,
        comp.dependencies))) =
      some ([0], [("A", some { package := "self", name := "ADeps" }, [])]) := by decide +kernel
  obtain ⟨s, compiled, read⟩ := Aggregate.exists_ok_of_read evaluated
  exact ⟨⟨_, root, ⟨appliedAuth, by simp, rfl⟩, isInterface⟩,
    ⟨_, bundle, ⟨appliedAuth, by simp, rfl⟩, isInterface⟩, s, compiled, Prod.mk.inj read⟩

end MiddlewareStack
