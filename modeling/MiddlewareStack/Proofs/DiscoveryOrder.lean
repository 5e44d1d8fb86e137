import MiddlewareStack.Compile
import MiddlewareStack.Proofs.BuiltGraph

/-!
# Discovery order is an invocation order

A component gets its id after all it depends on, so that a built graph is ordered by its ids. A
compile therefore fails only where its build fails, and step `i` of its pipeline runs component `i`.
-/

namespace MiddlewareStack

open DependencyGraph

variable {t : Table} {c : Conventions} {root : QualifiedName} {g : DependencyGraph}

theorem BuiltGraph.order (h : BuiltGraph t c root g) : g.order = .ok (List.range g.size) :=
  order_eq_range h.numbered h.smaller

theorem filterMap_getElem?_range {α : Type} (l : List α) :
    (List.range l.length).filterMap (l[·]?) = l := by
  induction l using List.reverseRecOn with
  | nil => rfl
  | append_singleton l last ih =>
    have before : (List.range l.length).filterMap ((l ++ [last])[·]?) =
        (List.range l.length).filterMap (l[·]?) := by
      refine List.filterMap_congr fun i member => ?_
      rw [List.getElem?_append_left (List.mem_range.mp member)]
    rw [List.length_append, List.length_singleton, List.range_succ, List.filterMap_append, before,
      ih]
    simp

/-- In discovery order there is one step for each component, with its id as position. -/
theorem steps_assemble_range (g : DependencyGraph) :
    (Pipeline.assemble g (List.range g.size)).steps = g.components.mapIdx Step.ofComponent :=
  congrArg (List.mapIdx Step.ofComponent) (filterMap_getElem?_range g.components)

theorem step_assemble_range {i : Nat} {step : Step} :
    (Pipeline.assemble g (List.range g.size)).steps[i]? = some step ↔
      ∃ comp, g.get? i = some comp ∧ Step.ofComponent i comp = step := by
  rw [steps_assemble_range, List.getElem?_mapIdx]
  exact Option.map_eq_some_iff

theorem Settled.takesBundle {id : ComponentId} {comp : Component}
    (h : Settled t c root g id comp) :
    comp.takesBundle = true ↔ comp.invocation.params.length = 2 :=
  Table.resolve_bundle_isSome h.resolved

/-- What a compile returns for a graph that is ordered by its ids. -/
def CompiledStack.ofRange (g : DependencyGraph) : CompiledStack :=
  { graph := g
    order := List.range g.size
    pipeline := .assemble g (List.range g.size) }

/-- A stack as a compile returns it. -/
structure CompiledFrom (t : Table) (c : Conventions) (root : QualifiedName) (s : CompiledStack) :
    Prop extends BuiltGraph t c root s.graph where
  discovered : s = .ofRange s.graph

theorem CompiledFrom.steps_eq {s : CompiledStack} (h : CompiledFrom t c root s) :
    s.pipeline.steps = s.graph.components.mapIdx Step.ofComponent := by
  have assembled : s.pipeline = .assemble s.graph (List.range s.graph.size) :=
    congrArg CompiledStack.pipeline h.discovered
  rw [assembled, steps_assemble_range]

/-- Step `i` of a compiled stack runs component `i`. -/
theorem CompiledFrom.step_iff {s : CompiledStack} (h : CompiledFrom t c root s) {i : Nat}
    {step : Step} :
    s.pipeline.steps[i]? = some step ↔
      ∃ comp, s.graph.get? i = some comp ∧ Step.ofComponent i comp = step := by
  rw [h.steps_eq, List.getElem?_mapIdx]
  exact Option.map_eq_some_iff

/-- With its package found, a compile ends as its build does. -/
theorem Table.compile_eq_build {scope name package : String}
    (found : t.packagesMatching scope = [package]) :
    t.compile c scope name =
      (DependencyGraph.build t c { package, name }).map CompiledStack.ofRange := by
  simp only [compile, compileIn, found]
  cases declared : t.contract { package, name } with
  | error e =>
    have failed : DependencyGraph.build t c { package, name } = .error e := by
      simp [DependencyGraph.build, buildWithin, resolveStack, declared]
    simp [failed, bind, Except.bind, Except.map]
  | ok contract =>
    cases built : DependencyGraph.build t c { package, name } with
    | error e => simp [bind, Except.bind, Except.map]
    | ok g =>
      simp [bind, Except.bind, Except.map, CompiledStack.ofGraph, (build_ok built).order, pure,
        Except.pure, CompiledStack.ofRange]

theorem Table.compile_ok {scope name : String} {s : CompiledStack}
    (h : t.compile c scope name = .ok s) :
    ∃ package, t.packagesMatching scope = [package] ∧ CompiledFrom t c { package, name } s := by
  unfold compile compileIn at h
  split at h
  · next package found =>
    have compiled := (compile_eq_build found).symm.trans
      ((by simp only [compile, compileIn, found]; exact h) : t.compile c scope name = .ok s)
    cases built : DependencyGraph.build t c { package, name } with
    | error e => simp [built, Except.map] at compiled
    | ok g =>
      simp only [built, Except.map, Except.ok.injEq] at compiled
      subst compiled
      exact ⟨package, found, { build_ok built with discovered := rfl }⟩
  · cases h

theorem Table.compile_error {scope name : String} {e : CompileError}
    (h : t.compile c scope name = .error e) :
    e = .duplicatePackageLoad scope (t.packagesMatching scope).length ∨
      ∃ package, t.packagesMatching scope = [package] ∧
        DependencyGraph.build t c { package, name } = .error e := by
  by_cases single : ∃ package, t.packagesMatching scope = [package]
  · obtain ⟨package, found⟩ := single
    rw [compile_eq_build found] at h
    cases built : DependencyGraph.build t c { package, name } with
    | ok g => simp [built, Except.map] at h
    | error e' =>
      simp only [built, Except.map, Except.error.injEq] at h
      exact .inr ⟨package, found, h ▸ built⟩
  · unfold compile compileIn at h
    split at h
    · next package found => exact absurd ⟨package, found⟩ single
    · cases h
      exact .inl rfl

/-- A built graph always orders, by its ids, and its pipeline runs the components in that order. -/
theorem build_orders_by_id (built : DependencyGraph.build t c root = .ok g) :
    (∀ comp ∈ g.components, ∀ d ∈ comp.dependencies, d < comp.id) ∧
    g.order = .ok (List.range g.size) ∧
    (Pipeline.assemble g (List.range g.size)).steps.length = g.size ∧
    ∀ i step, (Pipeline.assemble g (List.range g.size)).steps[i]? = some step →
      ∃ comp, g.get? i = some comp ∧ comp.id = i ∧
        step.position = i ∧ step.component = i ∧
        step.capability = comp.capability.text ∧
        step.implementation = comp.implementation ∧
        step.bundle = comp.bundle ∧
        (step.passBundle = true ↔ comp.invocation.params.length = 2) := by
  have graph := build_ok built
  refine ⟨fun comp member d isDependency => ?_, graph.order, ?_, fun i step present => ?_⟩
  · obtain ⟨id, present⟩ := mem_components.mp member
    rw [graph.numbered id comp present]
    exact graph.smaller id comp present d isDependency
  · rw [steps_assemble_range, List.length_mapIdx]
    rfl
  · obtain ⟨comp, found, rfl⟩ := step_assemble_range.mp present
    have settled := graph.settled.settled i comp found
    exact ⟨comp, found, settled.id_eq, rfl, settled.id_eq, rfl, rfl, rfl, settled.takesBundle⟩

/-- Add a capability and its implementation, which takes the bundle that is named. -/
def Table.addCapability (t : Table) (name : String) (bundle : Option String) : Table :=
  let request : Param := { name := "req", ty := .ref false (.external "http::Request") }
  let deps := bundle.toList.map fun stack =>
    { name := "deps", ty := .ref false (.declared { package := "self", name := stack }) : Param }
  (t.insert { package := "self", name } (.interface {})).insert
    { package := "self", name := name ++ "Middleware" }
    (.concrete { methods := [{ name := "run", params := request :: deps }] })

/-- The method that runs a component which takes no bundle. -/
def runAlone : Method :=
  { name := "run", params := [{ name := "req", ty := .ref false (.external "http::Request") }] }

/-- Add a contract that embeds some capabilities. -/
def Table.addStack (t : Table) (name : String) (embeds : List String) : Table :=
  t.insert { package := "self", name } (.interface
    { embeds := embeds.map fun embed => .declared { package := "self", name := embed } })

/-- Two capabilities that share a third one through bundles of their own. -/
def diamond : Table :=
  ((((((Table.empty.addStack "Root" ["A", "B"]).addCapability "A" (some "ADeps")).addStack "ADeps"
    ["Shared"]).addCapability "B" (some "BDeps")).addStack "BDeps" ["Shared"]).addCapability
    "Shared" none)

def diamondRoot : QualifiedName := { package := "self", name := "Root" }

def diamondGraph : DependencyGraph :=
  ((DependencyGraph.build diamond {} diamondRoot).toOption).getD { root := diamondRoot }

theorem diamond_orders_by_id :
    DependencyGraph.build diamond {} diamondRoot = .ok diamondGraph ∧
      diamondGraph.components.map (·.capability.name) = ["Shared", "A", "B"] ∧
      diamondGraph.order = .ok [0, 1, 2] := by
  have built : DependencyGraph.build diamond {} diamondRoot = .ok diamondGraph := by decide +kernel
  exact ⟨built, by decide +kernel, (build_orders_by_id built).2.1⟩

end MiddlewareStack
