import MiddlewareStack.Proofs.BuildFrame
import MiddlewareStack.Proofs.DiscoveryOrder
import MiddlewareStack.Proofs.EmbeddedContracts

/-!
# Names of parameters and recorded text

A table carries more than a compile reads: what the parameters are called, the text of parameters
and methods, and the path and the names recorded beside the keys. `bare` takes all of it away. A
compile cannot tell tables apart that are the same when bare: it fails alike on them, or the stacks
differ in nothing but what the invocations carry along.
-/

namespace MiddlewareStack

/-! ## What is left -/

/-- The parameter by its type alone. -/
def Param.bare (p : Param) : Param := { name := "", ty := p.ty }

/-- The method by its signature alone. -/
def Method.bare (m : Method) : Method :=
  { m with params := m.params.map Param.bare, rendered := "" }

def Interface.bare (i : Interface) : Interface :=
  { i with methods := i.methods.map Method.bare }

def ConcreteType.bare (decl : ConcreteType) : ConcreteType :=
  { methods := decl.methods.map Method.bare }

def Declaration.bare : Declaration → Declaration
  | .interface decl => .interface decl.bare
  | .concrete decl => .concrete decl.bare
  | .other => .other

/-- The table by its keys and bare declarations alone. -/
def Table.bare (t : Table) : Table where
  packages := t.packages.map fun package =>
    { path := ""
      symbols := package.symbols.map fun symbol =>
        { name := { package := "", name := "" }, kind := symbol.kind.bare } }

namespace Method

variable {a b : Method}

@[simp] theorem name_bare (m : Method) : m.bare.name = m.name := rfl

@[simp] theorem receiver_bare (m : Method) : m.bare.receiver = m.receiver := rfl

@[simp] theorem output_bare (m : Method) : m.bare.output = m.output := rfl

@[simp] theorem paramTypes_bare (m : Method) : m.bare.paramTypes = m.paramTypes := by
  simp [bare, paramTypes, Param.bare, Function.comp_def]

/-- Methods are the same when bare exactly if a call through one is a call through the other. -/
theorem bare_eq_iff : a.bare = b.bare ↔ a.SameSignature b := by
  constructor
  · intro same
    refine ⟨?_, ?_, ?_, ?_⟩
    · rw [← name_bare a, same, name_bare]
    · rw [← receiver_bare a, same, receiver_bare]
    · rw [← output_bare a, same, output_bare]
    · rw [← paramTypes_bare a, same, paramTypes_bare]
  · rintro ⟨names, receivers, outputs, types⟩
    have byType : ∀ m : Method, m.params.map Param.bare = m.paramTypes.map (Param.mk "" · "") := by
      intro m
      simp [paramTypes, Param.bare, Function.comp_def]
    simp only [bare, Method.mk.injEq]
    exact ⟨names, receivers, by rw [byType, byType, types], outputs, trivial⟩

/-- Only what is left of two methods decides whether their signatures agree. -/
theorem sameSignature_congr {a' b' : Method} (ha : a'.bare = a.bare) (hb : b'.bare = b.bare) :
    a'.SameSignature b' ↔ a.SameSignature b := by
  rw [← bare_eq_iff, ha, hb, bare_eq_iff]

end Method

namespace Table

variable {t : Table} {c : Conventions} {q : QualifiedName}

theorem packagesMatching_bare (scope : String) :
    t.bare.packagesMatching scope = t.packagesMatching scope :=
  packagesMatching_map _ scope

theorem lookup_bare : t.bare.lookup q = (t.lookup q).map Declaration.bare := by
  apply lookup_map fun symbol =>
    { name := { package := "", name := "" }, kind := symbol.kind.bare }
  · exact fun _ => rfl
  · exact fun _ => rfl

theorem rewrites_bare : Rewrites Declaration.bare Interface.bare ConcreteType.bare :=
  ⟨fun _ => rfl, fun _ => rfl, rfl⟩

theorem interface?_bare : t.bare.interface? q = (t.interface? q).map Interface.bare :=
  interface?_rewritten rewrites_bare lookup_bare

theorem concrete?_bare : t.bare.concrete? q = (t.concrete? q).map ConcreteType.bare :=
  concrete?_rewritten rewrites_bare lookup_bare

theorem contract_bare : t.bare.contract q = (t.contract q).map Interface.bare :=
  contract_rewritten rewrites_bare lookup_bare

theorem contract_bare_eq_error {e : CompileError} :
    t.bare.contract q = .error e ↔ t.contract q = .error e :=
  contract_rewritten_eq_error rewrites_bare lookup_bare

theorem embeds_contract_bare :
    (t.bare.contract q).map Interface.declaredEmbeds =
      (t.contract q).map Interface.declaredEmbeds := by
  rw [contract_bare]
  cases t.contract q <;> rfl

end Table

/-! ## What a contract requires -/

namespace Collected

def bare (p : Collected) : Collected :=
  { p with methods := p.methods.map Method.bare }

theorem addMethod_bare (methods : List Method) (m : Method) :
    addMethod (methods.map Method.bare) m.bare = (addMethod methods m).map Method.bare := by
  have names : (methods.map Method.bare).any (·.name = m.bare.name) =
      methods.any (·.name = m.name) := by
    rw [List.any_map]
    rfl
  unfold addMethod
  rw [names]
  split <;> simp

theorem addMethods_bare (p : Collected) (own : List Method) :
    p.bare.addMethods (own.map Method.bare) = (p.addMethods own).bare := by
  have methods : ∀ collected : List Method,
      (own.map Method.bare).foldl addMethod (collected.map Method.bare) =
        (own.foldl addMethod collected).map Method.bare := by
    induction own with
    | nil => exact fun _ => rfl
    | cons m rest ih =>
      intro collected
      rw [List.map_cons, List.foldl_cons, addMethod_bare, ih, List.foldl_cons]
  simp only [addMethods, bare, methods]

end Collected

variable {t t' : Table} {c : Conventions} {root : QualifiedName}

/-- The walk over bare contracts meets the same names. -/
theorem Visits.bare {names : List QualifiedName} {p p' : Collected} (h : Visits t names p p') :
    Visits t.bare names p.bare p'.bare := by
  induction h with
  | done p => exact .done _
  | again met _ ih => exact .again met ih
  | other new absent _ ih =>
    refine .other new ?_ ih
    rw [Table.interface?_bare, absent, Option.map_none]
  | @embedded name _ p _ _ i new found _ _ inner others =>
    have found' : t.bare.interface? name = some i.bare := by
      rw [Table.interface?_bare, found, Option.map_some]
    refine .embedded new found' ?_ others
    have entered := (p.meet name).addMethods_bare i.methods
    rw [← entered] at inner
    exact inner

theorem requiredMethods_bare (t : Table) (i : Interface) :
    requiredMethods t.bare i.bare = (requiredMethods t i).map Method.bare := by
  obtain ⟨p, walks, collected⟩ := walks_requiredMethods t i
  have bareWalk : Walks t.bare i.bare {} p.bare := by
    have visits := Visits.bare walks
    rwa [← Collected.addMethods_bare] at visits
  rw [bareWalk.methods_eq, ← collected]
  rfl

/-! ## Resolution -/

/-- The names of the methods that a resolution of `a` looks for. -/
def Table.askedNames (t : Table) (c : Conventions) (a : QualifiedName) : List String :=
  c.invocationMethod ::
    (t.interface? a).elim [] fun contract => (requiredMethods t contract).map Method.name

namespace ConcreteType

/-- Types whose first methods of each name that is asked for have the same signature. -/
def AlikeFor (asked : List String) (decl decl' : ConcreteType) : Prop :=
  ∀ name ∈ asked,
    (decl'.methodSet.find? (·.name = name)).map Method.bare =
      (decl.methodSet.find? (·.name = name)).map Method.bare ∧
    (decl'.declared? name).isSome = (decl.declared? name).isSome

theorem AlikeFor.refl {asked : List String} (decl : ConcreteType) : decl.AlikeFor asked decl :=
  fun _ _ => ⟨rfl, rfl⟩

/-- What is found first under a name that is asked for is the same when bare, if there is any. -/
theorem AlikeFor.first {asked : List String} {decl decl' : ConcreteType} {name : String}
    (alike : decl.AlikeFor asked decl') (isAsked : name ∈ asked) :
    Option.Rel (fun m m' => m'.bare = m.bare) (decl.methodSet.find? (·.name = name))
      (decl'.methodSet.find? (·.name = name)) := by
  obtain ⟨same, _⟩ := alike name isAsked
  cases found : decl.methodSet.find? (·.name = name) with
  | none =>
    rw [found, Option.map_none, Option.map_eq_none_iff] at same
    rw [same]
    exact .none
  | some m =>
    rw [found, Option.map_some, Option.map_eq_some_iff] at same
    obtain ⟨m', found', sameMethod⟩ := same
    rw [found']
    exact .some sameMethod

theorem alikeFor_of_bare_eq {decl decl' : ConcreteType} (same : decl'.bare = decl.bare)
    (asked : List String) : decl.AlikeFor asked decl' := by
  have shared : ∀ u : ConcreteType, u.bare.methodSet = u.methodSet.map Method.bare :=
    fun u => List.filter_map
  intro name _
  constructor
  · have first : ∀ u : ConcreteType, u.bare.methodSet.find? (·.name = name) =
        (u.methodSet.find? (·.name = name)).map Method.bare := by
      intro u
      rw [shared, List.find?_map]
      rfl
    rw [← first, same, first]
  · have first : ∀ u : ConcreteType,
        (u.bare.declared? name).isSome = (u.declared? name).isSome := by
      intro u
      rw [declared?, bare, List.find?_map, Option.isSome_map]
      rfl
    rw [← first, same, first]

end ConcreteType

section Alike

variable {asked : List String} {candidate candidate' : ConcreteType}

/-- Types that are alike for a name meet a requirement of that name alike. -/
theorem satisfaction_alike (alike : candidate.AlikeFor asked candidate')
    {required required' : Method} (same : required'.bare = required.bare)
    (isAsked : required.name ∈ asked) :
    satisfaction candidate' required' = satisfaction candidate required := by
  have names : required'.name = required.name := by
    rw [← Method.name_bare, same, Method.name_bare]
  have first := alike.first isAsked
  obtain ⟨_, present⟩ := alike required.name isAsked
  unfold satisfaction
  rw [names, present]
  generalize candidate.methodSet.find? (·.name = required.name) = found,
    candidate'.methodSet.find? (·.name = required.name) = found' at first
  cases first with
  | none => rfl
  | some sameMethod => simp only [Method.sameSignature_congr sameMethod same]

theorem firstUnmet_alike (alike : candidate.AlikeFor asked candidate') :
    ∀ {required required' : List Method}, required'.map Method.bare = required.map Method.bare →
      (∀ m ∈ required, m.name ∈ asked) →
      firstUnmet candidate' required' = firstUnmet candidate required
  | [], [], _, _ => rfl
  | m :: rest, m' :: rest', same, areAsked => by
    simp only [List.map_cons, List.cons.injEq] at same
    obtain ⟨isAsked, others⟩ := List.forall_mem_cons.mp areAsked
    rw [firstUnmet, firstUnmet, satisfaction_alike alike same.1 isAsked,
      firstUnmet_alike alike same.2 others]

end Alike

namespace Table

variable {a : QualifiedName}

/-- A capability resolves alike in two tables, but for what its invocation carries along, if its
contracts are the same when bare, the types bound to it are alike for what is asked, and the tables
have the same names for contracts. -/
theorem resolve_alike
    (contract : (t'.contract a).map Interface.bare = (t.contract a).map Interface.bare)
    (required : ∀ i i', t.interface? a = some i → t'.interface? a = some i' →
      (requiredMethods t' i').map Method.bare = (requiredMethods t i).map Method.bare)
    (contracts : ∀ q, (t'.interface? q).isSome = (t.interface? q).isSome)
    (candidates : Option.Rel (ConcreteType.AlikeFor (t.askedNames c a))
      (t.concrete? (c.implementationOf a)) (t'.concrete? (c.implementationOf a))) :
    (t'.resolve c a).map (Resolution.mapInvocation Method.bare) =
      (t.resolve c a).map (Resolution.mapInvocation Method.bare) := by
  unfold resolve
  cases declared : t.contract a with
  | error e =>
    cases declared' : t'.contract a with
    | error e' =>
      rw [declared, declared'] at contract
      cases contract
      rfl
    | ok i' => simp [declared, declared', Except.map] at contract
  | ok i =>
    cases declared' : t'.contract a with
    | error e' => simp [declared, declared', Except.map] at contract
    | ok i' =>
      have found := contract_eq_ok.mp declared
      have methods := required i i' found (contract_eq_ok.mp declared')
      simp only [bind, Except.bind]
      generalize t.concrete? (c.implementationOf a) = bound,
        t'.concrete? (c.implementationOf a) = bound' at candidates
      cases candidates with
      | none => rfl
      | @some candidate candidate' alike =>
        have checked : check t' i' candidate' = check t i candidate :=
          firstUnmet_alike alike methods fun m member => by
            rw [askedNames, found]
            exact List.mem_cons_of_mem _ (List.mem_map_of_mem member)
        simp only [requireSatisfied, checked]
        cases check t i candidate with
        | missingMethod name => rfl
        | signatureMismatch name => rfl
        | satisfied =>
          have first := alike.first (List.mem_cons_self : c.invocationMethod ∈ t.askedNames c a)
          dsimp only
          generalize candidate.methodSet.find? (·.name = c.invocationMethod) = invoked,
            candidate'.methodSet.find? (·.name = c.invocationMethod) = invoked' at first
          cases first with
          | none => rfl
          | @some m m' sameMethod =>
            obtain ⟨names, _, _, types⟩ := Method.bare_eq_iff.mp sameMethod
            simp only [invocationBundle_congr contracts types, names]
            cases invocationBundle t c.requestType m with
            | error fault => rfl
            | ok bundle => simp [Except.map, Resolution.mapInvocation, sameMethod]

end Table

/-! ## Compiling -/

/-- The adjacency of a graph by the keys of its components. -/
def DependencyGraph.keyAdjacency (g : DependencyGraph) : List (String × List String) :=
  g.adjacency.map fun entry => (entry.1.key, entry.2.map Component.key)

/-- Stacks that differ in nothing but what the invocations of their components carry along. -/
structure CompiledStack.Matches (s s' : CompiledStack) : Prop where
  order : s.order = s'.order
  direct : s.graph.direct = s'.graph.direct
  dependencies :
    s.graph.components.map Component.dependencies = s'.graph.components.map Component.dependencies
  adjacency : s.graph.keyAdjacency = s'.graph.keyAdjacency
  components : s.graph.components.map (Component.mapInvocation Method.bare) =
    s'.graph.components.map (Component.mapInvocation Method.bare)
  pipeline : s.pipeline = s'.pipeline

/-- Compiles that fail with the same error, or succeed with stacks that match. -/
inductive EndsAlike : Except CompileError CompiledStack → Except CompileError CompiledStack → Prop
  | failed (e : CompileError) : EndsAlike (.error e) (.error e)
  | compiled {s s' : CompiledStack} (same : s.Matches s') : EndsAlike (.ok s) (.ok s')

namespace DependencyGraph

variable {f : Method → Method} (g : DependencyGraph)

theorem size_mapInvocations : (g.mapInvocations f).size = g.size :=
  List.length_map ..

theorem filterMap_get?_mapInvocations (ids : List ComponentId) :
    ids.filterMap (g.mapInvocations f).get? =
      (ids.filterMap g.get?).map (Component.mapInvocation f) := by
  rw [List.map_filterMap]
  exact congrArg (List.filterMap · ids) (funext fun id => List.getElem?_map ..)

theorem dependencies_mapInvocations :
    (g.mapInvocations f).components.map Component.dependencies =
      g.components.map Component.dependencies :=
  List.map_map ..

theorem keyAdjacency_mapInvocations : (g.mapInvocations f).keyAdjacency = g.keyAdjacency := by
  have key : Component.key ∘ Component.mapInvocation f = Component.key := rfl
  have components : (g.mapInvocations f).components =
      g.components.map (Component.mapInvocation f) := rfl
  simp only [keyAdjacency, adjacency, filterMap_get?_mapInvocations, components, List.map_map]
  apply List.map_congr_left
  intro comp _
  simp only [Function.comp_apply, List.map_map, key]
  rfl

theorem assemble_mapInvocations (order : List ComponentId) :
    Pipeline.assemble (g.mapInvocations f) order = .assemble g order := by
  simp only [Pipeline.assemble, filterMap_get?_mapInvocations, Pipeline.mk.injEq]
  refine ⟨rfl, List.ext_getElem? fun i => ?_⟩
  rw [List.getElem?_mapIdx, List.getElem?_mapIdx, List.getElem?_map, Option.map_map]
  rfl

end DependencyGraph

/-- Graphs that are the same but for what invocations carry along give stacks that match. -/
theorem CompiledStack.matches_ofRange {g g' : DependencyGraph}
    (same : g.mapInvocations Method.bare = g'.mapInvocations Method.bare) :
    (CompiledStack.ofRange g).Matches (.ofRange g') := by
  have sizes : g.size = g'.size := by
    rw [← g.size_mapInvocations, same, g'.size_mapInvocations]
  constructor
  · exact congrArg List.range sizes
  · change (g.mapInvocations Method.bare).direct = (g'.mapInvocations Method.bare).direct
    rw [same]
  · change g.components.map _ = g'.components.map _
    rw [← g.dependencies_mapInvocations, same, g'.dependencies_mapInvocations]
  · change g.keyAdjacency = g'.keyAdjacency
    rw [← g.keyAdjacency_mapInvocations, same, g'.keyAdjacency_mapInvocations]
  · change (g.mapInvocations Method.bare).components = (g'.mapInvocations Method.bare).components
    rw [same]
  · change Pipeline.assemble g _ = Pipeline.assemble g' _
    rw [sizes, ← g.assemble_mapInvocations, same, g'.assemble_mapInvocations]

/-- Tables with the same packages in scope that are built alike from there compile alike. -/
theorem Table.endsAlike_of_reproduces {scope name : String}
    (packages : t'.packagesMatching scope = t.packagesMatching scope)
    (reproduces : ReproducesUpTo Method.bare t t' c { package := scope, name }) :
    EndsAlike (t.compile c scope name) (t'.compile c scope name) := by
  by_cases single : ∃ package, t.packagesMatching scope = [package]
  · obtain ⟨package, found⟩ := single
    obtain ⟨rfl, _⟩ := Table.packagesMatching_eq_singleton.mp found
    have built := reproduces.build_eq
    rw [Table.compile_eq_build found, Table.compile_eq_build (packages.trans found)]
    cases one : DependencyGraph.build t c { package, name } with
    | error e =>
      cases other : DependencyGraph.build t' c { package, name } with
      | error e' =>
        simp only [one, other, Except.map, Except.error.injEq] at built
        subst built
        exact .failed e'
      | ok g' => simp [one, other, Except.map] at built
    | ok g =>
      cases other : DependencyGraph.build t' c { package, name } with
      | error e' => simp [one, other, Except.map] at built
      | ok g' =>
        simp only [one, other, Except.map, Except.ok.injEq] at built
        exact .compiled (CompiledStack.matches_ofRange built.symm)
  · have failed : ∀ u : Table, u.packagesMatching scope = t.packagesMatching scope →
        u.compile c scope name =
          .error (.duplicatePackageLoad scope (t.packagesMatching scope).length) := by
      intro u same
      unfold compile compileIn
      rw [same]
      split
      · next package found => exact absurd ⟨package, found⟩ single
      · rfl
    rw [failed t rfl, failed t' packages]
    exact .failed _

/-- Tables that are the same when bare are built alike. -/
theorem reproducesUpTo_of_bare_eq (same : t.bare = t'.bare) :
    ReproducesUpTo Method.bare t t' c root where
  resolve a _ := by
    have interfaces : ∀ q, (t'.interface? q).map Interface.bare =
        (t.interface? q).map Interface.bare := by
      intro q
      rw [← Table.interface?_bare, ← same, Table.interface?_bare]
    apply Table.resolve_alike
    · rw [← Table.contract_bare, ← same, Table.contract_bare]
    · intro i i' found found'
      have bare : i'.bare = i.bare := by simpa [found, found'] using interfaces a
      rw [← requiredMethods_bare, ← requiredMethods_bare, bare, same]
    · intro q
      rw [← Option.isSome_map, interfaces, Option.isSome_map]
    · have types : (t'.concrete? (c.implementationOf a)).map ConcreteType.bare =
          (t.concrete? (c.implementationOf a)).map ConcreteType.bare := by
        rw [← Table.concrete?_bare, ← same, Table.concrete?_bare]
      cases bound : t.concrete? (c.implementationOf a) with
      | none =>
        rw [bound, Option.map_none, Option.map_eq_none_iff] at types
        rw [types]
        exact .none
      | some candidate =>
        rw [bound, Option.map_some, Option.map_eq_some_iff] at types
        obtain ⟨candidate', bound', bare⟩ := types
        rw [bound']
        exact .some (ConcreteType.alikeFor_of_bare_eq bare _)
  embeds stack _ := by rw [← Table.embeds_contract_bare, ← same, Table.embeds_contract_bare]
  faults _ _ _ _ d _ e := by
    rw [← Table.contract_bare_eq_error, ← same, Table.contract_bare_eq_error]

/-- A compile takes no notice of what parameters are called, of recorded text, or of what is
recorded beside the keys of a table. -/
theorem compile_ignores_recorded (same : t.bare = t'.bare) (c : Conventions)
    (scope name : String) : EndsAlike (t.compile c scope name) (t'.compile c scope name) := by
  apply Table.endsAlike_of_reproduces
  · rw [← Table.packagesMatching_bare, ← same, Table.packagesMatching_bare]
  · exact reproducesUpTo_of_bare_eq same

/-- The diamond with a parameter of another name, texts for it and for its method, and a package
that records another path. -/
def annotatedDiamond : Table :=
  let request : Param :=
    { name := "request", ty := .ref false (.external "http::Request"), rendered := "&Request" }
  let run : Method :=
    { name := "run", params := [request], rendered := "fn run(&self, request: &Request)" }
  let annotated := diamond.insert { package := "self", name := "SharedMiddleware" }
    (.concrete { methods := [run] })
  { packages := annotated.packages.map fun package => { package with path := "elsewhere" } }

theorem annotated_diamond_compiles_alike :
    diamond ≠ annotatedDiamond ∧ diamond.bare = annotatedDiamond.bare ∧
      diamond.compile {} "self" "Root" = .ok (.ofRange diamondGraph) ∧
      EndsAlike (diamond.compile {} "self" "Root") (annotatedDiamond.compile {} "self" "Root") := by
  have same : diamond.bare = annotatedDiamond.bare := by decide +kernel
  exact ⟨by decide +kernel, same, by decide +kernel, compile_ignores_recorded same {} "self" "Root"⟩

end MiddlewareStack
