import MiddlewareStack.Proofs.Bounds

/-!
# What a build reads of a table

A build asks a table for the contracts whose embeds it follows, for the kind of what they embed, and
for the resolutions of what it meets. Two tables that give the same answers there build the same
graph, or fail alike. A build carries the invocations of its resolutions along without looking at
them: where the answers differ in something of an invocation, so do the graphs, and in nothing else.
-/

namespace MiddlewareStack

/-! ## Graphs with their invocations replaced -/

def Resolution.mapInvocation (f : Method → Method) (r : Resolution) : Resolution :=
  { r with invocation := f r.invocation }

def Component.mapInvocation (f : Method → Method) (comp : Component) : Component :=
  { comp with invocation := f comp.invocation }

def DependencyGraph.mapInvocations (f : Method → Method) (g : DependencyGraph) : DependencyGraph :=
  { g with components := g.components.map (Component.mapInvocation f) }

def BuildState.mapInvocations (f : Method → Method) (s : BuildState) : BuildState :=
  { s with graph := s.graph.mapInvocations f }

variable {f : Method → Method}

@[simp] theorem Resolution.bundle_mapInvocation (r : Resolution) :
    (r.mapInvocation f).bundle = r.bundle := rfl

theorem DependencyGraph.add_mapInvocations (g : DependencyGraph) (r : Resolution)
    (dependencies : List ComponentId) :
    (g.mapInvocations f).add (r.mapInvocation f) dependencies =
      ((g.add r dependencies).1.mapInvocations f, (g.add r dependencies).2) := by
  unfold add
  have index : (g.mapInvocations f).byKey.lookup (r.mapInvocation f).capability =
      g.byKey.lookup r.capability := rfl
  rw [index]
  cases g.byKey.lookup r.capability with
  | some id => rfl
  | none =>
    simp [mapInvocations, Component.mapInvocation, Resolution.mapInvocation, size]

theorem BuildState.record_mapInvocations (s : BuildState) (r : Resolution)
    (dependencies : List ComponentId) :
    (s.mapInvocations f).record (r.mapInvocation f) dependencies =
      ((s.record r dependencies).1, (s.record r dependencies).2.mapInvocations f) := by
  have added := s.graph.add_mapInvocations (f := f) r dependencies
  simp only [record, mapInvocations, added]
  rfl

/-- States are the same up to `f` if their guards are the same, and their graphs are up to `f`. -/
theorem BuildState.mapInvocations_eq_iff {s s' : BuildState} :
    s.mapInvocations f = s'.mapInvocations f ↔
      s.guard = s'.guard ∧ s.graph.mapInvocations f = s'.graph.mapInvocations f := by
  rw [mapInvocations, mapInvocations, BuildState.mk.injEq]

/-! ## Builds of two tables -/

/-- Two steps that give the same answer from states that are the same up to `f` of their
invocations, and lead to such states again. -/
def AlikeUpTo {α : Type} (f : Method → Method) (one other : BuildStep α) : Prop :=
  ∀ s s', s.mapInvocations f = s'.mapInvocations f →
    (one s).1 = (other s').1 ∧ (one s).2.mapInvocations f = (other s').2.mapInvocations f

variable {t t' : Table} {c : Conventions} {root : QualifiedName}

/-- `t'` answers like `t` wherever a build of `root` in `t` asks, up to `f` of invocations. -/
structure ReproducesUpTo (f : Method → Method) (t t' : Table) (c : Conventions)
    (root : QualifiedName) : Prop where
  resolve : ∀ a, t.Required c root a →
    (t'.resolve c a).map (Resolution.mapInvocation f) =
      (t.resolve c a).map (Resolution.mapInvocation f)
  embeds : ∀ stack, t.RequiredStack c root stack →
    (t'.contract stack).map Interface.declaredEmbeds =
      (t.contract stack).map Interface.declaredEmbeds
  faults : ∀ stack contract, t.RequiredStack c root stack → t.interface? stack = some contract →
    ∀ d ∈ contract.declaredEmbeds, ∀ e, t'.contract d = .error e ↔ t.contract d = .error e

/-- Two resolvers that do the same for every required capability. -/
def AlikeOnRequired (f : Method → Method) (t : Table) (c : Conventions) (root : QualifiedName)
    (one other : QualifiedName → BuildStep ComponentId) : Prop :=
  ∀ a, t.Required c root a → AlikeUpTo f (one a) (other a)

variable {one other : QualifiedName → BuildStep ComponentId}

theorem resolveEmbeds_reproduced (same : AlikeOnRequired f t c root one other) :
    ∀ (names : List QualifiedName),
      (∀ d ∈ names, ∀ e, t'.contract d = .error e ↔ t.contract d = .error e) →
      (∀ d ∈ names, (t.interface? d).isSome → t.Required c root d) →
      ∀ (ids : List ComponentId),
        AlikeUpTo f (resolveEmbeds t one names ids) (resolveEmbeds t' other names ids)
  | [], _, _, _ => fun _ _ alike => ⟨rfl, alike⟩
  | d :: names, faults, required, ids => by
    intro s s' alike
    obtain ⟨fault, faults⟩ := List.forall_mem_cons.mp faults
    obtain ⟨isRequired, required⟩ := List.forall_mem_cons.mp required
    have others := resolveEmbeds_reproduced same names faults required
    cases found : t.contract d with
    | error e =>
      have found' := (fault e).mpr found
      cases e with
      | notAnInterface name =>
        simp only [resolveEmbeds, found, found']
        exact others ids s s' alike
      | _ =>
        simp only [resolveEmbeds, found, found']
        exact ⟨trivial, alike⟩
    | ok contract =>
      obtain ⟨answer, state⟩ :=
        same d (isRequired (Table.isSome_interface?_of_contract found)) s s' alike
      cases found' : t'.contract d with
      | error e => cases found.symm.trans ((fault e).mp found')
      | ok contract' =>
        simp only [resolveEmbeds, found, found']
        rcases first : one d s with ⟨result, after⟩
        rcases second : other d s' with ⟨result', after'⟩
        rw [first, second] at answer state
        subst answer
        cases result with
        | error e => exact ⟨rfl, state⟩
        | ok id => exact others _ after after' state

theorem resolveStack_reproduced (h : ReproducesUpTo f t t' c root)
    (same : AlikeOnRequired f t c root one other) {stack : QualifiedName}
    (required : t.RequiredStack c root stack) :
    AlikeUpTo f (resolveStack t one stack) (resolveStack t' other stack) := by
  intro s s' alike
  have embeds := h.embeds stack required
  unfold resolveStack
  cases found : t.contract stack with
  | error e =>
    cases found' : t'.contract stack with
    | error e' =>
      rw [found, found'] at embeds
      cases embeds
      exact ⟨rfl, alike⟩
    | ok contract' => simp [found, found', Except.map] at embeds
  | ok contract =>
    cases found' : t'.contract stack with
    | error e' => simp [found, found', Except.map] at embeds
    | ok contract' =>
      simp only [found, found', Except.map, Except.ok.injEq] at embeds
      have declared := Table.contract_eq_ok.mp found
      simp only [embeds]
      refine resolveEmbeds_reproduced same _ (h.faults stack contract required declared)
        (fun d embedded isInterface => required.required ?_) [] s s' alike
      exact ⟨contract, declared, Table.mem_declaredEmbeds.mp embedded, isInterface⟩

/-- Recording resolutions that differ in their invocations only. -/
theorem AlikeUpTo.record {r r' : Resolution} (same : r.mapInvocation f = r'.mapInvocation f)
    (dependencies : List ComponentId) :
    AlikeUpTo f (fun s => (.ok (s.record r dependencies).1, (s.record r dependencies).2))
      (fun s => (.ok (s.record r' dependencies).1, (s.record r' dependencies).2)) := by
  intro s s' alike
  have recorded := s.record_mapInvocations (f := f) r dependencies
  rw [same, alike, s'.record_mapInvocations r' dependencies] at recorded
  obtain ⟨id, state⟩ := Prod.mk.inj recorded
  exact ⟨congrArg Except.ok id.symm, state.symm⟩

theorem resolveUncached_reproduced (h : ReproducesUpTo f t t' c root)
    (same : AlikeOnRequired f t c root one other) {a : QualifiedName}
    (required : t.Required c root a) :
    AlikeUpTo f (resolveUncached t c one a) (resolveUncached t' c other a) := by
  intro s s' alike
  have resolutions := h.resolve a required
  unfold resolveUncached
  cases resolved : t.resolve c a with
  | error e =>
    cases resolved' : t'.resolve c a with
    | error e' =>
      simp only [resolved, resolved', Except.map, Except.error.injEq] at resolutions
      exact ⟨congrArg Except.error resolutions.symm, alike⟩
    | ok r' => simp [resolved, resolved', Except.map] at resolutions
  | ok r =>
    cases resolved' : t'.resolve c a with
    | error e' => simp [resolved, resolved', Except.map] at resolutions
    | ok r' =>
      simp only [resolved, resolved', Except.map, Except.ok.injEq] at resolutions
      have bundles : r'.bundle = r.bundle := by
        simpa only [Resolution.bundle_mapInvocation] using congrArg Resolution.bundle resolutions
      cases taken : r.bundle with
      | none =>
        simp only [bundles, taken]
        exact AlikeUpTo.record resolutions.symm [] s s' alike
      | some bundle =>
        have isStack : t.RequiredStack c root bundle := .inr ⟨a, required, r, resolved, taken⟩
        obtain ⟨answer, state⟩ := resolveStack_reproduced h same isStack s s' alike
        simp only [bundles, taken]
        rcases first : resolveStack t one bundle s with ⟨result, after⟩
        rcases second : resolveStack t' other bundle s' with ⟨result', after'⟩
        rw [first, second] at answer state
        subst answer
        cases result with
        | error e => exact ⟨rfl, state⟩
        | ok dependencies => exact AlikeUpTo.record resolutions.symm dependencies _ _ state

theorem resolveLevel_reproduced (h : ReproducesUpTo f t t' c root)
    (same : AlikeOnRequired f t c root one other) :
    AlikeOnRequired f t c root (resolveLevel t c one) (resolveLevel t' c other) := by
  intro a required s s' alike
  obtain ⟨guards, graphs⟩ := BuildState.mapInvocations_eq_iff.mp alike
  unfold resolveLevel
  rw [← guards]
  cases s.guard.enter a with
  | error e => exact ⟨rfl, alike⟩
  | ok guard =>
    dsimp only
    cases guard.cached? a with
    | some id => exact ⟨rfl, BuildState.mapInvocations_eq_iff.mpr ⟨rfl, graphs⟩⟩
    | none =>
      have entered : ({ s with guard } : BuildState).mapInvocations f =
          ({ s' with guard } : BuildState).mapInvocations f :=
        BuildState.mapInvocations_eq_iff.mpr ⟨rfl, graphs⟩
      obtain ⟨answer, state⟩ := resolveUncached_reproduced h same required _ _ entered
      refine ⟨answer, ?_⟩
      exact congrArg (·.leave a) state

theorem resolveComponent_reproduced (h : ReproducesUpTo f t t' c root)
    (beyond : QualifiedName → BuildStep ComponentId) (harmless : ∀ a, AlikeUpTo f (beyond a)
      (beyond a)) :
    ∀ depth, AlikeOnRequired f t c root (resolveComponent t c beyond depth)
      (resolveComponent t' c beyond depth)
  | 0 => fun a _ => harmless a
  | depth + 1 => resolveLevel_reproduced h (resolveComponent_reproduced h beyond harmless depth)

/-- A table that answers alike up to some part of the invocations builds the same graph up to that
part, or fails in the same way. -/
theorem ReproducesUpTo.build_eq (h : ReproducesUpTo f t t' c root) :
    (DependencyGraph.build t' c root).map (DependencyGraph.mapInvocations f) =
      (DependencyGraph.build t c root).map (DependencyGraph.mapInvocations f) := by
  have deep : t.symbolCount < t.symbolCount + t'.symbolCount + 1 := by omega
  have deep' : t'.symbolCount < t.symbolCount + t'.symbolCount + 1 := by omega
  rw [← buildWithin_eq (fun capability s => (.error (.symbolNotFound capability), s)) deep,
    ← buildWithin_eq (fun capability s => (.error (.symbolNotFound capability), s)) deep']
  have components := resolveComponent_reproduced h
    (fun capability s => (.error (.symbolNotFound capability), s))
    (fun _ _ _ alike => ⟨rfl, alike⟩) (t.symbolCount + t'.symbolCount + 1)
  obtain ⟨answer, state⟩ :=
    resolveStack_reproduced h components (.inl rfl) { graph := { root } } { graph := { root } } rfl
  unfold DependencyGraph.buildWithin
  rcases first : resolveStack t _ root { graph := { root } } with ⟨result, after⟩
  rcases second : resolveStack t' _ root { graph := { root } } with ⟨result', after'⟩
  rw [first, second] at answer state
  subst answer
  obtain ⟨_, graphs⟩ := BuildState.mapInvocations_eq_iff.mp state
  cases result with
  | error e => rfl
  | ok direct =>
    simp only [Except.map, Except.ok.injEq]
    exact congrArg (fun g : DependencyGraph => { g with direct }) graphs.symm

/-- `t'` answers like `t` wherever a build of `root` in `t` asks. -/
structure Reproduces (t t' : Table) (c : Conventions) (root : QualifiedName) : Prop where
  resolve : ∀ a, t.Required c root a → t'.resolve c a = t.resolve c a
  embeds : ∀ stack, t.RequiredStack c root stack →
    (t'.contract stack).map Interface.declaredEmbeds =
      (t.contract stack).map Interface.declaredEmbeds
  faults : ∀ stack contract, t.RequiredStack c root stack → t.interface? stack = some contract →
    ∀ d ∈ contract.declaredEmbeds, ∀ e, t'.contract d = .error e ↔ t.contract d = .error e

theorem DependencyGraph.mapInvocations_id : mapInvocations id = id := by
  have component : Component.mapInvocation id = id := rfl
  funext g
  simp [mapInvocations, component]

/-- A table that answers alike builds the same graph, or fails in the same way. -/
theorem Reproduces.build_eq (h : Reproduces t t' c root) :
    DependencyGraph.build t' c root = DependencyGraph.build t c root := by
  have upToNothing : ReproducesUpTo id t t' c root :=
    { h with resolve := fun a required => by rw [h.resolve a required] }
  have built := upToNothing.build_eq
  rw [DependencyGraph.mapInvocations_id] at built
  simpa using built

end MiddlewareStack
