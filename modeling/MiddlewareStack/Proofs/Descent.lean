import MiddlewareStack.Proofs.SettledGraph

/-!
# The descent of a build

One invariant links the path in progress, the cache and the graph. Every call keeps it, gives the
path back as it was, and either finds the component of its capability or fails for a reason that
lies in the table.
-/

namespace MiddlewareStack

variable {t : Table} {c : Conventions} {root : QualifiedName}

/-- `stack` is the contract whose embeds are followed while `path` is in progress. -/
inductive Follows (t : Table) (c : Conventions) (root : QualifiedName) :
    List QualifiedName → QualifiedName → Prop
  | root : Follows t c root [] root
  | bundle {path : List QualifiedName} {stack a next : QualifiedName}
      (before : Follows t c root path stack) (embedded : t.EmbedsCapability stack a)
      (bundle : t.BundleOf c a next) : Follows t c root (path ++ [a]) next

/-- `chain` leads from `a` along dependencies back to `a`, with no other repetition. -/
def Table.Cycle (t : Table) (c : Conventions) (a : QualifiedName) (chain : List QualifiedName) :
    Prop :=
  ∃ between, chain = a :: between ++ [a] ∧ (a :: between).Nodup ∧ chain.IsChain (t.DependsOn c)

namespace Follows

variable {path : List QualifiedName} {stack a : QualifiedName}

theorem requiredStack (h : Follows t c root path stack) : t.RequiredStack c root stack := by
  induction h with
  | root => exact .inl rfl
  | bundle before embedded bundle ih => exact .inr ⟨_, ih.required embedded, bundle⟩

/-- The path in progress is a path of dependencies, the next capability included. -/
theorem isChain (h : Follows t c root path stack) (embedded : t.EmbedsCapability stack a) :
    (path ++ [a]).IsChain (t.DependsOn c) := by
  induction h generalizing a with
  | root => exact .singleton a
  | bundle before step bundle ih =>
    refine List.isChain_append.mpr ⟨ih step, .singleton a, ?_⟩
    intro x last y first
    simp only [List.getLast?_append, List.getLast?_singleton, Option.some_or, Option.mem_def,
      Option.some.injEq, List.head?_cons] at last first
    subst last first
    exact ⟨_, bundle, embedded⟩

/-- A capability met again on its own path closes a cycle. -/
theorem cycle (h : Follows t c root path stack) (embedded : t.EmbedsCapability stack a)
    (nodup : path.Nodup) (again : a ∈ path) :
    t.Cycle c a (path.dropWhile (· ≠ a) ++ [a]) := by
  obtain ⟨before, between, rfl, first⟩ := List.eq_append_cons_of_mem again
  have dropped : (before ++ a :: between).dropWhile (· ≠ a) = a :: between := by
    rw [List.dropWhile_append_of_pos fun x member => by
      simpa using fun same : x = a => first (same ▸ member)]
    simp
  rw [dropped]
  refine ⟨between, rfl, (List.nodup_append.mp nodup).2.1, ?_⟩
  have chain := h.isChain embedded
  rw [List.append_assoc] at chain
  exact chain.right_of_append

end Follows

/-- Why a build fails: no root contract, a required capability that does not resolve, an embedded
name without a symbol, or a required capability on a cycle. -/
inductive Failure (t : Table) (c : Conventions) (root : QualifiedName) : CompileError → Prop
  | noContract {e : CompileError} (absent : t.contract root = .error e) : Failure t c root e
  | unresolved {a : QualifiedName} {e : CompileError} (required : t.Required c root a)
      (failed : t.resolve c a = .error e) : Failure t c root e
  | dangling {stack d : QualifiedName} {contract : Interface}
      (required : t.RequiredStack c root stack) (declared : t.interface? stack = some contract)
      (embedded : .declared d ∈ contract.embeds) (missing : t.lookup d = none) :
      Failure t c root (.symbolNotFound d)
  | cycle {a : QualifiedName} {chain : List QualifiedName} (required : t.Required c root a)
      (cycle : t.Cycle c a chain) : Failure t c root (.cyclicDependency a chain)

/-- The invariant of a build. What is on the path has no component yet. -/
structure Consistent (t : Table) (c : Conventions) (root : QualifiedName) (s : BuildState) :
    Prop where
  path_nodup : s.guard.path.Nodup
  unsettled : ∀ a ∈ s.guard.path, s.graph.byKey.lookup a = none
  cached : ∀ a, s.guard.cached? a = s.graph.byKey.lookup a
  graph : SettledGraph t c root s.graph

theorem Consistent.start : Consistent t c root { graph := { root } } where
  path_nodup := .nil
  unsettled := by simp
  cached := fun _ => rfl
  graph := .empty

/-- Entering a capability and leaving it at once changes nothing. -/
theorem ResolutionState.leave_enter (s : ResolutionState) (a : QualifiedName) :
    ({ s with path := s.path ++ [a] } : ResolutionState).leave a = s := by
  simp [ResolutionState.leave]

namespace Consistent

variable {s : BuildState} {a : QualifiedName}

/-- Entering a capability that has no component. -/
theorem enter (h : Consistent t c root s) (outside : a ∉ s.guard.path)
    (new : s.graph.byKey.lookup a = none) :
    Consistent t c root { s with guard := { s.guard with path := s.guard.path ++ [a] } } where
  path_nodup := by simpa using h.path_nodup.concat outside
  unsettled b member := by
    rcases List.mem_append.mp member with member | last
    · exact h.unsettled b member
    · rw [List.mem_singleton.mp last]
      exact new
  cached := h.cached
  graph := h.graph

/-- Leaving the innermost capability gives back the path from before it. -/
theorem leave (h : Consistent t c root s) {path : List QualifiedName}
    (inside : s.guard.path = path ++ [a]) :
    Consistent t c root (s.leave a) ∧ (s.leave a).guard.path = path := by
  have left : (s.leave a).guard.path = path := ResolutionState.path_leave inside
  have distinct := h.path_nodup
  rw [inside] at distinct
  refine ⟨{ h with path_nodup := ?_, unsettled := fun b member => ?_ }, left⟩
  · rw [left]
    exact (List.nodup_append.mp distinct).1
  · rw [left] at member
    exact h.unsettled b (by simp [inside, member])

/-- Recording a component for a capability that has none and is not on the path. -/
theorem record (h : Consistent t c root s) {r : Resolution} {ids : List ComponentId}
    (outside : r.capability ∉ s.guard.path) (new : s.graph.byKey.lookup r.capability = none)
    (resolved : t.resolve c r.capability = .ok r) (required : t.Required c root r.capability)
    (declared : ∀ stack, r.bundle = some stack → t.EmbedsExist stack)
    (named : ids.map s.graph.capability? = (t.dependenciesOf c r.capability).map some) :
    Consistent t c root (s.record r ids).2 ∧ s.graph.Grows (s.record r ids).2.graph ∧
      (s.record r ids).2.graph.capability? (s.record r ids).1 = some r.capability := by
  obtain ⟨settled, grows, isNamed, index⟩ := h.graph.add new resolved required declared named
  refine ⟨⟨h.path_nodup, fun a member => ?_, fun a => ?_, settled⟩, grows, isNamed⟩
  · change (s.graph.add r ids).1.byKey.lookup a = none
    have other : a ≠ r.capability := fun same => outside (same ▸ member)
    rw [index, KeyedMap.lookup_cons_ite, if_neg other]
    exact h.unsettled a member
  · change (s.guard.remember r.capability (s.graph.add r ids).2).resolved.lookup a =
      (s.graph.add r ids).1.byKey.lookup a
    rw [index, ResolutionState.remember, KeyedMap.lookup_cons_ite, KeyedMap.lookup_cons_ite,
      ← h.cached a]
    rfl

end Consistent

/-- A call from `s` ended with a value that has the property `P`, or with a failure that the table
explains; in either case the invariant holds and the path is what it was. -/
structure Answers {α : Type} (t : Table) (c : Conventions) (root : QualifiedName) (s : BuildState)
    (P : α → DependencyGraph → Prop) (answer : Except CompileError α × BuildState) : Prop where
  consistent : Consistent t c root answer.2
  path : answer.2.guard.path = s.guard.path
  grows : s.graph.Grows answer.2.graph
  value : ∀ v, answer.1 = .ok v → P v answer.2.graph
  failure : ∀ e, answer.1 = .error e → Failure t c root e

namespace Answers

variable {α : Type} {P : α → DependencyGraph → Prop} {s s' : BuildState}

theorem of_error {e : CompileError} (h : Consistent t c root s) (failed : Failure t c root e) :
    Answers t c root s P (.error e, s) where
  consistent := h
  path := rfl
  grows := .refl _
  value := by simp
  failure := by simp [failed]

theorem of_ok {v : α} (h : Consistent t c root s) (holds : P v s.graph) :
    Answers t c root s P (.ok v, s) where
  consistent := h
  path := rfl
  grows := .refl _
  value := by simp [holds]
  failure := by simp

/-- A failure is passed on whatever value was asked for. -/
theorem of_failed {β : Type} {Q : β → DependencyGraph → Prop} {e : CompileError}
    (h : Answers t c root s P (.error e, s')) : Answers t c root s Q (.error e, s') where
  consistent := h.consistent
  path := h.path
  grows := h.grows
  value := by simp
  failure := by simpa using h.failure

/-- What comes after a first call may count from before it. -/
theorem after {answer : Except CompileError α × BuildState} (path : s'.guard.path = s.guard.path)
    (grows : s.graph.Grows s'.graph) (h : Answers t c root s' P answer) :
    Answers t c root s P answer :=
  { h with path := h.path.trans path, grows := grows.trans h.grows }

end Answers

/-- Recording a component answers a call that began with the same path. -/
theorem Consistent.answers_record {s s' : BuildState} (h : Consistent t c root s')
    (path : s'.guard.path = s.guard.path) (grows : s.graph.Grows s'.graph) {r : Resolution}
    {ids : List ComponentId} (outside : r.capability ∉ s'.guard.path)
    (new : s'.graph.byKey.lookup r.capability = none)
    (resolved : t.resolve c r.capability = .ok r) (required : t.Required c root r.capability)
    (declared : ∀ stack, r.bundle = some stack → t.EmbedsExist stack)
    (named : ids.map s'.graph.capability? = (t.dependenciesOf c r.capability).map some) :
    Answers t c root s (fun id g => g.capability? id = some r.capability)
      (.ok (s'.record r ids).1, (s'.record r ids).2) := by
  obtain ⟨consistent, added, isNamed⟩ := h.record outside new resolved required declared named
  exact ⟨consistent, path, grows.trans added, by simpa using isNamed, by simp⟩

/-- A resolver finds the component of every capability that may come next, if there are fewer
symbols to meet than `depth`. -/
def Resolves (t : Table) (c : Conventions) (root : QualifiedName) (depth : Nat)
    (resolveOne : QualifiedName → BuildStep ComponentId) : Prop :=
  ∀ s stack a, Consistent t c root s → Follows t c root s.guard.path stack →
    t.EmbedsCapability stack a → t.unmet s.guard.path < depth →
    Answers t c root s (fun id g => g.capability? id = some a) (resolveOne a s)

/-- The ids stand for the capabilities of a contract, and none of its embeds is missing. -/
def StackResolved (t : Table) (stack : QualifiedName) (ids : List ComponentId)
    (g : DependencyGraph) : Prop :=
  t.EmbedsExist stack ∧ ids.map g.capability? = (t.capabilitiesOf stack).map some

section Level

variable {depth : Nat} {resolveOne : QualifiedName → BuildStep ComponentId}

/-- The loop over the embeds of a contract. `done` are the capabilities met in it so far. -/
theorem resolveEmbeds_answers (resolves : Resolves t c root depth resolveOne)
    {stack : QualifiedName} {contract : Interface} (declared : t.interface? stack = some contract) :
    ∀ (names : List QualifiedName) (done : List QualifiedName) (ids : List ComponentId)
      (s : BuildState), Consistent t c root s → Follows t c root s.guard.path stack →
      t.unmet s.guard.path < depth → (∀ d ∈ names, d ∈ contract.declaredEmbeds) →
      ids.map s.graph.capability? = done.eraseDups.map some →
      Answers t c root s
        (fun ids' g => (∀ d ∈ names, t.contains d) ∧ ids'.map g.capability? =
          (done ++ names.filter fun d => (t.interface? d).isSome).eraseDups.map some)
        (resolveEmbeds t resolveOne names ids s)
  | [], done, ids, s, consistent, _, _, _, named => by
    rw [resolveEmbeds]
    exact .of_ok consistent (by simpa using named)
  | d :: names, done, ids, s, consistent, follows, bound, embeds, named => by
    have isEmbedded := embeds d List.mem_cons_self
    have others : ∀ d ∈ names, d ∈ contract.declaredEmbeds := fun d member =>
      embeds d (List.mem_cons_of_mem _ member)
    cases found : t.contract d with
    | error e =>
      rcases Table.contract_eq_error found with ⟨missing, rfl⟩ | ⟨present, other, rfl⟩
      · have dangling : Failure t c root (.symbolNotFound d) :=
          .dangling follows.requiredStack declared (Table.mem_declaredEmbeds.mp isEmbedded) missing
        simp only [resolveEmbeds, found]
        exact .of_error consistent dangling
      · have rest := resolveEmbeds_answers resolves declared names done ids s consistent follows
          bound others named
        simp only [resolveEmbeds, found]
        refine { rest with value := fun ids' ok => ?_ }
        obtain ⟨exist, named'⟩ := rest.value ids' ok
        exact ⟨by simpa [Table.contains, present] using exist, by simpa [other] using named'⟩
    | ok i =>
      have isInterface := Table.contract_eq_ok.mp found
      have embedded : t.EmbedsCapability stack d :=
        ⟨contract, declared, Table.mem_declaredEmbeds.mp isEmbedded, by simp [isInterface]⟩
      have one := resolves s stack d consistent follows embedded bound
      simp only [resolveEmbeds, found]
      rcases answer : resolveOne d s with ⟨result, s'⟩
      rw [answer] at one
      cases result with
      | error e => exact one.of_failed
      | ok id =>
        have isNamed : s'.graph.capability? id = some d := one.value id rfl
        have kept := one.grows.names named
        have named' := one.consistent.graph.push (one.grows.names named) isNamed
        have rest := resolveEmbeds_answers resolves declared names (done ++ [d]) _ s'
          one.consistent (one.path ▸ follows) (one.path ▸ bound) others named'
        refine { rest.after one.path one.grows with value := fun ids' ok => ?_ }
        obtain ⟨exist, final⟩ := rest.value ids' ok
        have present := Table.lookup_isSome_of_interface? isInterface
        exact ⟨by simpa [Table.contains, present] using exist, by simpa [isInterface] using final⟩

/-- All capabilities of a contract, in a state where its embeds are followed. -/
theorem resolveStack_answers (resolves : Resolves t c root depth resolveOne) {s : BuildState}
    {stack : QualifiedName} (consistent : Consistent t c root s)
    (follows : Follows t c root s.guard.path stack) (bound : t.unmet s.guard.path < depth)
    (isInterface : (t.interface? stack).isSome) :
    Answers t c root s (StackResolved t stack) (resolveStack t resolveOne stack s) := by
  obtain ⟨contract, declared⟩ := Option.isSome_iff_exists.mp isInterface
  simp only [resolveStack, Table.contract_eq_ok.mpr declared]
  have all := resolveEmbeds_answers resolves declared contract.declaredEmbeds [] [] s consistent
    follows bound (fun _ member => member) rfl
  refine { all with value := fun ids ok => ?_ }
  obtain ⟨exist, named⟩ := all.value ids ok
  refine ⟨fun other d declared' embedded => ?_, ?_⟩
  · cases declared.symm.trans declared'
    exact exist d (Table.mem_declaredEmbeds.mpr embedded)
  · simpa [Table.capabilitiesOf, declared] using named

/-- A capability without a component, which has just been entered. -/
theorem resolveUncached_answers (resolves : Resolves t c root depth resolveOne) {s : BuildState}
    {stack a : QualifiedName} (consistent : Consistent t c root s)
    (follows : Follows t c root s.guard.path stack) (embedded : t.EmbedsCapability stack a)
    (bound : t.unmet s.guard.path < depth + 1) (new : s.guard.cached? a = none)
    (outside : a ∉ s.guard.path) :
    let entered := { s with guard := { s.guard with path := s.guard.path ++ [a] } }
    let (result, s') := resolveUncached t c resolveOne a entered
    Answers t c root s (fun id g => g.capability? id = some a) (result, s'.leave a) := by
  intro entered
  have indexed : s.graph.byKey.lookup a = none := (consistent.cached a).symm.trans new
  have inside : Consistent t c root entered := consistent.enter outside indexed
  have required : t.Required c root a := follows.requiredStack.required embedded
  unfold resolveUncached
  cases resolved : t.resolve c a with
  | error e =>
    obtain ⟨left, path⟩ := inside.leave rfl
    exact ⟨left, path, .refl _, by simp, by simpa using .unresolved required resolved⟩
  | ok r =>
    have same := Table.resolve_capability resolved
    subst same
    cases taken : r.bundle with
    | none =>
      obtain ⟨left, path⟩ := inside.leave rfl
      simp only [taken]
      exact left.answers_record path (.refl _) (path ▸ outside) indexed resolved required
        (by simp [taken]) (by simp [Table.dependenciesOf_eq resolved, taken])
    | some bundle =>
      have deeper : t.unmet entered.guard.path < depth :=
        Table.unmet_lt_depth (List.subset_append_left ..) (by simp [entered]) outside
          (Table.resolve_interface resolved) bound
      have rest := resolveStack_answers resolves inside
        (follows.bundle embedded ⟨r, resolved, taken⟩) deeper
        (Table.resolve_bundle_interface resolved taken)
      simp only [taken]
      rcases answer : resolveStack t resolveOne bundle entered with ⟨result, s'⟩
      rw [answer] at rest
      obtain ⟨left, path⟩ := rest.consistent.leave rest.path
      cases result with
      | error e => exact ⟨left, path, rest.grows, by simp, by simpa using rest.failure⟩
      | ok ids =>
        obtain ⟨exist, named⟩ := rest.value ids rfl
        have onPath : r.capability ∈ s'.guard.path := by
          have path : s'.guard.path = s.guard.path ++ [r.capability] := rest.path
          simp [path]
        have dependencies : t.dependenciesOf c r.capability = t.capabilitiesOf bundle := by
          simp [Table.dependenciesOf_eq resolved, taken]
        exact left.answers_record path rest.grows (path ▸ outside)
          (rest.consistent.unsettled _ onPath) resolved required
          (fun stack is => Option.some.inj (taken.symm.trans is) ▸ exist) (dependencies ▸ named)

/-- One level more can descend one symbol further. -/
theorem resolveLevel_resolves (resolves : Resolves t c root depth resolveOne) :
    Resolves t c root (depth + 1) (resolveLevel t c resolveOne) := by
  intro s stack a consistent follows embedded bound
  have required : t.Required c root a := follows.requiredStack.required embedded
  by_cases again : a ∈ s.guard.path
  · simp only [resolveLevel, ResolutionState.enter, again, if_true]
    exact .of_error consistent
      (.cycle required (follows.cycle embedded consistent.path_nodup again))
  · have entered : ({ s.guard with path := s.guard.path ++ [a] } : ResolutionState).cached? a =
        s.guard.cached? a := rfl
    simp only [resolveLevel, ResolutionState.enter, again, if_false, entered]
    cases cached : s.guard.cached? a with
    | none => exact resolveUncached_answers resolves consistent follows embedded bound cached again
    | some id =>
      have isNamed := (consistent.graph.indexed a id).mp ((consistent.cached a).symm.trans cached)
      simp only [ResolutionState.leave_enter]
      exact .of_ok consistent isNamed

theorem resolveComponent_resolves (beyond : QualifiedName → BuildStep ComponentId) :
    ∀ depth, Resolves t c root depth (resolveComponent t c beyond depth)
  | 0 => fun _ _ _ _ _ _ bound => absurd bound (Nat.not_lt_zero _)
  | depth + 1 => resolveLevel_resolves (resolveComponent_resolves beyond depth)

end Level

end MiddlewareStack
