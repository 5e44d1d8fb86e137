import MiddlewareStack.Proofs.CycleReport

/-!
# The balance of the guard

However a resolution state is used, its path holds no key twice, and the keys on it are those that
were entered and not left since. A build uses it in a balanced way: the path of a call holds the
capabilities of the calls around it, the call gives that path back, and at its end the cache and the
graph know the same capabilities (`guard_is_balanced`).
-/

namespace MiddlewareStack

/-! ## Uses of a resolution state -/

inductive GuardUse
  | enter (key : QualifiedName)
  | leave (key : QualifiedName)
  | remember (key : QualifiedName) (id : ComponentId)
  deriving DecidableEq, Repr

/-- Whether a use puts this key on the path or takes it off. -/
def GuardUse.marks (key : QualifiedName) : GuardUse → Bool
  | .enter other | .leave other => other = key
  | .remember _ _ => false

namespace ResolutionState

variable {s : ResolutionState} {key : QualifiedName}

/-- The state after a use. A refused entry leaves it as it is. -/
def use (s : ResolutionState) : GuardUse → ResolutionState
  | .enter key =>
    match s.enter key with
    | .ok entered => entered
    | .error _ => s
  | .leave key => s.leave key
  | .remember key id => s.remember key id

def ofUses (uses : List GuardUse) : ResolutionState :=
  uses.foldl use {}

theorem enter_of_mem (again : key ∈ s.path) :
    s.enter key = .error (.cyclicDependency key (s.path.dropWhile (· ≠ key) ++ [key])) :=
  if_pos again

theorem enter_of_not_mem (new : key ∉ s.path) :
    s.enter key = .ok { s with path := s.path ++ [key] } :=
  if_neg new

theorem use_enter_of_mem (again : key ∈ s.path) : s.use (.enter key) = s := by
  rw [use, enter_of_mem again]

theorem use_enter_of_not_mem (new : key ∉ s.path) :
    s.use (.enter key) = { s with path := s.path ++ [key] } := by
  rw [use, enter_of_not_mem new]

/-- On a path that holds a key once, its last mark is its only one. -/
theorem leave_eq_filter (once : s.path.Nodup) (key : QualifiedName) :
    s.leave key = { s with path := s.path.filter (· != key) } := by
  have distinct : s.path.reverse.Nodup := List.nodup_reverse.mpr once
  rw [leave, distinct.erase_eq_filter, List.filter_reverse, List.reverse_reverse]

theorem nodup_use (once : s.path.Nodup) : ∀ use, (s.use use).path.Nodup
  | .enter key => by
    by_cases again : key ∈ s.path
    · rwa [use_enter_of_mem again]
    · rw [use_enter_of_not_mem again]
      simpa using once.concat again
  | .leave key => by
    rw [use, leave_eq_filter once]
    exact once.filter _
  | .remember _ _ => once

theorem mem_path_use (once : s.path.Nodup) :
    ∀ use, key ∈ (s.use use).path ↔
      use = .enter key ∨ use.marks key = false ∧ key ∈ s.path
  | .enter other => by
    by_cases again : other ∈ s.path
    · rw [use_enter_of_mem again]
      by_cases same : other = key
      · subst same
        simp [again]
      · simp [GuardUse.marks, same]
    · rw [use_enter_of_not_mem again]
      by_cases same : other = key
      · simp [same]
      · simp [GuardUse.marks, same, Ne.symm same]
  | .leave other => by
    rw [use, leave_eq_filter once]
    by_cases same : other = key
    · simp [GuardUse.marks, same]
    · simp [GuardUse.marks, same, Ne.symm same]
  | .remember other id => by
    simp [use, remember, GuardUse.marks]

theorem nodup_ofUses (uses : List GuardUse) : (ofUses uses).path.Nodup := by
  induction uses using List.reverseRecOn with
  | nil => exact .nil
  | append_singleton uses last ih =>
    rw [ofUses, List.foldl_append]
    exact nodup_use ih last

/-- The last use that marks a key decides whether it is on the path. -/
theorem mem_path_ofUses (uses : List GuardUse) (key : QualifiedName) :
    key ∈ (ofUses uses).path ↔
      (uses.filter (·.marks key)).getLast? = some (.enter key) := by
  induction uses using List.reverseRecOn with
  | nil => simp [ofUses]
  | append_singleton uses last ih =>
    have step : ofUses (uses ++ [last]) = (ofUses uses).use last := by
      simp [ofUses]
    rw [step, mem_path_use (nodup_ofUses uses), ih, List.filter_append, List.getLast?_append]
    by_cases marked : last.marks key
    · simp [marked]
    · have other : last ≠ .enter key := by
        rintro rfl
        simp [GuardUse.marks] at marked
      simp [marked, other]

end ResolutionState

/-- A state that some uses lead to. -/
structure UsedState (uses : List GuardUse) (s : ResolutionState) : Prop where
  once : s.path.Nodup
  onPath : ∀ key, key ∈ s.path ↔ (uses.filter (·.marks key)).getLast? = some (.enter key)
  refused : ∀ key, (∃ e, s.enter key = .error e) ↔ key ∈ s.path
  unchanged : ∀ key ∈ s.path, s.use (.enter key) = s
  entered : ∀ key ∉ s.path, s.enter key = .ok { s with path := s.path ++ [key] }
  left : ∀ key, s.leave key = { s with path := s.path.filter (· != key) }

open ResolutionState in
theorem UsedState.ofUses (uses : List GuardUse) : UsedState uses (ofUses uses) where
  once := nodup_ofUses uses
  onPath := mem_path_ofUses uses
  refused key := by
    by_cases again : key ∈ (ResolutionState.ofUses uses).path
    · simp [enter_of_mem again, again]
    · simp [enter_of_not_mem again, again]
  unchanged _ again := use_enter_of_mem again
  entered _ new := enter_of_not_mem new
  left := leave_eq_filter (nodup_ofUses uses)

/-! ## Calls of a build -/

section Calls

variable (t : Table) (c : Conventions) (one : QualifiedName → BuildStep ComponentId)

/-- While the embeds `names` are resolved from the state `s`, `one` is called for `a` in `s'`. -/
inductive EmbedCall : List QualifiedName → BuildState → QualifiedName → BuildState → Prop
  | here {a : QualifiedName} {rest : List QualifiedName} {s : BuildState} {contract : Interface}
      (found : t.contract a = .ok contract) : EmbedCall (a :: rest) s a s
  | passed {name other a : QualifiedName} {rest : List QualifiedName} {s s' : BuildState}
      (skipped : t.contract name = .error (.notAnInterface other))
      (later : EmbedCall rest s a s') : EmbedCall (name :: rest) s a s'
  | resolved {name a : QualifiedName} {rest : List QualifiedName} {s next s' : BuildState}
      {contract : Interface} {id : ComponentId} (found : t.contract name = .ok contract)
      (answer : one name s = (.ok id, next)) (later : EmbedCall rest next a s') :
      EmbedCall (name :: rest) s a s'

/-- While the capabilities of `stack` are resolved from `s`, `one` is called for `a` in `s'`. -/
def StackCall (stack : QualifiedName) (s : BuildState) (a : QualifiedName) (s' : BuildState) :
    Prop :=
  ∃ contract, t.contract stack = .ok contract ∧
    EmbedCall t one contract.declaredEmbeds s a s'

/-- While `b`, which has no component yet, is resolved from `s`, `one` is called for `a` in `s'`. -/
def UncachedCall (b : QualifiedName) (s : BuildState) (a : QualifiedName) (s' : BuildState) :
    Prop :=
  ∃ r stack, t.resolve c b = .ok r ∧ r.bundle = some stack ∧ StackCall t one stack s a s'

/-- While `b` is resolved from `s`, `one` is called for `a` in `s'`. -/
def InnerCall (b : QualifiedName) (s : BuildState) (a : QualifiedName) (s' : BuildState) : Prop :=
  ∃ guard, s.guard.enter b = .ok guard ∧ guard.cached? b = none ∧
    UncachedCall t c one b { s with guard } a s'

end Calls

variable {t : Table} {c : Conventions} {root : QualifiedName}
  {one other : QualifiedName → BuildStep ComponentId}

/-! A resolver that answers the calls alike gives the same results. -/

theorem resolveEmbeds_of_calls :
    ∀ (names : List QualifiedName) (ids : List ComponentId) (s : BuildState),
      (∀ a s', EmbedCall t one names s a s' → other a s' = one a s') →
      resolveEmbeds t other names ids s = resolveEmbeds t one names ids s
  | [], _, _, _ => rfl
  | name :: rest, ids, s, same => by
    cases found : t.contract name with
    | error e =>
      cases e with
      | notAnInterface _ =>
        simp only [resolveEmbeds, found]
        exact resolveEmbeds_of_calls rest ids s fun a s' call => same a s' (.passed found call)
      | _ => simp only [resolveEmbeds, found]
    | ok contract =>
      have called : other name s = one name s := same name s (.here found)
      simp only [resolveEmbeds, found, called]
      rcases answer : one name s with ⟨result, next⟩
      cases result with
      | error e => rfl
      | ok id =>
        exact resolveEmbeds_of_calls rest _ next fun a s' call =>
          same a s' (.resolved found answer call)

theorem resolveStack_of_calls {stack : QualifiedName} {s : BuildState}
    (same : ∀ a s', StackCall t one stack s a s' → other a s' = one a s') :
    resolveStack t other stack s = resolveStack t one stack s := by
  unfold resolveStack
  cases found : t.contract stack with
  | error e => rfl
  | ok contract =>
    exact resolveEmbeds_of_calls _ [] s fun a s' call => same a s' ⟨contract, found, call⟩

theorem resolveUncached_of_calls {b : QualifiedName} {s : BuildState}
    (same : ∀ a s', UncachedCall t c one b s a s' → other a s' = one a s') :
    resolveUncached t c other b s = resolveUncached t c one b s := by
  unfold resolveUncached
  cases resolved : t.resolve c b with
  | error e => rfl
  | ok r =>
    cases taken : r.bundle with
    | none => simp only [taken]
    | some stack =>
      simp only [taken]
      rw [resolveStack_of_calls fun a s' call => same a s' ⟨r, stack, resolved, taken, call⟩]

theorem resolveLevel_of_calls {b : QualifiedName} {s : BuildState}
    (same : ∀ a s', InnerCall t c one b s a s' → other a s' = one a s') :
    resolveLevel t c other b s = resolveLevel t c one b s := by
  unfold resolveLevel
  cases entered : s.guard.enter b with
  | error e => rfl
  | ok guard =>
    cases known : guard.cached? b with
    | some id => simp only [known]
    | none =>
      simp only [known]
      rw [resolveUncached_of_calls fun a s' call => same a s' ⟨guard, entered, known, call⟩]

/-! ## The path and the cache at a call -/

/-- The resolver of a build with some levels left. -/
def resolverWithin (t : Table) (c : Conventions) : Nat → QualifiedName → BuildStep ComponentId :=
  resolveComponent t c fun capability s => (.error (.cyclicDependency capability s.guard.path), s)

/-- While the graph of `root` is built, `a` is resolved from `s` with some levels left. Around that
call are those of the capabilities `active`, outermost first. -/
inductive BuildCall (t : Table) (c : Conventions) (root : QualifiedName) :
    List QualifiedName → Nat → QualifiedName → BuildState → Prop
  | direct {a : QualifiedName} {s : BuildState}
      (call : StackCall t (resolverWithin t c (t.symbolCount + 1)) root { graph := { root } } a s) :
      BuildCall t c root [] (t.symbolCount + 1) a s
  | inner {active : List QualifiedName} {level : Nat} {b a : QualifiedName} {s s' : BuildState}
      (around : BuildCall t c root active (level + 1) b s)
      (call : InnerCall t c (resolverWithin t c level) b s a s') :
      BuildCall t c root (active ++ [b]) level a s'

/-- No call is missing: a resolver that answers the calls of a build alike can take their place. -/
structure AllCalls (t : Table) (c : Conventions) (root : QualifiedName) : Prop where
  direct : ∀ other,
    (∀ a s, BuildCall t c root [] (t.symbolCount + 1) a s →
      other a s = resolverWithin t c (t.symbolCount + 1) a s) →
    resolveStack t other root { graph := { root } } =
      resolveStack t (resolverWithin t c (t.symbolCount + 1)) root { graph := { root } }
  inner : ∀ active level b s, BuildCall t c root active (level + 1) b s → ∀ other,
    (∀ a s', BuildCall t c root (active ++ [b]) level a s' →
      other a s' = resolverWithin t c level a s') →
    resolveLevel t c other b s = resolverWithin t c (level + 1) b s

theorem allCalls (t : Table) (c : Conventions) (root : QualifiedName) : AllCalls t c root where
  direct _ same := resolveStack_of_calls fun a s call => same a s (.direct call)
  inner _ _ _ _ around _ same :=
    resolveLevel_of_calls fun a s' call => same a s' (.inner around call)

/-- A state in which the embeds of `stack` are followed, with some levels left. -/
structure Following (t : Table) (c : Conventions) (root : QualifiedName)
    (active : List QualifiedName) (level : Nat) (stack : QualifiedName) (s : BuildState) :
    Prop where
  consistent : Consistent t c root s
  path : s.guard.path = active
  follows : Follows t c root active stack
  bound : t.unmet active < level

namespace Following

variable {active : List QualifiedName} {level : Nat} {stack a : QualifiedName} {s s' : BuildState}

theorem answers (h : Following t c root active level stack s)
    (embedded : t.EmbedsCapability stack a) :
    Answers t c root s (fun id g => g.capability? id = some a) (resolverWithin t c level a s) :=
  resolveComponent_resolves _ level s stack a h.consistent (h.path ▸ h.follows) embedded
    (h.path ▸ h.bound)

/-- A call within the loop over embeds begins where the loop began, as to the path. -/
theorem embedCall {names : List QualifiedName}
    (call : EmbedCall t (resolverWithin t c level) names s a s') :
    Following t c root active level stack s →
      (∀ d ∈ names, (t.interface? d).isSome → t.EmbedsCapability stack d) →
      Following t c root active level stack s' ∧ t.EmbedsCapability stack a := by
  induction call with
  | here found =>
    exact fun h embeds =>
      ⟨h, embeds _ List.mem_cons_self (Table.isSome_interface?_of_contract found)⟩
  | passed skipped later ih =>
    exact fun h embeds => ih h fun d member => embeds d (List.mem_cons_of_mem _ member)
  | resolved found answer later ih =>
    intro h embeds
    have embedded := embeds _ List.mem_cons_self (Table.isSome_interface?_of_contract found)
    have answers := h.answers embedded
    rw [answer] at answers
    exact ih { h with consistent := answers.consistent, path := answers.path.trans h.path }
      fun d member => embeds d (List.mem_cons_of_mem _ member)

theorem stackCall (h : Following t c root active level stack s)
    (call : StackCall t (resolverWithin t c level) stack s a s') :
    Following t c root active level stack s' ∧ t.EmbedsCapability stack a := by
  obtain ⟨contract, found, call⟩ := call
  exact embedCall call h fun d member isInterface =>
    ⟨contract, Table.contract_eq_ok.mp found, Table.mem_declaredEmbeds.mp member, isInterface⟩

end Following

/-- Every call happens while the embeds of some contract are followed, its capability among them. -/
theorem BuildCall.following {active : List QualifiedName} {level : Nat} {a : QualifiedName}
    {s : BuildState} (call : BuildCall t c root active level a s) :
    ∃ stack, Following t c root active level stack s ∧ t.EmbedsCapability stack a := by
  induction call with
  | direct call =>
    have start : Following t c root [] (t.symbolCount + 1) root { graph := { root } } :=
      ⟨.start, rfl, .root, t.unmet_nil ▸ Nat.lt_succ_self _⟩
    exact ⟨root, start.stackCall call⟩
  | @inner active level b a s s' around call ih =>
    obtain ⟨outer, following, embedded⟩ := ih
    obtain ⟨guard, entered, unknown, r, stack, resolved, taken, call⟩ := call
    by_cases again : b ∈ s.guard.path
    · simp [ResolutionState.enter_of_mem again] at entered
    · rw [ResolutionState.enter_of_not_mem again] at entered
      cases entered
      have unindexed : s.graph.byKey.lookup b = none :=
        (following.consistent.cached b).symm.trans unknown
      have path : s.guard.path ++ [b] = active ++ [b] := by rw [following.path]
      have inside : Following t c root (active ++ [b]) level stack
          { s with guard := { s.guard with path := s.guard.path ++ [b] } } :=
        { consistent := following.consistent.enter again unindexed
          path
          follows := following.follows.bundle embedded ⟨r, resolved, taken⟩
          bound := Table.unmet_lt_depth (List.subset_append_left ..) (by simp)
            (following.path ▸ again) (Table.resolve_interface resolved) following.bound }
      exact ⟨stack, inside.stackCall call⟩

/-- A call that begins with the path `active` and ends with it, whatever the answer is, when the
cache and the index of the graph know the same capabilities by the same ids. -/
structure BalancedCall (active : List QualifiedName) (s : BuildState)
    (answer : Except CompileError ComponentId × BuildState) : Prop where
  before : s.guard.path = active
  after : answer.2.guard.path = active
  once : active.Nodup
  cached : ∀ key, answer.2.guard.cached? key = answer.2.graph.byKey.lookup key

theorem BuildCall.balanced {active : List QualifiedName} {level : Nat} {a : QualifiedName}
    {s : BuildState} (call : BuildCall t c root active level a s) :
    0 < level ∧ BalancedCall active s (resolverWithin t c level a s) := by
  obtain ⟨stack, following, embedded⟩ := call.following
  have answers := following.answers embedded
  exact ⟨Nat.lt_of_le_of_lt (Nat.zero_le _) following.bound,
    { before := following.path
      after := answers.path.trans following.path
      once := following.path ▸ following.consistent.path_nodup
      cached := answers.consistent.cached }⟩

/-- A key is on the path of a resolution state once at most, and is entered only where it is not on
it. Every call of a build gives the path back as it was, and the cache and the graph agree at its
end. No call reaches behind the last level. -/
theorem guard_is_balanced (t : Table) (c : Conventions) (root : QualifiedName) :
    (∀ uses, UsedState uses (ResolutionState.ofUses uses)) ∧ AllCalls t c root ∧
      ∀ active level a s, BuildCall t c root active level a s →
        0 < level ∧ BalancedCall active s (resolverWithin t c level a s) :=
  ⟨.ofUses, allCalls t c root, fun _ _ _ _ call => call.balanced⟩

/-- In a loop of two capabilities, a third call finds its capability on the path. It fails, and
leaves the path to the calls around it. -/
theorem loop_call_is_balanced :
    let a : QualifiedName := { package := "self", name := "A" }
    let b : QualifiedName := { package := "self", name := "B" }
    let root : QualifiedName := { package := "self", name := "Root" }
    let s : BuildState := { guard := { path := [a, b] }, graph := { root } }
    BuildCall loop {} root [a, b] 6 a s ∧
      (resolverWithin loop {} 6 a s).1 = .error (.cyclicDependency a [a, b, a]) ∧
      BalancedCall [a, b] s (resolverWithin loop {} 6 a s) := by
  intro a b root s
  have first {one stack d s} (found : loop.contract stack = .ok { embeds := [.declared d] })
      (isInterface : (loop.interface? d).isSome) : StackCall loop one stack s d s := by
    obtain ⟨contract, present⟩ := Option.isSome_iff_exists.mp isInterface
    exact ⟨_, found, .here (Table.contract_eq_ok.mpr present)⟩
  have bundle (d stack : QualifiedName)
      (taken : (loop.resolve {} d).map Resolution.bundle = .ok (some stack)) :
      loop.BundleOf {} d stack := by
    cases resolved : loop.resolve {} d with
    | error e => simp [resolved, Except.map] at taken
    | ok r => exact ⟨r, resolved, by simpa [resolved, Except.map] using taken⟩
  have aCall : BuildCall loop {} root [] 8 a { graph := { root } } :=
    .direct (first (by decide +kernel) (by decide +kernel))
  have bCall : BuildCall loop {} root [a] 7 b { guard := { path := [a] }, graph := { root } } := by
    obtain ⟨r, resolved, taken⟩ :=
      bundle a { package := "self", name := "ADeps" } (by decide +kernel)
    exact .inner aCall ⟨_, rfl, rfl, r, _, resolved, taken,
      first (by decide +kernel) (by decide +kernel)⟩
  have again : BuildCall loop {} root [a, b] 6 a s := by
    obtain ⟨r, resolved, taken⟩ :=
      bundle b { package := "self", name := "BDeps" } (by decide +kernel)
    exact .inner bCall ⟨_, rfl, rfl, r, _, resolved, taken,
      first (by decide +kernel) (by decide +kernel)⟩
  exact ⟨again, by decide +kernel, ((guard_is_balanced loop {} root).2.2 _ _ _ _ again).2⟩

end MiddlewareStack
