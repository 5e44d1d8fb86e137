import MiddlewareStack.Proofs.BuiltGraph

/-!
# Why a compile ends

Three recursions of a compile are bounded: the walk over embedded contracts, the descent over
dependencies and the placement of components. Neither bound is ever used up: what stands behind it
is not asked for, so that the recursion would end at the same answer without it. A walk or a descent
ends because each level has met one more symbol of the table.
-/

namespace MiddlewareStack

variable {t : Table} {c : Conventions}

section Walk

/-- Two walks that do the same wherever fewer symbols than `depth` are unmet, and forget none. -/
def SameWalk (t : Table) (depth : Nat) (one other : Interface → Collected → Collected) : Prop :=
  ∀ contract c, t.unmet c.seen < depth →
    one contract c = other contract c ∧ c.seen ⊆ (one contract c).seen

variable {depth : Nat} {one other : Interface → Collected → Collected}

theorem collectEmbeds_same (same : SameWalk t depth one other) :
    ∀ (names : List QualifiedName) (c : Collected), t.unmet c.seen < depth + 1 →
      collectEmbeds t one names c = collectEmbeds t other names c ∧
        c.seen ⊆ (collectEmbeds t one names c).seen
  | [], c, _ => by simp [collectEmbeds]
  | name :: rest, c, bound => by
    by_cases met : name ∈ c.seen
    · simpa only [collectEmbeds, met, if_true] using collectEmbeds_same same rest c bound
    · simp only [collectEmbeds, met, if_false]
      cases found : t.interface? name with
      | none =>
        have fewer := Table.unmet_le (t := t) (List.subset_cons_self name c.seen)
        obtain ⟨equal, grows⟩ := collectEmbeds_same same rest
          { c with seen := name :: c.seen } (Nat.lt_of_le_of_lt fewer bound)
        exact ⟨equal, fun x member => grows (List.mem_cons_of_mem _ member)⟩
      | some embedded =>
        have deeper : t.unmet (name :: c.seen) < depth :=
          Table.unmet_lt_depth (List.subset_cons_self name c.seen) List.mem_cons_self met
            (by simp [found]) bound
        obtain ⟨visited, kept⟩ := same embedded { c with seen := name :: c.seen } deeper
        have fewer := Table.unmet_le (t := t) kept
        obtain ⟨equal, grows⟩ := collectEmbeds_same same rest
          (one embedded { c with seen := name :: c.seen })
          (Nat.lt_succ_of_lt (Nat.lt_of_le_of_lt fewer deeper))
        simp only [← visited]
        exact ⟨equal, fun x member => grows (kept (List.mem_cons_of_mem _ member))⟩

theorem collectLevel_same (same : SameWalk t depth one other) :
    SameWalk t (depth + 1) (collectLevel t one) (collectLevel t other) := fun contract c bound =>
  collectEmbeds_same same contract.declaredEmbeds (c.addMethods contract.methods) bound

theorem collect_same (beyond beyond' : Interface → Collected → Collected) (extra : Nat) :
    ∀ depth, SameWalk t depth (collect t beyond (depth + extra)) (collect t beyond' depth)
  | 0 => fun _ _ bound => absurd bound (Nat.not_lt_zero _)
  | depth + 1 => by
    rw [Nat.add_right_comm]
    exact collectLevel_same (collect_same beyond beyond' extra depth)

/-- The methods that a contract requires do not hang on the bound of the walk. -/
theorem requiredWithin_eq (beyond : Interface → Collected → Collected) {depth : Nat}
    (deep : t.symbolCount < depth) (contract : Interface) :
    requiredWithin t beyond depth contract = requiredMethods t contract := by
  obtain ⟨extra, rfl⟩ := Nat.exists_eq_add_of_lt deep
  have same := collect_same (t := t) beyond (fun _ c => c) extra (t.symbolCount + 1) contract {}
    (t.unmet_nil ▸ Nat.lt_succ_self _)
  rw [Nat.add_right_comm] at same
  exact congrArg Collected.methods same.1

end Walk

section Descent

/-- Two resolvers that do the same wherever fewer symbols than `depth` are off the path, and give
the path back as it was. -/
def SameDescent (t : Table) (depth : Nat) (one other : QualifiedName → BuildStep ComponentId) :
    Prop :=
  ∀ s a, t.unmet s.guard.path < depth →
    one a s = other a s ∧ (one a s).2.guard.path = s.guard.path

variable {depth : Nat} {one other : QualifiedName → BuildStep ComponentId}

theorem resolveEmbeds_same (same : SameDescent t depth one other) :
    ∀ (names : List QualifiedName) (ids : List ComponentId) (s : BuildState),
      t.unmet s.guard.path < depth →
      resolveEmbeds t one names ids s = resolveEmbeds t other names ids s ∧
        (resolveEmbeds t one names ids s).2.guard.path = s.guard.path
  | [], ids, s, _ => by simp [resolveEmbeds]
  | d :: rest, ids, s, bound => by
    cases found : t.contract d with
    | error e =>
      cases e with
      | notAnInterface name =>
        simpa only [resolveEmbeds, found] using resolveEmbeds_same same rest ids s bound
      | _ => simp [resolveEmbeds, found]
    | ok contract =>
      obtain ⟨equal, path⟩ := same s d bound
      simp only [resolveEmbeds, found, ← equal]
      rcases answer : one d s with ⟨result, s'⟩
      rw [answer] at path
      cases result with
      | error e => exact ⟨rfl, path⟩
      | ok id =>
        have rest := resolveEmbeds_same same rest (if id ∈ ids then ids else ids ++ [id]) s'
          (path ▸ bound)
        exact ⟨rest.1, rest.2.trans path⟩

theorem resolveStack_same (same : SameDescent t depth one other) (stack : QualifiedName)
    (s : BuildState) (bound : t.unmet s.guard.path < depth) :
    resolveStack t one stack s = resolveStack t other stack s ∧
      (resolveStack t one stack s).2.guard.path = s.guard.path := by
  unfold resolveStack
  cases t.contract stack with
  | error e => simp
  | ok contract => exact resolveEmbeds_same same contract.declaredEmbeds [] s bound

theorem resolveUncached_same (same : SameDescent t depth one other) (a : QualifiedName)
    (s : BuildState) (bound : (t.interface? a).isSome → t.unmet s.guard.path < depth) :
    resolveUncached t c one a s = resolveUncached t c other a s ∧
      (resolveUncached t c one a s).2.guard.path = s.guard.path := by
  unfold resolveUncached
  cases resolved : t.resolve c a with
  | error e => simp
  | ok r =>
    cases taken : r.bundle with
    | none => simp [taken, BuildState.record, ResolutionState.remember]
    | some bundle =>
      obtain ⟨equal, path⟩ :=
        resolveStack_same same bundle s (bound (Table.resolve_interface resolved))
      simp only [taken, ← equal]
      rcases answer : resolveStack t one bundle s with ⟨result, s'⟩
      rw [answer] at path
      cases result <;> exact ⟨trivial, path⟩

/-- Entering a capability leaves one symbol less to meet, if the capability is a symbol at all. -/
theorem resolveLevel_same (same : SameDescent t depth one other) :
    SameDescent t (depth + 1) (resolveLevel t c one) (resolveLevel t c other) := by
  intro s a bound
  by_cases again : a ∈ s.guard.path
  · simp [resolveLevel, ResolutionState.enter, again]
  · simp only [resolveLevel, ResolutionState.enter, again, if_false]
    generalize entered : ({ s.guard with path := s.guard.path ++ [a] } : ResolutionState) = guard
    have left : guard.path = s.guard.path ++ [a] := by rw [← entered]
    have deeper : (t.interface? a).isSome → t.unmet guard.path < depth := by
      intro isInterface
      subst entered
      exact Table.unmet_lt_depth (List.subset_append_left ..) (by simp) again isInterface bound
    cases guard.cached? a with
    | some id => exact ⟨rfl, ResolutionState.path_leave left⟩
    | none =>
      obtain ⟨equal, path⟩ := resolveUncached_same (c := c) same a { s with guard } deeper
      simp only [← equal]
      exact ⟨trivial, ResolutionState.path_leave (path.trans left)⟩

theorem resolveComponent_same (beyond beyond' : QualifiedName → BuildStep ComponentId)
    (extra : Nat) :
    ∀ depth, SameDescent t depth (resolveComponent t c beyond (depth + extra))
      (resolveComponent t c beyond' depth)
  | 0 => fun _ _ bound => absurd bound (Nat.not_lt_zero _)
  | depth + 1 => by
    rw [Nat.add_right_comm]
    exact resolveLevel_same (resolveComponent_same beyond beyond' extra depth)

/-- The graph of a root does not hang on the bound of the descent. -/
theorem buildWithin_eq (beyond : QualifiedName → BuildStep ComponentId) {depth : Nat}
    (deep : t.symbolCount < depth) (root : QualifiedName) :
    DependencyGraph.buildWithin t c beyond depth root = DependencyGraph.build t c root := by
  obtain ⟨extra, rfl⟩ := Nat.exists_eq_add_of_lt deep
  unfold DependencyGraph.build DependencyGraph.buildWithin
  rw [Nat.add_right_comm]
  have same := resolveStack_same (resolveComponent_same (t := t) (c := c) beyond
    (fun capability s => (.error (.cyclicDependency capability s.guard.path), s)) extra
    (t.symbolCount + 1)) root { graph := { root } } (t.unmet_nil ▸ Nat.lt_succ_self _)
  rw [same.1]

end Descent

/-- None of the bounds in a compile is used up. -/
structure Bounded (t : Table) (c : Conventions) : Prop where
  walk : ∀ beyond depth contract, t.symbolCount < depth →
    requiredWithin t beyond depth contract = requiredMethods t contract
  descent : ∀ beyond depth root, t.symbolCount < depth →
    DependencyGraph.buildWithin t c beyond depth root = DependencyGraph.build t c root
  placement : ∀ root g, DependencyGraph.build t c root = .ok g →
    (g.placeFrom g.size g.start).ready = []

theorem bounded (t : Table) (c : Conventions) : Bounded t c where
  walk beyond _ contract deep := requiredWithin_eq beyond deep contract
  descent beyond _ root deep := buildWithin_eq beyond deep root
  placement root g built := by
    have numbered := (DependencyGraph.build_ok built).numbered
    exact (DependencyGraph.placeFrom_counts numbered g.size g.start (.start numbered)).2
      (Nat.le_add_left ..)

end MiddlewareStack
