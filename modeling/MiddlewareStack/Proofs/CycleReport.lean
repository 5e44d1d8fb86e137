import MiddlewareStack.Proofs.Bounds
import MiddlewareStack.Proofs.DiscoveryOrder

/-!
# Cycle reports

A compile ends. The chain of a cycle report is a cycle of required capabilities, and where a cycle
is the only thing wrong, a cycle is reported.
-/

namespace MiddlewareStack

open DependencyGraph

variable {t : Table} {c : Conventions} {root : QualifiedName}

/-- A resolution does not look at dependencies, so it reports no cycle. -/
theorem Table.resolve_ne_cyclic {a b : QualifiedName} {chain : List QualifiedName} :
    t.resolve c a ≠ .error (.cyclicDependency b chain) := by
  unfold resolve
  cases declared : t.contract a with
  | error e =>
    rcases contract_eq_error declared with ⟨_, rfl⟩ | ⟨_, _, rfl⟩ <;> simp [bind, Except.bind]
  | ok contract =>
    simp only [bind, Except.bind]
    cases t.concrete? (c.implementationOf a) with
    | none => simp
    | some candidate =>
      simp only [requireSatisfied]
      cases check t contract candidate with
      | missingMethod m => simp
      | signatureMismatch m => simp
      | satisfied =>
        cases candidate.methodSet.find? (·.name = c.invocationMethod) with
        | none => simp
        | some invocation =>
          dsimp only
          split <;> simp

/-- A failure that is a cycle report has a cycle behind it. -/
theorem Failure.cycle_of_report {a : QualifiedName} {chain : List QualifiedName}
    (h : Failure t c root (.cyclicDependency a chain)) :
    t.Required c root a ∧ t.Cycle c a chain := by
  cases h with
  | noContract absent => rcases Table.contract_eq_error absent with ⟨_, h⟩ | ⟨_, _, h⟩ <;> cases h
  | unresolved _ failed => exact absurd failed Table.resolve_ne_cyclic
  | cycle required cycle => exact ⟨required, cycle⟩

/-- A compile ends, a cycle report shows a cycle, and a cycle that is the only obstacle is
reported. -/
theorem compile_reports_cycles (t : Table) (c : Conventions) (scope name : String) :
    Bounded t c ∧
    (∀ a chain, t.compile c scope name = .error (.cyclicDependency a chain) →
      ∃ package, t.packagesMatching scope = [package] ∧
        t.Required c { package, name } a ∧ t.Cycle c a chain) ∧
    ∀ package, t.packagesMatching scope = [package] → t.Provided c { package, name } →
      (∃ a, t.Required c { package, name } a ∧ Relation.TransGen (t.DependsOn c) a a) →
      ∃ a chain, t.compile c scope name = .error (.cyclicDependency a chain) := by
  refine ⟨bounded t c, fun a chain reported => ?_,
    fun package found provided ⟨a, required, cyclic⟩ => ?_⟩
  · rcases Table.compile_error reported with other | ⟨package, found, failed⟩
    · cases other
    · exact ⟨package, found, (build_error failed).cycle_of_report⟩
  · rw [Table.compile_eq_build found]
    cases built : DependencyGraph.build t c { package, name } with
    | ok g => exact absurd cyclic ((build_ok built).compilable.acyclic a required)
    | error e =>
      obtain ⟨b, chain, rfl, _⟩ := (build_error built).cycle_of_provided provided
      exact ⟨b, chain, rfl⟩

/-- Two capabilities that depend on each other. -/
def loop : Table :=
  (((((Table.empty.addStack "Root" ["A"]).addCapability "A" (some "ADeps")).addStack "ADeps"
    ["B"]).addCapability "B" (some "BDeps")).addStack "BDeps" ["A"])

theorem loop_reports_cycle :
    let a : QualifiedName := { package := "self", name := "A" }
    let b : QualifiedName := { package := "self", name := "B" }
    loop.compile {} "self" "Root" = .error (.cyclicDependency a [a, b, a]) ∧
      loop.Cycle {} a [a, b, a] := by
  intro a b
  have reported : loop.compile {} "self" "Root" = .error (.cyclicDependency a [a, b, a]) := by
    decide +kernel
  obtain ⟨_, _, _, cycle⟩ := (compile_reports_cycles loop {} "self" "Root").2.1 _ _ reported
  exact ⟨reported, cycle⟩

end MiddlewareStack
