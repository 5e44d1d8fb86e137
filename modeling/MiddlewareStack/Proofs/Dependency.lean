import Mathlib.Data.List.Chain
import Mathlib.Logic.Relation
import MiddlewareStack.Proofs.SymbolNames

/-!
# What a stack requires

A contract embeds capabilities; a capability depends on those that the bundle of its resolution
embeds; a root requires everything it reaches in this way. Nothing here mentions the order in which
a builder meets a capability, what it has cached or how deep it is.
-/

namespace MiddlewareStack.Table

variable {t : Table} {c : Conventions} {a d root stack : QualifiedName}

/-- Everything that holds of a capability that resolves, and enough for it to resolve. -/
theorem resolve_eq_ok {r : Resolution} :
    t.resolve c a = .ok r ↔ ∃ contract candidate,
      t.interface? a = some contract ∧
      t.concrete? (c.implementationOf a) = some candidate ∧
      check t contract candidate = .satisfied ∧
      candidate.methodSet.find? (·.name = c.invocationMethod) = some r.invocation ∧
      invocationBundle t c.requestType r.invocation = .ok r.bundle ∧
      r.capability = a ∧ r.implementation = c.implementationOf a := by
  unfold resolve
  cases declared : t.contract a with
  | error e =>
    have absent : ∀ i, t.interface? a ≠ some i := fun i present => by
      simp [contract_eq_ok.mpr present] at declared
    simp [bind, Except.bind, absent]
  | ok contract =>
    have present := contract_eq_ok.mp declared
    simp only [bind, Except.bind, present, Option.some.injEq, exists_eq_left', exists_and_left]
    cases t.concrete? (c.implementationOf a) with
    | none => simp
    | some candidate =>
      simp only [Option.some.injEq, exists_eq_left']
      cases satisfied : check t contract candidate with
      | missingMethod m => simp [requireSatisfied, satisfied]
      | signatureMismatch m => simp [requireSatisfied, satisfied]
      | satisfied =>
        cases candidate.methodSet.find? (·.name = c.invocationMethod) with
        | none => simp [requireSatisfied, satisfied]
        | some invocation =>
          cases bundled : invocationBundle t c.requestType invocation with
          | error fault =>
            simp only [requireSatisfied, satisfied, bundled, reduceCtorEq, false_iff]
            rintro ⟨_, same, ok, _⟩
            cases same
            cases bundled.symm.trans ok
          | ok bundle =>
            obtain ⟨capability, implementation, invocation', bundle'⟩ := r
            simp only [requireSatisfied, satisfied, bundled, Except.ok.injEq,
              Resolution.mk.injEq, Option.some.injEq]
            constructor
            · rintro ⟨rfl, rfl, rfl, rfl⟩
              exact ⟨trivial, rfl, bundled, rfl, rfl⟩
            · rintro ⟨_, same, ok, rfl, rfl⟩
              cases same
              exact ⟨rfl, rfl, rfl, Except.ok.inj (bundled.symm.trans ok)⟩

/-- The bundle of a resolution is a contract of the table, and there is one exactly for an
invocation with two parameters. -/
theorem bundle_of_invocation {requestType : String} {m : Method} {bundle : Option QualifiedName}
    (h : invocationBundle t requestType m = .ok bundle) :
    (bundle.isSome ↔ m.params.length = 2) ∧
      ∀ name, bundle = some name → (t.interface? name).isSome := by
  unfold invocationBundle at h
  split at h
  · next single =>
    split at h
    · cases h
      simp [single]
    · cases h
  · next pair =>
    split at h
    · unfold bundleOf at h
      split at h
      · split at h
        · cases h
          simp_all
        · cases h
      · cases h
    · cases h
  · cases h

/-- A bundle hangs on the types that an invocation takes, and on which names are contracts. -/
theorem invocationBundle_congr {t' : Table}
    (contracts : ∀ q, (t'.interface? q).isSome = (t.interface? q).isSome) {m m' : Method}
    (types : m'.paramTypes = m.paramTypes) (requestType : String) :
    invocationBundle t' requestType m' = invocationBundle t requestType m := by
  have bundle : bundleOf t' = bundleOf t := by
    funext ty
    simp only [bundleOf, contracts]
  unfold invocationBundle
  rw [bundle]
  unfold Method.paramTypes at types
  match h : m.params, h' : m'.params with
  | [], [] | [_], [_] | [_, _], [_, _] => simp_all
  | _ :: _ :: _ :: _, _ :: _ :: _ :: _ => rfl
  | [], _ :: _ | _ :: _, [] | [_], _ :: _ :: _ | _ :: _ :: _, [_] | [_, _], _ :: _ :: _ :: _
  | _ :: _ :: _ :: _, [_, _] => simp [h, h'] at types

section Resolved

variable {r : Resolution} (h : t.resolve c a = .ok r)

include h

theorem resolve_capability : r.capability = a := by
  obtain ⟨_, _, _, _, _, _, _, capability, _⟩ := resolve_eq_ok.mp h
  exact capability

theorem resolve_interface : (t.interface? a).isSome := by
  obtain ⟨_, _, declared, _⟩ := resolve_eq_ok.mp h
  simp [declared]

theorem resolve_bundle_isSome : r.bundle.isSome ↔ r.invocation.params.length = 2 := by
  obtain ⟨_, _, _, _, _, _, bundled, _⟩ := resolve_eq_ok.mp h
  exact (bundle_of_invocation bundled).1

theorem resolve_bundle_interface {bundle : QualifiedName} (some : r.bundle = some bundle) :
    (t.interface? bundle).isSome := by
  obtain ⟨_, _, _, _, _, _, bundled, _⟩ := resolve_eq_ok.mp h
  exact (bundle_of_invocation bundled).2 bundle some

end Resolved

/-- `stack` is a contract with `d` among its embeds, and `d` is an interface of the table. -/
def EmbedsCapability (t : Table) (stack d : QualifiedName) : Prop :=
  ∃ contract, t.interface? stack = some contract ∧ .declared d ∈ contract.embeds ∧
    (t.interface? d).isSome

/-- Every table name that a contract embeds has a symbol, of whatever kind. -/
def EmbedsExist (t : Table) (stack : QualifiedName) : Prop :=
  ∀ contract d, t.interface? stack = some contract → .declared d ∈ contract.embeds →
    t.contains d

/-- The capabilities that a contract embeds, in the order of its embeds and without repeats. -/
def capabilitiesOf (t : Table) (stack : QualifiedName) : List QualifiedName :=
  match t.interface? stack with
  | some contract => (contract.declaredEmbeds.filter fun d => (t.interface? d).isSome).eraseDups
  | none => []

/-- `stack` is the dependency contract that the resolution of `a` takes. -/
def BundleOf (t : Table) (c : Conventions) (a stack : QualifiedName) : Prop :=
  ∃ r, t.resolve c a = .ok r ∧ r.bundle = some stack

def DependsOn (t : Table) (c : Conventions) (a d : QualifiedName) : Prop :=
  ∃ stack, t.BundleOf c a stack ∧ t.EmbedsCapability stack d

/-- The capabilities that `a` depends on, in the order of the embeds of its bundle and without
repeats. -/
def dependenciesOf (t : Table) (c : Conventions) (a : QualifiedName) : List QualifiedName :=
  match t.resolve c a with
  | .ok { bundle := some stack, .. } => t.capabilitiesOf stack
  | _ => []

/-- Embedded in the root, or reached from there along dependencies. -/
def Required (t : Table) (c : Conventions) (root a : QualifiedName) : Prop :=
  ∃ d, t.EmbedsCapability root d ∧ Relation.ReflTransGen (t.DependsOn c) d a

/-- A contract whose embeds are followed: the root, or the bundle of a required capability. -/
def RequiredStack (t : Table) (c : Conventions) (root stack : QualifiedName) : Prop :=
  stack = root ∨ ∃ a, t.Required c root a ∧ t.BundleOf c a stack

/-- Everything that `root` requires is there and resolves. -/
structure Provided (t : Table) (c : Conventions) (root : QualifiedName) : Prop where
  contract : (t.interface? root).isSome
  resolves : ∀ a, t.Required c root a → ∃ r, t.resolve c a = .ok r
  exist : ∀ stack, t.RequiredStack c root stack → t.EmbedsExist stack

/-- Nothing stands in the way of a graph for `root`. -/
structure Compilable (t : Table) (c : Conventions) (root : QualifiedName) : Prop
    extends t.Provided c root where
  acyclic : ∀ a, t.Required c root a → ¬Relation.TransGen (t.DependsOn c) a a

theorem mem_declaredEmbeds {contract : Interface} :
    d ∈ contract.declaredEmbeds ↔ .declared d ∈ contract.embeds := by
  unfold Interface.declaredEmbeds
  rw [List.mem_filterMap]
  constructor
  · rintro ⟨embed, member, same⟩
    cases embed <;> simp_all
  · intro member
    exact ⟨_, member, rfl⟩

theorem mem_capabilitiesOf : d ∈ t.capabilitiesOf stack ↔ t.EmbedsCapability stack d := by
  unfold capabilitiesOf EmbedsCapability
  cases t.interface? stack with
  | none => simp
  | some contract => simp [List.mem_eraseDups, mem_declaredEmbeds]

theorem dependenciesOf_eq {r : Resolution} (h : t.resolve c a = .ok r) :
    t.dependenciesOf c a = (r.bundle.map t.capabilitiesOf).getD [] := by
  obtain ⟨capability, implementation, invocation, bundle⟩ := r
  unfold dependenciesOf
  cases bundle <;> simp [h]

theorem mem_dependenciesOf : d ∈ t.dependenciesOf c a ↔ t.DependsOn c a d := by
  unfold DependsOn BundleOf
  cases h : t.resolve c a with
  | error e => simp [dependenciesOf, h]
  | ok r =>
    rw [dependenciesOf_eq h]
    cases taken : r.bundle <;> simp [mem_capabilitiesOf, taken]

theorem RequiredStack.required (h : t.RequiredStack c root stack)
    (embedded : t.EmbedsCapability stack d) : t.Required c root d := by
  rcases h with rfl | ⟨a, ⟨first, direct, path⟩, bundle⟩
  · exact ⟨d, embedded, .refl⟩
  · exact ⟨first, direct, path.tail ⟨stack, bundle, embedded⟩⟩

/-- The required capabilities are the least set with those of the root, closed under dependency. -/
theorem Required.induction {P : QualifiedName → Prop} (h : t.Required c root a)
    (direct : ∀ d, t.EmbedsCapability root d → P d)
    (dependency : ∀ b d, t.Required c root b → t.DependsOn c b d → P b → P d) : P a := by
  obtain ⟨first, embedded, path⟩ := h
  induction path with
  | refl => exact direct first embedded
  | tail before step ih => exact dependency _ _ ⟨first, embedded, before⟩ step ih

end MiddlewareStack.Table
