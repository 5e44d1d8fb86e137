import MiddlewareStack.Proofs.BuildFrame
import MiddlewareStack.Proofs.BundleMethods
import MiddlewareStack.Proofs.StackEmbeds

/-!
# Embeds without a symbol

An embed dangles if it names a declaration that the table does not have. What a capability requires
is the same with and without its dangling embeds, and so is every resolution. A compile therefore
asks for the embeds of stacks only: for the rest it could as well be given the table from which all
that dangles has been struck.
-/

namespace MiddlewareStack

/-- The embed is not a name that the table lacks. -/
def Table.keeps (t : Table) : TypeRef → Bool
  | .declared name => t.contains name
  | _ => true

/-- A declaration without the embeds that dangle in a table. -/
def Declaration.withoutDangling (t : Table) : Declaration → Declaration
  | .interface i => .interface { i with embeds := i.embeds.filter t.keeps }
  | .concrete decl => .concrete decl
  | .other => .other

namespace Table

variable {t : Table} {c : Conventions} {a d root stack q : QualifiedName} {i : Interface}

def withoutDangling (t : Table) : Table where
  packages := t.packages.map fun package =>
    { package with
      symbols := package.symbols.map fun symbol =>
        { symbol with kind := symbol.kind.withoutDangling t } }

/-- `stack` embeds `d` as a declaration, and there is none. -/
def Dangles (t : Table) (stack d : QualifiedName) : Prop :=
  ∃ contract, t.interface? stack = some contract ∧ .declared d ∈ contract.embeds ∧
    t.lookup d = none

theorem not_embedsExist : ¬t.EmbedsExist stack ↔ ∃ d, t.Dangles stack d := by
  simp only [EmbedsExist, Dangles, contains, Option.isSome_iff_ne_none]
  push Not
  constructor
  · rintro ⟨contract, d, found, embedded, missing⟩
    exact ⟨d, contract, found, embedded, missing⟩
  · rintro ⟨d, contract, found, embedded, missing⟩
    exact ⟨contract, d, found, embedded, missing⟩

theorem lookup_withoutDangling :
    t.withoutDangling.lookup q = (t.lookup q).map (·.withoutDangling t) := by
  apply lookup_map fun symbol => { symbol with kind := symbol.kind.withoutDangling t }
  · exact fun _ => rfl
  · exact fun _ => rfl

/-- An interface as it stands in the table from which the dangling embeds are struck. -/
def strike (t : Table) (i : Interface) : Interface :=
  { i with embeds := i.embeds.filter t.keeps }

theorem rewrites_withoutDangling (t : Table) :
    Rewrites (Declaration.withoutDangling t) t.strike id :=
  ⟨fun _ => rfl, fun _ => rfl, rfl⟩

theorem interface?_withoutDangling :
    t.withoutDangling.interface? q = (t.interface? q).map t.strike :=
  interface?_rewritten t.rewrites_withoutDangling lookup_withoutDangling

theorem isSome_interface?_withoutDangling :
    (t.withoutDangling.interface? q).isSome = (t.interface? q).isSome := by
  rw [interface?_withoutDangling, Option.isSome_map]

theorem concrete?_withoutDangling : t.withoutDangling.concrete? q = t.concrete? q := by
  rw [concrete?_rewritten t.rewrites_withoutDangling lookup_withoutDangling, Option.map_id, id]

theorem contract_withoutDangling :
    t.withoutDangling.contract q = (t.contract q).map t.strike :=
  contract_rewritten t.rewrites_withoutDangling lookup_withoutDangling

theorem contract_eq_error_iff {e : CompileError} :
    t.withoutDangling.contract q = .error e ↔ t.contract q = .error e :=
  contract_rewritten_eq_error t.rewrites_withoutDangling lookup_withoutDangling

theorem packagesMatching_withoutDangling (scope : String) :
    t.withoutDangling.packagesMatching scope = t.packagesMatching scope :=
  packagesMatching_map _ scope

theorem declaredEmbeds_strike (t : Table) (i : Interface) :
    (t.strike i).declaredEmbeds = i.declaredEmbeds.filter t.contains := by
  unfold Interface.declaredEmbeds strike
  induction i.embeds with
  | nil => rfl
  | cons embed rest ih =>
    cases embed with
    | declared name =>
      cases found : t.contains name <;>
        simp only [List.filter_cons, List.filterMap_cons, keeps, found, if_true,
          Bool.false_eq_true, if_false, ih]
    | _ => simp only [List.filter_cons, List.filterMap_cons, keeps, if_true, ih]

theorem declaredEmbeds_strike_of_exist (exist : t.EmbedsExist stack)
    (found : t.interface? stack = some i) :
    (t.strike i).declaredEmbeds = i.declaredEmbeds := by
  rw [declaredEmbeds_strike, List.filter_eq_self]
  exact fun d embedded => exist i d found (mem_declaredEmbeds.mp embedded)

end Table

/-! ## What a contract requires -/

variable {t : Table} {c : Conventions} {a d root stack : QualifiedName} {s : CompiledStack}

/-- The same methods have been collected, and the same names of the table have been met. -/
structure Agrees (t : Table) (p q : Collected) : Prop where
  methods : p.methods = q.methods
  seen : ∀ name, t.contains name → (name ∈ p.seen ↔ name ∈ q.seen)

namespace Agrees

variable {p q : Collected} {name : QualifiedName}

theorem meet (h : Agrees t p q) (name : QualifiedName) : Agrees t (p.meet name) (q.meet name) where
  methods := h.methods
  seen x inTable := by simp [h.seen x inTable]

/-- Only the walk over the table with the dangling embeds meets a name without a symbol. -/
theorem meet_missing (h : Agrees t p q) (missing : t.contains name = false) :
    Agrees t p (q.meet name) where
  methods := h.methods
  seen x inTable := by
    have different : x ≠ name := by
      rintro rfl
      simp [missing] at inTable
    simp [h.seen x inTable, different]

theorem addMethods (h : Agrees t p q) (own : List Method) :
    Agrees t (p.addMethods own) (q.addMethods own) where
  methods := by simp only [Collected.addMethods, h.methods]
  seen := h.seen

end Agrees

/-- Beside every walk there is one over the same names but those that dangle. -/
theorem Visits.withoutDangling {names : List QualifiedName} {q q' : Collected}
    (h : Visits t names q q') :
    ∀ p, Agrees t p q →
      ∃ p', Visits t.withoutDangling (names.filter t.contains) p p' ∧ Agrees t p' q' := by
  induction h with
  | done => exact fun p agrees => ⟨p, .done p, agrees⟩
  | @again name rest q _ met _ ih =>
    intro p agrees
    obtain ⟨p', others, agrees'⟩ := ih p agrees
    cases inTable : t.contains name with
    | false => exact ⟨p', by simpa [inTable] using others, agrees'⟩
    | true =>
      rw [List.filter_cons_of_pos inTable]
      exact ⟨p', .again ((agrees.seen name inTable).mpr met) others, agrees'⟩
  | @other name rest q _ new absent _ ih =>
    intro p agrees
    cases inTable : t.contains name with
    | false =>
      obtain ⟨p', others, agrees'⟩ := ih p (agrees.meet_missing inTable)
      exact ⟨p', by simpa [inTable] using others, agrees'⟩
    | true =>
      obtain ⟨p', others, agrees'⟩ := ih (p.meet name) (agrees.meet name)
      have absent' : t.withoutDangling.interface? name = none := by
        rw [Table.interface?_withoutDangling, absent, Option.map_none]
      rw [List.filter_cons_of_pos inTable]
      exact ⟨p', .other (mt (agrees.seen name inTable).mp new) absent' others, agrees'⟩
  | @embedded name rest q middle _ i new found _ _ inner others =>
    intro p agrees
    have inTable : t.contains name := Table.lookup_isSome_of_interface? found
    obtain ⟨p', inside, within⟩ := inner _ ((agrees.meet name).addMethods i.methods)
    obtain ⟨p'', later, agrees'⟩ := others p' within
    have found' : t.withoutDangling.interface? name = some (t.strike i) := by
      rw [Table.interface?_withoutDangling, found, Option.map_some]
    rw [List.filter_cons_of_pos inTable]
    rw [← Table.declaredEmbeds_strike] at inside
    exact ⟨p'', .embedded (mt (agrees.seen name inTable).mp new) found' inside later, agrees'⟩

/-- Dangling embeds add nothing to what is required. -/
theorem requiredMethods_withoutDangling (t : Table) (i : Interface) :
    requiredMethods t.withoutDangling (t.strike i) = requiredMethods t i := by
  obtain ⟨q, walks, collected⟩ := walks_requiredMethods t i
  obtain ⟨p, walks', collected'⟩ := walks_requiredMethods t.withoutDangling (t.strike i)
  have start : Agrees t (({} : Collected).addMethods i.methods)
      (({} : Collected).addMethods i.methods) := ⟨rfl, fun _ _ => Iff.rfl⟩
  obtain ⟨p', visits, agrees⟩ := Visits.withoutDangling walks _ start
  rw [← Table.declaredEmbeds_strike] at visits
  cases Visits.unique visits walks'
  rw [← collected', ← collected, agrees.methods]

namespace Table

theorem invocationBundle_withoutDangling (requestType : String) (m : Method) :
    invocationBundle t.withoutDangling requestType m = invocationBundle t requestType m :=
  invocationBundle_congr (fun _ => isSome_interface?_withoutDangling) rfl requestType

/-- A capability resolves alike, whatever dangles below it. -/
theorem resolve_withoutDangling (t : Table) (c : Conventions) (a : QualifiedName) :
    t.withoutDangling.resolve c a = t.resolve c a := by
  unfold resolve
  rw [contract_withoutDangling]
  cases t.contract a with
  | error e => rfl
  | ok contract =>
    simp only [Except.map, bind, Except.bind, concrete?_withoutDangling, requireSatisfied, check,
      requiredMethods_withoutDangling, invocationBundle_withoutDangling]

/-! ## What a root requires -/

theorem embedsCapability_withoutDangling :
    t.withoutDangling.EmbedsCapability stack d ↔ t.EmbedsCapability stack d := by
  unfold EmbedsCapability
  rw [interface?_withoutDangling, isSome_interface?_withoutDangling]
  constructor
  · rintro ⟨_, found, embedded, isInterface⟩
    obtain ⟨i, declared, rfl⟩ := Option.map_eq_some_iff.mp found
    exact ⟨i, declared, (List.mem_filter.mp embedded).1, isInterface⟩
  · rintro ⟨i, found, embedded, isInterface⟩
    obtain ⟨j, inTable⟩ := Option.isSome_iff_exists.mp isInterface
    have kept : t.keeps (.declared d) := lookup_isSome_of_interface? inTable
    exact ⟨_, by rw [found, Option.map_some], List.mem_filter.mpr ⟨embedded, kept⟩, isInterface⟩

theorem dependsOn_withoutDangling : t.withoutDangling.DependsOn c = t.DependsOn c := by
  funext a d
  simp only [DependsOn, BundleOf, resolve_withoutDangling, embedsCapability_withoutDangling]

theorem required_withoutDangling : t.withoutDangling.Required c root a ↔ t.Required c root a := by
  simp only [Required, embedsCapability_withoutDangling, dependsOn_withoutDangling]

theorem requiredStack_withoutDangling :
    t.withoutDangling.RequiredStack c root stack ↔ t.RequiredStack c root stack := by
  simp only [RequiredStack, required_withoutDangling, BundleOf, resolve_withoutDangling]

/-- Where no stack has one, a build does not notice that there are dangling embeds. -/
theorem reproduces_withoutDangling
    (exist : ∀ stack, t.RequiredStack c root stack → t.EmbedsExist stack) :
    Reproduces t t.withoutDangling c root where
  resolve a _ := resolve_withoutDangling t c a
  embeds stack required := by
    rw [contract_withoutDangling]
    cases found : t.contract stack with
    | error e => rfl
    | ok i =>
      have same := declaredEmbeds_strike_of_exist (exist stack required) (contract_eq_ok.mp found)
      simp only [Except.map, same]
  faults _ _ _ _ _ _ _ := contract_eq_error_iff

theorem build_withoutDangling
    (exist : ∀ stack, t.RequiredStack c root stack → t.EmbedsExist stack) :
    DependencyGraph.build t.withoutDangling c root = DependencyGraph.build t c root :=
  (reproduces_withoutDangling exist).build_eq

end Table

/-- The stacks of a compiled graph are the root and the bundles of what it requires. -/
theorem CompiledFrom.stackOf_iff (h : CompiledFrom t c root s) :
    (∃ ids, StackOf s.graph stack ids) ↔ t.RequiredStack c root stack := by
  constructor
  · rintro ⟨_, isStack⟩
    cases isStack with
    | root => exact .inl h.root_eq
    | @bundle comp _ member taken =>
      obtain ⟨id, present⟩ := DependencyGraph.mem_components.mp member
      have settled := h.settled.settled id comp present
      exact .inr ⟨comp.capability, settled.required, comp.resolution, settled.resolved, taken⟩
  · rintro (rfl | ⟨a, required, r, resolved, taken⟩)
    · exact ⟨s.graph.direct, h.root_eq ▸ StackOf.root⟩
    · obtain ⟨id, present⟩ := h.capability_iff_required.mpr required
      obtain ⟨comp, found, rfl⟩ := Option.map_eq_some_iff.mp present
      have settled := h.settled.settled id comp found
      cases resolved.symm.trans settled.resolved
      exact ⟨_, .bundle (DependencyGraph.mem_components.mpr ⟨id, found⟩) taken⟩

/-- The reasons to fail that the table without its dangling embeds does not have. -/
theorem Failure.dangles {e : CompileError} (failed : Failure t c root e)
    (h : t.withoutDangling.Compilable c root) :
    ∃ stack d, t.RequiredStack c root stack ∧ t.Dangles stack d ∧ e = .symbolNotFound d := by
  cases failed with
  | noContract absent =>
    have present := h.contract
    obtain ⟨i, found⟩ := Option.isSome_iff_exists.mp present
    cases (Table.contract_eq_ok.mpr found).symm.trans (Table.contract_eq_error_iff.mpr absent)
  | unresolved required failed =>
    obtain ⟨r, resolved⟩ := h.resolves _ (Table.required_withoutDangling.mpr required)
    cases (Table.resolve_withoutDangling t c _ ▸ resolved).symm.trans failed
  | dangling required declared embedded missing =>
    exact ⟨_, _, required, ⟨_, declared, embedded, missing⟩, rfl⟩
  | cycle required cycle =>
    have path := cycle.transGen
    rw [← Table.dependsOn_withoutDangling] at path
    exact absurd path (h.acyclic _ (Table.required_withoutDangling.mpr required))

/-- A compile succeeds as it would without any dangling embed, provided that no stack has one. Where
a stack does, it fails for the want of what a stack embeds. What dangles below a capability is
ignored. -/
theorem compile_ok_iff_withoutDangling (t : Table) (c : Conventions) (scope name : String)
    (s : CompiledStack) :
    (t.compile c scope name = .ok s ↔
      t.withoutDangling.compile c scope name = .ok s ∧
        ∀ stack ids, StackOf s.graph stack ids → t.EmbedsExist stack) ∧
    (t.withoutDangling.compile c scope name = .ok s →
      (∃ stack ids, StackOf s.graph stack ids ∧ ¬t.EmbedsExist stack) →
      ∃ stack ids d, StackOf s.graph stack ids ∧ t.Dangles stack d ∧
        t.compile c scope name = .error (.symbolNotFound d)) := by
  have matching := t.packagesMatching_withoutDangling scope
  refine ⟨⟨fun compiled => ?_, fun ⟨compiled, exist⟩ => ?_⟩,
    fun compiled ⟨stack, ids, hasStack⟩ => ?_⟩
  · obtain ⟨package, found, result⟩ := Table.compile_ok compiled
    have exist := result.compilable.exist
    refine ⟨?_, fun stack ids isStack => exist stack (result.stackOf_iff.mp ⟨ids, isStack⟩)⟩
    rw [Table.compile_eq_build (matching.trans found), Table.build_withoutDangling exist,
      ← Table.compile_eq_build found, compiled]
  · obtain ⟨package, found, result⟩ := Table.compile_ok compiled
    have everyStack : ∀ stack, t.RequiredStack c { package, name } stack → t.EmbedsExist stack := by
      intro stack required
      obtain ⟨ids, isStack⟩ :=
        result.stackOf_iff.mpr (Table.requiredStack_withoutDangling.mpr required)
      exact exist stack ids isStack
    rw [Table.compile_eq_build (matching.symm.trans found), ← Table.build_withoutDangling everyStack,
      ← Table.compile_eq_build found, compiled]
  · obtain ⟨package, found, result⟩ := Table.compile_ok compiled
    cases built : DependencyGraph.build t c { package, name } with
    | ok g =>
      have required := Table.requiredStack_withoutDangling.mp
        (result.stackOf_iff.mp ⟨ids, hasStack.1⟩)
      exact absurd ((DependencyGraph.build_ok built).compilable.exist stack required) hasStack.2
    | error e =>
      obtain ⟨stack, d, required, dangles, rfl⟩ :=
        (DependencyGraph.build_error built).dangles result.compilable
      obtain ⟨ids, isStack⟩ :=
        result.stackOf_iff.mpr (Table.requiredStack_withoutDangling.mpr required)
      refine ⟨stack, ids, d, isStack, dangles, ?_⟩
      rw [Table.compile_eq_build (matching.symm.trans found), built]
      rfl

def missing : QualifiedName := { package := "self", name := "Missing" }

/-- A root that embeds a capability and a name without a symbol. -/
def danglingRoot : Table :=
  (Table.empty.addStack "Root" ["A", "Missing"]).addCapability "A" none

theorem danglingRoot_reported :
    (∃ s, danglingRoot.withoutDangling.compile {} "self" "Root" = .ok s) ∧
      ∃ d, danglingRoot.compile {} "self" "Root" = .error (.symbolNotFound d) := by
  have evaluated : (danglingRoot.withoutDangling.compile {} "self" "Root").toOption.map
      (fun s => s.graph.root) = some diamondRoot := by decide +kernel
  obtain ⟨s, compiled, isRoot⟩ := Aggregate.exists_ok_of_read evaluated
  have found : danglingRoot.interface? diamondRoot =
      some { embeds := [.declared { package := "self", name := "A" }, .declared missing] } := by
    decide +kernel
  have dangles : danglingRoot.Dangles diamondRoot missing :=
    ⟨_, found, by simp, by decide +kernel⟩
  have isStack : StackOf s.graph diamondRoot s.graph.direct := isRoot ▸ StackOf.root
  obtain ⟨_, _, d, _, _, failed⟩ :=
    (compile_ok_iff_withoutDangling danglingRoot {} "self" "Root" s).2 compiled
      ⟨_, _, isStack, Table.not_embedsExist.mpr ⟨missing, dangles⟩⟩
  exact ⟨⟨s, compiled⟩, d, failed⟩

/-- A capability that embeds a name without a symbol, in a root that does not. -/
def danglingCapability : Table :=
  (Table.empty.addStack "Root" ["A"]).addProvider "A" ["Missing"] [] []

/-- The compile succeeds although the contract of a component has a dangling embed. -/
theorem dangling_capability_compiles :
    ∃ s, danglingCapability.compile {} "self" "Root" = .ok s ∧
      ∃ comp ∈ s.graph.components, danglingCapability.Dangles comp.capability missing := by
  have evaluated : (danglingCapability.compile {} "self" "Root").toOption.map
      (fun s => s.graph.components.map Component.capability) =
      some [{ package := "self", name := "A" }] := by decide +kernel
  obtain ⟨s, compiled, capabilities⟩ := Aggregate.exists_ok_of_read evaluated
  obtain ⟨comp, member, isA⟩ : ∃ comp ∈ s.graph.components,
      comp.capability = { package := "self", name := "A" } :=
    List.mem_map.mp (capabilities ▸ List.mem_singleton_self _)
  have found : danglingCapability.interface? { package := "self", name := "A" } =
      some { embeds := [.declared missing] } := by decide +kernel
  exact ⟨s, compiled, comp, member, isA ▸ ⟨_, found, by simp, by decide +kernel⟩⟩

end MiddlewareStack
