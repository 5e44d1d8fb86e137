import MiddlewareStack.Proofs.BuildFrame
import MiddlewareStack.Proofs.EmbeddedContracts
import MiddlewareStack.Proofs.ImplementedContracts
import MiddlewareStack.Proofs.SourceTable

/-!
# More declarations

A table that has all that another one has, and more. A name that the smaller table has no symbol for
may mean something in the larger one, so that a compile must not have gone by its absence. It does
so only where the contract of a capability embeds such a name, directly or through other contracts.
A stack without such embeds compiles to the same in both tables, and the same code is generated for
it.
-/

namespace MiddlewareStack

open Relation

/-- `t'` has every package and every symbol of `t` as it is, and possibly more. -/
def Table.ExtendedBy (t t' : Table) : Prop :=
  ∀ path package, t.packages.find? path = some package →
    ∃ package', t'.packages.find? path = some package' ∧
      ∀ name symbol, package.symbols.find? name = some symbol →
        package'.symbols.find? name = some symbol

/-- No contract that `start` reaches along embeds has one without a symbol. -/
def Table.WholeFrom (t : Table) (start : QualifiedName) : Prop :=
  ∀ stack, ReflTransGen t.EmbedsCapability start stack → t.EmbedsExist stack

namespace Table

variable {t t' : Table} {c : Conventions} {a d q : QualifiedName} {i : Interface}

namespace ExtendedBy

theorem trans {t'' : Table} (h : t.ExtendedBy t') (h' : t'.ExtendedBy t'') : t.ExtendedBy t'' := by
  intro path package inTable
  obtain ⟨package', inTable', kept⟩ := h path package inTable
  obtain ⟨package'', inTable'', kept'⟩ := h' path package' inTable'
  exact ⟨package'', inTable'', fun name symbol inPackage => kept' _ _ (kept _ _ inPackage)⟩

theorem lookup {kind : Declaration} (h : t.ExtendedBy t') (found : t.lookup q = some kind) :
    t'.lookup q = some kind := by
  simp only [Table.lookup, bind, Option.bind_eq_some_iff, pure] at found ⊢
  obtain ⟨package, inTable, symbol, inPackage, same⟩ := found
  obtain ⟨package', inTable', kept⟩ := h _ _ inTable
  exact ⟨package', inTable', symbol, kept _ _ inPackage, same⟩

/-- The larger table says the same of a name that has a symbol. -/
theorem lookup_eq (h : t.ExtendedBy t') (present : t.contains q) : t'.lookup q = t.lookup q := by
  obtain ⟨kind, found⟩ := Option.isSome_iff_exists.mp present
  rw [h.lookup found, found]

theorem interface?_eq (h : t.ExtendedBy t') (present : t.contains q) :
    t'.interface? q = t.interface? q := by
  rw [Table.interface?, h.lookup_eq present, Table.interface?]

theorem contract_eq (h : t.ExtendedBy t') (present : t.contains q) :
    t'.contract q = t.contract q := by
  rw [Table.contract, h.lookup_eq present, Table.contract]

theorem interface? (h : t.ExtendedBy t') (found : t.interface? q = some i) :
    t'.interface? q = some i := by
  rw [h.interface?_eq (lookup_isSome_of_interface? found), found]

theorem concrete? {decl : ConcreteType} (h : t.ExtendedBy t') (found : t.concrete? q = some decl) :
    t'.concrete? q = some decl := by
  obtain ⟨kind, present, isConcrete⟩ := Option.bind_eq_some_iff.mp found
  exact Option.bind_eq_some_iff.mpr ⟨kind, h.lookup present, isConcrete⟩

end ExtendedBy

theorem ExtendedBy.packagesMatching {scope package : String} (h : t.ExtendedBy t')
    (found : t.packagesMatching scope = [package]) : t'.packagesMatching scope = [package] := by
  obtain ⟨same, present⟩ := packagesMatching_eq_singleton.mp found
  obtain ⟨old, inTable⟩ := Option.isSome_iff_exists.mp present
  obtain ⟨new, inTable', _⟩ := h _ _ inTable
  exact packagesMatching_eq_singleton.mpr ⟨same, Option.isSome_iff_exists.mpr ⟨new, inTable'⟩⟩

/-! ## Contracts without embeds that dangle -/

theorem WholeFrom.step (h : t.WholeFrom a) (embedded : t.EmbedsCapability a d) : t.WholeFrom d :=
  fun stack path => h stack (.head embedded path)

/-- What such a contract embeds has a symbol, and so has all that this reaches. -/
theorem WholeFrom.embedded (h : t.WholeFrom a) (found : t.interface? a = some i) :
    ∀ d ∈ i.declaredEmbeds, t.contains d ∧ t.WholeFrom d := by
  intro d member
  have embedded := mem_declaredEmbeds.mp member
  refine ⟨h a .refl i d found embedded, ?_⟩
  by_cases isInterface : (t.interface? d).isSome
  · exact h.step ⟨i, found, embedded, isInterface⟩
  · intro stack path
    rcases ReflTransGen.cases_head path with rfl | ⟨_, ⟨contract, declared, _⟩, _⟩
    · intro contract _ declared _
      exact absurd (Option.isSome_of_eq_some declared) isInterface
    · exact absurd (Option.isSome_of_eq_some declared) isInterface

end Table

variable {t t' : Table} {c : Conventions} {a root : QualifiedName}

theorem requiredMethods_extended (extended : t.ExtendedBy t') (whole : t.WholeFrom a)
    {i : Interface} (found : t.interface? a = some i) :
    requiredMethods t' i = requiredMethods t i := by
  apply requiredMethods_transfer (P := fun d => t.contains d ∧ t.WholeFrom d)
  · rintro d ⟨present, _⟩
    exact extended.interface?_eq present
  · rintro d i ⟨_, below⟩ found
    exact below.embedded found
  · exact whole.embedded found

theorem bundleOf_extended (extended : t.ExtendedBy t') {ty : TypeRef} {bundle : QualifiedName}
    (h : bundleOf t ty = .ok bundle) : bundleOf t' ty = .ok bundle := by
  unfold bundleOf at h ⊢
  split at h
  · next name nominal =>
    split at h
    · next isInterface =>
      obtain ⟨i, found⟩ := Option.isSome_iff_exists.mp isInterface
      simpa [nominal, extended.interface? found] using h
    · cases h
  · cases h

theorem invocationBundle_extended (extended : t.ExtendedBy t') {requestType : String} {m : Method}
    {bundle : Option QualifiedName} (h : invocationBundle t requestType m = .ok bundle) :
    invocationBundle t' requestType m = .ok bundle := by
  unfold invocationBundle at h ⊢
  split at h
  · next request single => simpa only [single] using h
  · next request deps pair =>
    split at h
    · next borrows =>
      cases found : bundleOf t deps.ty with
      | error fault => simp [found, Except.map] at h
      | ok name => simpa [pair, borrows, bundleOf_extended extended found, found] using h
    · cases h
  · cases h

/-- What resolves in a table resolves alike in the larger one. -/
theorem Table.resolve_extended (extended : t.ExtendedBy t') (whole : t.WholeFrom a)
    {r : Resolution} (resolved : t.resolve c a = .ok r) : t'.resolve c a = .ok r := by
  obtain ⟨contract, candidate, declared, implemented, satisfied, invocation, bundle, rest⟩ :=
    resolve_eq_ok.mp resolved
  refine resolve_eq_ok.mpr ⟨contract, candidate, extended.interface? declared,
    extended.concrete? implemented, ?_, invocation, invocationBundle_extended extended bundle, rest⟩
  rw [check, requiredMethods_extended extended whole declared]
  exact satisfied

/-- Where everything that a root requires is there, a build asks the larger table nothing that it
would answer otherwise. -/
theorem reproduces_extended (extended : t.ExtendedBy t') (provided : t.Provided c root)
    (whole : ∀ a, t.Required c root a → t.WholeFrom a) : Reproduces t t' c root where
  resolve a required := by
    obtain ⟨r, resolved⟩ := provided.resolves a required
    rw [Table.resolve_extended extended (whole a required) resolved, resolved]
  embeds stack required := by
    have isInterface : (t.interface? stack).isSome := by
      rcases required with rfl | ⟨_, _, r, resolved, taken⟩
      · exact provided.contract
      · exact Table.resolve_bundle_interface resolved taken
    obtain ⟨i, found⟩ := Option.isSome_iff_exists.mp isInterface
    rw [extended.contract_eq (Table.lookup_isSome_of_interface? found)]
  faults stack contract required found d embedded e := by
    have present := provided.exist stack required contract d found
      (Table.mem_declaredEmbeds.mp embedded)
    rw [extended.contract_eq present]

/-! ## Generated code -/

namespace Aggregate

variable {field : Field} {depth : Nat} {p : Progress}

section Bound

variable {one other : QualifiedName → Progress → Except Fault Progress}

theorem visitEmbeds_of_unmet_eq_zero (all : t.unmet p.handled = 0) (names : List QualifiedName) :
    visitEmbeds t one names p = .ok p := by
  induction names with
  | nil => rfl
  | cons name rest ih =>
    have passed := passed_of_unmet_eq_zero all name
    rw [visitEmbeds, if_pos (by simpa using passed), ih]

/-- Visits that do the same wherever fewer symbols than `depth` are unmet do so one level up. -/
theorem visitEmbeds_same (once : ImplementsOnce one)
    (same : ∀ name p, t.unmet p.handled < depth → one name p = other name p) :
    ∀ (names : List QualifiedName) (p : Progress), t.unmet p.handled < depth + 1 →
      visitEmbeds t one names p = visitEmbeds t other names p
  | [], _, _ => rfl
  | name :: rest, p, bound => by
    rw [visitEmbeds, visitEmbeds]
    split
    · exact visitEmbeds_same once same rest p bound
    · next unmet =>
      obtain ⟨new, isInterface⟩ : name ∉ p.handled ∧ (t.interface? name).isSome := by
        simpa [Option.isSome_iff_ne_none] using unmet
      have deeper : t.unmet (p.meet name).handled < depth :=
        Table.unmet_lt_depth (List.subset_cons_self ..) List.mem_cons_self new isInterface bound
      have visited := same name (p.meet name) deeper
      change (one name (p.meet name) >>= _) = (other name (p.meet name) >>= _)
      rw [← visited]
      cases result : one name (p.meet name) with
      | error fault => rfl
      | ok middle =>
        obtain ⟨_, _, meets⟩ := once _ _ _ result
        have kept := Table.unmet_le (t := t) meets.handled
        exact visitEmbeds_same once same rest middle (by omega)

/-- The implementations that a field makes do not hang on the bound of the walk. -/
theorem implement_add (field : Field) (extra : Nat) :
    ∀ (depth : Nat) (name : QualifiedName) (p : Progress), t.unmet p.handled < depth + 1 →
      implement t field (depth + extra) name p = implement t field depth name p
  | 0, name, p, bound => by
    cases extra with
    | zero => rfl
    | succ extra =>
      rw [Nat.zero_add, implement, implement]
      refine bind_congr fun decl => bind_congr fun methods => ?_
      have all : t.unmet (p.emit ⟨name, methods⟩).handled = 0 := by
        change t.unmet p.handled = 0
        omega
      exact visitEmbeds_of_unmet_eq_zero all _
  | depth + 1, name, p, bound => by
    rw [Nat.add_right_comm, implement, implement]
    refine bind_congr fun decl => bind_congr fun methods => ?_
    refine visitEmbeds_same (implement_once field _) ?_ decl.declaredEmbeds _ bound
    intro name p deeper
    exact implement_add field extra depth name p deeper

/-- A bound that is the number of symbols, or more, is never used up. -/
theorem implement_deep (field : Field) (extra : Nat) (name : QualifiedName) (p : Progress) :
    implement t field (t.symbolCount + extra) name p = implement t field t.symbolCount name p := by
  apply implement_add
  have fewer : t.unmet p.handled ≤ t.unmet [] := Table.unmet_le (List.nil_subset _)
  rw [Table.unmet_nil] at fewer
  omega

end Bound

section Extended

variable (extended : t.ExtendedBy t')

include extended

theorem interfaceOf_extended {name : QualifiedName} (present : t.contains name) :
    interfaceOf t' name = interfaceOf t name := by
  rw [interfaceOf, extended.interface?_eq present, interfaceOf]

theorem visitEmbeds_extended {one other : QualifiedName → Progress → Except Fault Progress}
    (same : ∀ name p, t.contains name → t.WholeFrom name → other name p = one name p) :
    ∀ (names : List QualifiedName), (∀ d ∈ names, t.contains d ∧ t.WholeFrom d) →
      ∀ p, visitEmbeds t' other names p = visitEmbeds t one names p
  | [], _, _ => rfl
  | name :: rest, whole, p => by
    obtain ⟨⟨present, below⟩, others⟩ := List.forall_mem_cons.mp whole
    rw [visitEmbeds, visitEmbeds, extended.interface?_eq present, same name _ present below]
    split
    · exact visitEmbeds_extended same rest others p
    · exact bind_congr fun middle => visitEmbeds_extended same rest others middle

theorem implement_extended (field : Field) :
    ∀ (depth : Nat) (name : QualifiedName) (p : Progress), t.contains name → t.WholeFrom name →
      implement t' field depth name p = implement t field depth name p
  | depth, name, p, present, whole => by
    rw [implement, implement, interfaceOf_extended extended present]
    cases declared : interfaceOf t name with
    | error fault => rfl
    | ok i =>
      change (i.methods.mapM (delegate name field) >>= _) =
        (i.methods.mapM (delegate name field) >>= _)
      refine bind_congr fun methods => ?_
      cases depth with
      | zero => rfl
      | succ depth =>
        refine visitEmbeds_extended extended ?_ i.declaredEmbeds
          (whole.embedded (interfaceOf_eq_ok.mp declared)) _
        intro name p present whole
        exact implement_extended field depth name p present whole

theorem implementAll_extended (fields : List Field) (p : Progress)
    (whole : ∀ field ∈ fields, t.contains field.capability ∧ t.WholeFrom field.capability) :
    implementAll t' fields p = implementAll t fields p := by
  induction fields generalizing p with
  | nil => rfl
  | cons field rest ih =>
    obtain ⟨⟨present, below⟩, others⟩ := List.forall_mem_cons.mp whole
    -- the bounds differ, but neither is used up
    have first : implement t' field t'.symbolCount field.capability p =
        implement t field t.symbolCount field.capability p := by
      rw [← implement_deep field t.symbolCount, Nat.add_comm,
        implement_extended extended field _ _ _ present below, implement_deep]
    rw [implementAll, implementAll, first]
    exact bind_congr fun middle => ih middle others

theorem stackContracts_extended (listed : List QualifiedName)
    (present : ∀ stack ∈ listed, t.contains stack) (found : List QualifiedName) :
    stackContracts t' found listed = stackContracts t found listed := by
  induction listed generalizing found with
  | nil => rfl
  | cons stack rest ih =>
    obtain ⟨inTable, others⟩ := List.forall_mem_cons.mp present
    rw [stackContracts, stackContracts, interfaceOf_extended extended inTable]
    split
    · exact ih others found
    · refine bind_congr fun i => ?_
      cases i.methods with
      | nil => exact ih others (found ++ [stack])
      | cons m _ => rfl

end Extended

end Aggregate

/-- A larger table is asked for nothing that the smaller one does not have. -/
theorem Aggregate.ofStack_extended (extended : t.ExtendedBy t') {s : CompiledStack}
    (compiled : CompiledFrom t c root s)
    (whole : ∀ comp ∈ s.graph.components, t.WholeFrom comp.capability) (config : Config) :
    ofStack s t' config = ofStack s t config := by
  have present : ∀ name, s.Names name → t.contains name := by
    intro name named
    obtain ⟨i, found⟩ := Option.isSome_iff_exists.mp (compiled.names_contract named)
    exact Table.lookup_isSome_of_interface? found
  have asStack : ∀ stack ∈ s.pipeline.target :: s.pipeline.steps.filterMap Step.bundle,
      t.contains stack := by
    intro stack listed
    rcases List.mem_cons.mp listed with rfl | isBundle
    · exact present _ .root
    · obtain ⟨step, member, taken⟩ := List.mem_filterMap.mp isBundle
      exact present _ (.bundle member taken)
  have fields : ∀ field ∈ s.orderedComponents.map (fieldOf s.graph.components),
      t.contains field.capability ∧ t.WholeFrom field.capability := by
    intro field listed
    rw [compiled.orderedComponents_eq] at listed
    obtain ⟨comp, member, rfl⟩ := List.mem_map.mp listed
    exact ⟨present _ (.capability member), whole comp member⟩
  rw [ofStack, ofStack, stackContracts_extended extended _ asStack]
  refine bind_congr fun markers => ?_
  dsimp only
  rw [implementAll_extended extended _ _ fields]

/-- Declarations that are added to a table change nothing for a stack that compiles, as long as no
contract below one of its capabilities embeds a name that the table has no symbol for. -/
theorem extended_compiles_alike (extended : t.ExtendedBy t') {scope name : String}
    {s : CompiledStack} (compiled : t.compile c scope name = .ok s)
    (whole : ∀ comp ∈ s.graph.components, ∀ stack,
      ReflTransGen t.EmbedsCapability comp.capability stack → t.EmbedsExist stack) :
    t'.compile c scope name = .ok s ∧
      ∀ config, Aggregate.ofStack s t' config = Aggregate.ofStack s t config := by
  obtain ⟨package, found, result⟩ := Table.compile_ok compiled
  have required : ∀ a, t.Required c { package, name } a → t.WholeFrom a := by
    intro a required
    obtain ⟨id, present⟩ := result.capability_iff_required.mpr required
    obtain ⟨comp, isComponent, rfl⟩ := Option.map_eq_some_iff.mp present
    exact whole comp (DependencyGraph.mem_components.mpr ⟨id, isComponent⟩)
  have provided := result.compilable.toProvided
  have built := (reproduces_extended extended provided required).build_eq
  constructor
  · rw [Table.compile_eq_build (extended.packagesMatching found), built,
      ← Table.compile_eq_build found, compiled]
  · exact Aggregate.ofStack_extended extended result whole

/-- A declaration under a name that had none extends a table. -/
theorem Table.extendedBy_insert {q : QualifiedName} (new : t.lookup q = none) (kind : Declaration) :
    t.ExtendedBy (t.insert q kind) := by
  intro path package inTable
  have found : (t.insert q kind).packages.find? path = some ((t.insert q kind).packageAt path) := by
    rw [packageAt, insert, KeyedMap.find?_insert]
    split <;> simp [inTable]
  refine ⟨_, found, fun name symbol inPackage => ?_⟩
  rw [packageAt_insert]
  have here : t.packageAt path = package := by rw [packageAt, inTable, Option.getD_some]
  split
  · next same =>
    subst same
    have different : name ≠ q.name := by
      rintro rfl
      rw [Table.lookup_eq, here, inPackage] at new
      cases new
    rw [KeyedMap.find?_insert, if_neg different, here, inPackage]
  · rw [here, inPackage]

instance (t : Table) (stack : QualifiedName) : Decidable (t.EmbedsExist stack) :=
  decidable_of_iff (∀ i ∈ t.interface? stack, ∀ d ∈ i.declaredEmbeds, t.contains d) <| by
    simp only [Option.mem_def, Table.mem_declaredEmbeds, Table.EmbedsExist]
    exact ⟨fun h i d found => h i found d, fun h i found d => h i d found⟩

/-- Where no symbol of the table is a contract with an embed that dangles, none is reached. -/
theorem Table.wholeFrom_of_symbols (h : ∀ q ∈ t.symbolNames, t.EmbedsExist q)
    (start : QualifiedName) : t.WholeFrom start := by
  intro stack _ i d found
  exact h stack (mem_symbolNames (lookup_isSome_of_interface? found)) i d found

/-- The diamond with embeds below its capabilities, and more that it does not reach: a contract in
scope, and a package of its own. -/
def extendedDiamond : Table :=
  (ownedDiamond.insert { package := "self", name := "Unused" } (.interface {})).insert
    { package := "self::more", name := "Named" } .other

theorem extended_diamond_compiles_alike :
    ownedDiamond ≠ extendedDiamond ∧
      extendedDiamond.compile {} "self" "Root" = .ok (.ofRange diamondGraph) ∧
      Aggregate.ofStack (.ofRange diamondGraph) extendedDiamond {} =
        Aggregate.ofStack (.ofRange diamondGraph) ownedDiamond {} := by
  have extended : ownedDiamond.ExtendedBy extendedDiamond :=
    (Table.extendedBy_insert (by decide +kernel) _).trans
      (Table.extendedBy_insert (by decide +kernel) _)
  have compiled : ownedDiamond.compile {} "self" "Root" = .ok (.ofRange diamondGraph) := by
    decide +kernel
  have symbols : ∀ q ∈ ownedDiamond.symbolNames, ownedDiamond.EmbedsExist q := by decide +kernel
  obtain ⟨compiled', rendered⟩ := extended_compiles_alike extended compiled
    fun comp _ => Table.wholeFrom_of_symbols symbols comp.capability
  exact ⟨by decide +kernel, compiled', rendered {}⟩

end MiddlewareStack
