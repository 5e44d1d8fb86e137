import MiddlewareStack.Proofs.ContractImpls
import MiddlewareStack.Proofs.Satisfaction

/-!
# What a component can call through its bundle

A bundle offers its own methods and those of all it embeds. The latter come from dependencies of the
component, which run before it. That a walk below the bundle finds what a dependency requires is
shown by laying it beside the walk of the dependency alone: the two do the same, except where the
first has been before.
-/

namespace MiddlewareStack

variable {t : Table}

/-- What `p` has collected below `d` beyond `before` is what `q` has collected for `d` alone, but
for what was there before. -/
structure Mirrors (before : Collected) (d : QualifiedName) (p q : Collected) : Prop where
  seen : ∀ name, name ∈ p.seen ↔ name ∈ before.seen ∨ name = d ∨ name ∈ q.seen
  kept : before.methods ⊆ p.methods
  origin : ∀ m ∈ p.methods, m ∈ before.methods ∨ m ∈ q.methods
  names : ∀ m ∈ q.methods, p.Names m.name

namespace Mirrors

variable {before p q : Collected} {d name : QualifiedName}

theorem start (before : Collected) (d : QualifiedName) : Mirrors before d (before.meet d) {} where
  seen x := by simp [or_comm]
  kept := List.Subset.refl _
  origin _ member := .inl member
  names := by simp

theorem meet (h : Mirrors before d p q) (name : QualifiedName) :
    Mirrors before d (p.meet name) (q.meet name) :=
  { h with
    seen x := by
      simp only [Collected.seen_meet, List.mem_cons, h.seen]
      grind }

/-- The walk for `d` alone meets what the other one has met. -/
theorem meet_again (h : Mirrors before d p q) (met : name ∈ p.seen) :
    Mirrors before d p (q.meet name) :=
  { h with
    seen x := by
      rw [h.seen] at met ⊢
      simp only [Collected.seen_meet, List.mem_cons]
      grind }

theorem addMethod (h : Mirrors before d p q) (m : Method) :
    Mirrors before d { p with methods := Collected.addMethod p.methods m }
      { q with methods := Collected.addMethod q.methods m } := by
  obtain ⟨kept, origin, _⟩ := Collected.addMethod_effects q.methods m
  by_cases named : p.Names m.name
  · rw [Collected.addMethod_of_named named]
    refine ⟨h.seen, h.kept, fun x member => (h.origin x member).imp_right (kept.subset ·),
      fun x member => ?_⟩
    rcases origin x member with old | rfl
    · exact h.names x old
    · exact named
  -- a name that is new to `p` is new to `q`, so that both keep the method
  · have new : ¬q.Names m.name := fun ⟨found, member, same⟩ => named (same ▸ h.names found member)
    rw [Collected.addMethod_of_new named, Collected.addMethod_of_new new]
    refine ⟨h.seen, fun x old => List.mem_append_left _ (h.kept old), fun x member => ?_,
      fun x member => ?_⟩
    · rcases List.mem_append.mp member with old | last
      · exact (h.origin x old).imp_right (List.mem_append_left _)
      · exact .inr (List.mem_append_right _ last)
    · rcases List.mem_append.mp member with old | last
      · obtain ⟨found, inside, same⟩ := h.names x old
        exact ⟨found, List.mem_append_left _ inside, same⟩
      · exact ⟨x, List.mem_append_right _ last, rfl⟩

theorem addMethods (h : Mirrors before d p q) (own : List Method) :
    Mirrors before d (p.addMethods own) (q.addMethods own) := by
  induction own generalizing p q with
  | nil => exact h
  | cons m rest ih => exact ih (h.addMethod m)

/-- The walk for `d` alone collects methods whose names the other one had before. -/
theorem addMethods_again (h : Mirrors before d p q) {own : List Method}
    (named : ∀ m ∈ own, before.Names m.name) : Mirrors before d p (q.addMethods own) := by
  obtain ⟨kept, origin, _⟩ := q.addMethods_effects own
  refine ⟨h.seen, h.kept, fun m member => (h.origin m member).imp_right (kept.subset ·),
    fun m member => ?_⟩
  rcases origin m member with old | new
  · exact h.names m old
  · obtain ⟨found, inBefore, same⟩ := named m new
    exact ⟨found, h.kept inBefore, same⟩

end Mirrors

namespace Visits

variable {before p q q' : Collected} {d : QualifiedName} {names : List QualifiedName}

/-- Below a contract that was met before there is nothing new for the other walk. -/
theorem mirror_again (h : Visits t names q q') (closed : Closed t before)
    (mirrors : Mirrors before d p q) (met : ∀ name ∈ names, name ∈ before.seen) :
    Mirrors before d p q' := by
  induction h with
  | done => exact mirrors
  | again _ _ ih => exact ih mirrors fun x later => met x (List.mem_cons_of_mem _ later)
  | other _ _ _ ih =>
    have here := (mirrors.seen _).mpr (.inl (met _ List.mem_cons_self))
    exact ih (mirrors.meet_again here) fun x later => met x (List.mem_cons_of_mem _ later)
  | embedded _ found _ _ inner others =>
    have here := met _ List.mem_cons_self
    have covered := closed _ here _ found
    have entered := mirrors.meet_again ((mirrors.seen _).mpr (.inl here))
    have within := inner (entered.addMethods_again covered.methods) covered.embeds
    exact others within fun x later => met x (List.mem_cons_of_mem _ later)

/-- Beside a walk below `d` that starts with nothing there is one that starts with `before`. -/
theorem mirror (h : Visits t names q q') (closed : Closed t before)
    (acyclic : ¬Relation.TransGen t.EmbedsCapability d d) (mirrors : Mirrors before d p q)
    (below : ∀ name ∈ names, (t.interface? name).isSome →
      Relation.TransGen t.EmbedsCapability d name) :
    ∃ p', Visits t names p p' ∧ Mirrors before d p' q' := by
  induction h generalizing p with
  | done => exact ⟨p, .done p, mirrors⟩
  | again met _ ih =>
    obtain ⟨p', others, mirrors'⟩ := ih mirrors (List.forall_mem_cons.mp below).2
    exact ⟨p', .again ((mirrors.seen _).mpr (.inr (.inr met))) others, mirrors'⟩
  | @other name _ _ _ new absent _ ih =>
    by_cases met : name ∈ p.seen
    · obtain ⟨p', others, mirrors'⟩ := ih (mirrors.meet_again met) (List.forall_mem_cons.mp below).2
      exact ⟨p', .again met others, mirrors'⟩
    · obtain ⟨p', others, mirrors'⟩ := ih (mirrors.meet name) (List.forall_mem_cons.mp below).2
      exact ⟨p', .other met absent others, mirrors'⟩
  | @embedded name _ _ _ _ i new found walked _ inner others =>
    obtain ⟨toHere, later⟩ := List.forall_mem_cons.mp below
    have path := toHere (by simp [found])
    have deeper : ∀ x ∈ i.declaredEmbeds, (t.interface? x).isSome →
        Relation.TransGen t.EmbedsCapability d x := fun x member isInterface =>
      path.tail ⟨i, found, Table.mem_declaredEmbeds.mp member, isInterface⟩
    by_cases met : name ∈ p.seen
    -- met before the walk came to `d`, since what is below `d` cannot be `d` again
    · have earlier : name ∈ before.seen := by
        rcases (mirrors.seen name).mp met with earlier | rfl | later
        · exact earlier
        · exact absurd path acyclic
        · exact absurd later new
      have covered := closed name earlier i found
      have within := walked.mirror_again closed
        ((mirrors.meet_again met).addMethods_again covered.methods) covered.embeds
      obtain ⟨p', others, mirrors'⟩ := others within later
      exact ⟨p', .again met others, mirrors'⟩
    · obtain ⟨middle, inside, within⟩ := inner ((mirrors.meet name).addMethods i.methods) deeper
      obtain ⟨p', others, mirrors'⟩ := others within later
      exact ⟨p', .embedded met found inside others, mirrors'⟩

end Visits

/-- `d` is a contract that requires `m`. That it collects this very method, and not only one with
its name, is sure where `d` does not embed itself. -/
def Table.Supplies (t : Table) (d : QualifiedName) (m : Method) : Prop :=
  ∃ i, t.interface? d = some i ∧ t.Requires i m ∧
    (∃ found ∈ requiredMethods t i, found.name = m.name) ∧
    (¬Relation.TransGen t.EmbedsCapability d d → m ∈ requiredMethods t i)

namespace Visits

variable {c c' middle : Collected} {d : QualifiedName} {i : Interface} {names : List QualifiedName}

/-- What is new after the walk below `d` has come from `d`. -/
theorem supplied (new : d ∉ c.seen) (found : t.interface? d = some i)
    (h : Visits t i.declaredEmbeds ((c.meet d).addMethods i.methods) middle) (closed : Closed t c)
    {m : Method} (member : m ∈ middle.methods) : m ∈ c.methods ∨ t.Supplies d m := by
  have walked : Visits t [d] c middle := .embedded new found h (.done middle)
  rcases walked.required m member with old | ⟨_, isHere, _, found', required⟩
  · exact .inl old
  obtain rfl := List.mem_singleton.mp isHere
  cases found.symm.trans found'
  by_cases old : m ∈ c.methods
  · exact .inl old
  refine .inr ⟨i, found, required, exists_requiredMethod_of_requires required, fun acyclic => ?_⟩
  obtain ⟨alone, walks, collected⟩ := walks_requiredMethods t i
  have below : ∀ x ∈ i.declaredEmbeds, (t.interface? x).isSome →
      Relation.TransGen t.EmbedsCapability _ x := fun x embedded isInterface =>
    .single ⟨i, found, Table.mem_declaredEmbeds.mp embedded, isInterface⟩
  -- `h` is the walk beside the one that collects for `d` alone
  obtain ⟨p', visits, mirrors⟩ :=
    Visits.mirror walks closed acyclic ((Mirrors.start c _).addMethods i.methods) below
  cases h.unique visits
  exact collected ▸ (mirrors.origin m member).resolve_left old

/-- What a walk finds is supplied by one of the contracts it starts from. -/
theorem origin (h : Visits t names c c') (closed : Closed t c) :
    ∀ m ∈ c'.methods, m ∈ c.methods ∨ ∃ d ∈ names, t.Supplies d m := by
  induction h with
  | done => exact fun m member => .inl member
  | again _ _ ih =>
    intro m member
    exact (ih closed m member).imp_right List.exists_mem_cons_of_exists
  | @other name _ c _ new absent _ ih =>
    intro m member
    have closed' : Closed t (c.meet name) := Visits.closed (.other new absent (.done _)) closed
    exact (ih closed' m member).imp_right List.exists_mem_cons_of_exists
  | @embedded name _ c middle _ i new found inner _ _ others =>
    intro m member
    have closed' : Closed t middle :=
      Visits.closed (.embedded new found inner (.done middle)) closed
    rcases others closed' m member with inMiddle | later
    · exact (supplied new found inner closed inMiddle).imp_right (List.exists_mem_cons_of _)
    · exact .inr (List.exists_mem_cons_of_exists later)

end Visits

/-- A required method is the contract's own, or supplied by one of the contracts it embeds. -/
theorem supplied_of_mem_requiredMethods {i : Interface} {m : Method}
    (h : m ∈ requiredMethods t i) : m ∈ i.methods ∨ ∃ d ∈ i.declaredEmbeds, t.Supplies d m := by
  obtain ⟨c, walks, collected⟩ := walks_requiredMethods t i
  exact (Visits.origin walks (.of_seen_nil rfl) m (collected ▸ h)).imp_left
    Collected.mem_of_mem_addMethods

variable {c : Conventions} {root : QualifiedName} {s : CompiledStack}

/-- `dep` is a dependency of `comp` and has a place before it. -/
structure RunsBefore (s : CompiledStack) (dep comp : Component) : Prop where
  present : s.graph.get? dep.id = some dep
  dependency : dep.id ∈ comp.dependencies
  earlier : ∃ i j : Nat, i < j ∧ s.order[i]? = some dep.id ∧ s.order[j]? = some comp.id

/-- What the bundle of a component embeds runs before that component. -/
theorem CompiledFrom.embedded_runsBefore (h : CompiledFrom t c root s) {comp : Component}
    (member : comp ∈ s.graph.components) {bundle d : QualifiedName}
    (taken : comp.bundle = some bundle) (embedded : t.EmbedsCapability bundle d) :
    ∃ dep, RunsBefore s dep comp ∧ dep.capability = d := by
  obtain ⟨id, present⟩ := DependencyGraph.mem_components.mp member
  have settled := h.settled.settled id comp present
  have named : some d ∈ comp.dependencies.map s.graph.capability? := by
    rw [settled.dependencies, Table.dependenciesOf_eq settled.resolved]
    simpa [Component.resolution, taken, Table.mem_capabilitiesOf] using embedded
  obtain ⟨d', isDependency, isNamed⟩ := List.mem_map.mp named
  obtain ⟨dep, found, sameName⟩ := Option.map_eq_some_iff.mp isNamed
  obtain rfl : dep.id = d' := h.numbered d' dep found
  have smaller : dep.id < comp.id := settled.id_eq ▸ settled.smaller dep.id isDependency
  have bound : comp.id < s.graph.size := by
    rw [settled.id_eq]
    exact (List.getElem?_eq_some_iff.mp present).1
  have order : s.order = List.range s.graph.size := congrArg CompiledStack.order h.discovered
  refine ⟨dep, ⟨found, isDependency, dep.id, comp.id, smaller, ?_, ?_⟩, sameName⟩
  · rw [order, List.getElem?_range (Nat.lt_trans smaller bound)]
  · rw [order, List.getElem?_range bound]

/-- What a component can call through its bundle is the bundle's own method, or supplied by a
dependency that runs before. A bundle with methods of its own passes a compile, but no code is
generated for it. -/
theorem bundle_methods_supplied {scope name : String} (compiled : t.compile c scope name = .ok s)
    {comp : Component} (member : comp ∈ s.graph.components) {bundle : QualifiedName}
    (taken : comp.bundle = some bundle) :
    ∃ contract, t.interface? bundle = some contract ∧
      (∀ m ∈ requiredMethods t contract, m ∈ contract.methods ∨
        ∃ dep, RunsBefore s dep comp ∧ t.Supplies dep.capability m) ∧
      ∀ config a, Aggregate.ofStack s t config = .ok a → contract.methods = [] := by
  obtain ⟨package, _, result⟩ := Table.compile_ok compiled
  obtain ⟨id, present⟩ := DependencyGraph.mem_components.mp member
  have resolved := (result.settled.settled id comp present).resolved
  obtain ⟨contract, declared⟩ :=
    Option.isSome_iff_exists.mp (Table.resolve_bundle_interface resolved taken)
  refine ⟨contract, declared, fun m required => ?_, fun config a rendered => ?_⟩
  · refine (supplied_of_mem_requiredMethods required).imp_right fun ⟨d, embedded, supplies⟩ => ?_
    have embeds : t.EmbedsCapability bundle d := by
      obtain ⟨i, found, _⟩ := supplies
      exact ⟨contract, declared, Table.mem_declaredEmbeds.mp embedded, by simp [found]⟩
    obtain ⟨dep, before, rfl⟩ := result.embedded_runsBefore member taken embeds
    exact ⟨dep, before, supplies⟩
  · obtain ⟨_, embedsOnly, isMarker⟩ := Aggregate.markers_spec result rendered
    obtain ⟨i, found, noMethods⟩ :=
      embedsOnly bundle ((isMarker bundle).mpr (.inr ⟨comp, member, taken⟩))
    cases declared.symm.trans found
    exact noMethods

/-- Add a capability with methods, and an implementation of these and of others it is asked for. -/
def Table.addProvider (t : Table) (name : String) (embeds : List String)
    (own others : List Method) : Table :=
  (t.addContract name embeds own).insert { package := "self", name := name ++ "Middleware" }
    (.concrete { methods := runAlone :: own ++ others })

/-- A capability that embeds a contract, taken by way of a bundle. -/
def login : Table :=
  (((Table.empty.addStack "Root" ["A"]).addCapability "A" (some "ADeps")).addStack "ADeps"
    ["Session"]).addProvider "Session" ["Token"] [getter "user" "String"] [getter "token" "String"]
    |>.addContract "Token" [] [getter "token" "String"]

def loginGraph : DependencyGraph :=
  ((DependencyGraph.build login {} diamondRoot).toOption).getD { root := diamondRoot }

theorem login_methods_supplied :
    (requiredMethods login (login.contractNamed "ADeps")).map Method.name = ["user", "token"] ∧
    ∃ comp ∈ loginGraph.components, comp.capability.name = "A" ∧
      ∀ m ∈ requiredMethods login (login.contractNamed "ADeps"),
        ∃ dep, RunsBefore (.ofRange loginGraph) dep comp ∧ login.Supplies dep.capability m := by
  have compiled : login.compile {} "self" "Root" = .ok (.ofRange loginGraph) := by decide +kernel
  have last : ∃ comp ∈ loginGraph.components, comp.capability.name = "A" ∧
      comp.bundle = some { package := "self", name := "ADeps" } := by decide +kernel
  obtain ⟨comp, member, isA, taken⟩ := last
  obtain ⟨contract, declared, supplied, _⟩ := bundle_methods_supplied compiled member taken
  have isContract : login.contractNamed "ADeps" = contract := by
    rw [Table.contractNamed, declared, Option.getD_some]
  have noMethods : (login.contractNamed "ADeps").methods = [] := by decide +kernel
  refine ⟨by decide +kernel, comp, member, isA, fun m required => ?_⟩
  rw [isContract] at required noMethods
  exact (supplied m required).resolve_left (by simp [noMethods])

/-- A capability that is taken as a bundle itself, methods and all. -/
def directBundle : Table :=
  ((Table.empty.addStack "Root" ["A"]).addCapability "A" (some "Session")).addProvider "Session" []
    [getter "user" "String"] []

/-- A capability that embeds itself on the way to the second of two methods of one name. -/
def roundabout : Table :=
  (((Table.empty.addStack "Root" ["A"]).addCapability "A" (some "ADeps")).addStack "ADeps"
    ["Account"]).addProvider "Account" ["Owner", "Named"] [] [getter "id" "String"]
    |>.addContract "Owner" ["Account", "Numbered"] []
    |>.addContract "Named" [] [getter "id" "String"]
    |>.addContract "Numbered" [] [getter "id" "u64"]

/-- Each component by its name, with the name of its bundle and its dependencies. -/
def CompiledStack.links (s : CompiledStack) : List (String × Option String × List ComponentId) :=
  s.graph.components.map fun comp =>
    (comp.capability.name, comp.bundle.map (·.name), comp.dependencies)

/-- The own methods of a bundle ask for no dependency. And where a dependency embeds itself, its
bundle collects another method of a name than it does itself. -/
theorem bundle_method_without_dependency :
    (∃ s, directBundle.compile {} "self" "Root" = .ok s ∧ s.links = [("A", some "Session", [])] ∧
      requiredMethods directBundle (directBundle.contractNamed "Session") =
        [getter "user" "String"]) ∧
    ∃ s, roundabout.compile {} "self" "Root" = .ok s ∧
      s.links = [("Account", none, []), ("A", some "ADeps", [0])] ∧
      requiredMethods roundabout (roundabout.contractNamed "ADeps") = [getter "id" "u64"] ∧
      requiredMethods roundabout (roundabout.contractNamed "Account") =
        [getter "id" "String"] := by
  have direct : (directBundle.compile {} "self" "Root").toOption.map CompiledStack.links =
      some [("A", some "Session", [])] := by decide +kernel
  have around : (roundabout.compile {} "self" "Root").toOption.map CompiledStack.links =
      some [("Account", none, []), ("A", some "ADeps", [0])] := by decide +kernel
  obtain ⟨s, compiled, linked⟩ := Aggregate.exists_ok_of_read direct
  obtain ⟨s', compiled', linked'⟩ := Aggregate.exists_ok_of_read around
  exact ⟨⟨s, compiled, linked, by decide +kernel⟩, s', compiled', linked', by decide +kernel,
    by decide +kernel⟩

end MiddlewareStack
