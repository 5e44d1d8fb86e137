import MiddlewareStack.Proofs.Bounds
import MiddlewareStack.Proofs.EmbeddedContracts

/-!
# The order of required methods

Contracts are met depth first: what a contract embeds comes before whatever else was waiting, and a
name is expanded where it is met first. The methods that a contract requires are those of all
contracts met, its own before them, and of each name the one that comes first
(`requiredMethods_in_preorder`). The contract that the walk starts from has no name in it, so that
it may be met again under its own.
-/

namespace MiddlewareStack

namespace Table

/-- What the contract of a name embeds, nothing if the table has none. -/
def embedsOf (t : Table) (name : QualifiedName) : List QualifiedName :=
  ((t.interface? name).map Interface.declaredEmbeds).getD []

/-- The methods that the contract of a name declares. -/
def methodsOf (t : Table) (name : QualifiedName) : List Method :=
  ((t.interface? name).map Interface.methods).getD []

/-- The names that are met from those that wait, the first of which is looked at next. What was met
before is passed over. -/
inductive Preorder (t : Table) : (before waiting met : List QualifiedName) → Prop
  | done (before : List QualifiedName) : Preorder t before [] []
  | again {name : QualifiedName} {before waiting met : List QualifiedName} (known : name ∈ before)
      (others : Preorder t before waiting met) : Preorder t before (name :: waiting) met
  | first {name : QualifiedName} {before waiting met : List QualifiedName} (new : name ∉ before)
      (deeper : Preorder t (name :: before) (t.embedsOf name ++ waiting) met) :
      Preorder t before (name :: waiting) (name :: met)

variable {t : Table} {before waiting met : List QualifiedName} {name : QualifiedName}

theorem embedsOf_eq_nil (absent : t.interface? name = none) : t.embedsOf name = [] := by
  rw [embedsOf, absent, Option.map_none, Option.getD_none]

theorem methodsOf_eq_nil (absent : t.interface? name = none) : t.methodsOf name = [] := by
  rw [methodsOf, absent, Option.map_none, Option.getD_none]

theorem embedsOf_eq {i : Interface} (found : t.interface? name = some i) :
    t.embedsOf name = i.declaredEmbeds := by
  rw [embedsOf, found, Option.map_some, Option.getD_some]

theorem methodsOf_eq {i : Interface} (found : t.interface? name = some i) :
    t.methodsOf name = i.methods := by
  rw [methodsOf, found, Option.map_some, Option.getD_some]

namespace Preorder

/-- There is one order only. -/
theorem unique {other : List QualifiedName} (h : t.Preorder before waiting met)
    (h' : t.Preorder before waiting other) : other = met := by
  induction h generalizing other with
  | done => cases h'; rfl
  | again known _ ih =>
    cases h' with
    | again _ others => exact ih others
    | first new => exact absurd known new
  | first new _ ih =>
    cases h' with
    | again known => exact absurd known new
    | first _ deeper => rw [ih deeper]

/-- No name is met twice, or again. -/
theorem nodup (h : t.Preorder before waiting met) :
    met.Nodup ∧ ∀ name ∈ met, name ∉ before := by
  induction h with
  | done => exact ⟨List.nodup_nil, List.forall_mem_nil _⟩
  | again _ _ ih => exact ih
  | first new _ ih =>
    obtain ⟨once, fresh⟩ := ih
    refine ⟨List.nodup_cons.mpr ⟨fun member => fresh _ member List.mem_cons_self, once⟩, ?_⟩
    refine List.forall_mem_cons.mpr ⟨new, fun name member earlier => ?_⟩
    exact fresh name member (List.mem_cons_of_mem _ earlier)

/-- Only what the names that wait lead to is met. -/
theorem reached {P : QualifiedName → Prop} (closed : ∀ name, P name → ∀ d ∈ t.embedsOf name, P d)
    (h : t.Preorder before waiting met) : (∀ name ∈ waiting, P name) → ∀ name ∈ met, P name := by
  induction h with
  | done => exact fun _ => List.forall_mem_nil _
  | again _ _ ih => exact fun inside => ih (List.forall_mem_cons.mp inside).2
  | first _ _ ih =>
    intro inside
    obtain ⟨here, others⟩ := List.forall_mem_cons.mp inside
    exact List.forall_mem_cons.mpr
      ⟨here, ih (List.forall_mem_append.mpr ⟨closed _ here, others⟩)⟩

end Preorder

end Table

variable {t : Table}

namespace Collected

theorem addMethods_append (c : Collected) (own others : List Method) :
    (c.addMethods own).addMethods others = c.addMethods (own ++ others) := by
  simp only [addMethods, List.foldl_append]

end Collected

/-- A walk meets names in preorder and adds the methods of each where it is met. -/
theorem Visits.preorder {names : List QualifiedName} {c c' : Collected} (h : Visits t names c c') :
    ∃ met, c'.seen = met.reverse ++ c.seen ∧
      c'.methods = (c.addMethods (met.flatMap t.methodsOf)).methods ∧
      ∀ waiting later, t.Preorder c'.seen waiting later →
        t.Preorder c.seen (names ++ waiting) (met ++ later) := by
  induction h with
  | done c => exact ⟨[], rfl, rfl, fun _ _ behind => behind⟩
  | again known _ ih =>
    obtain ⟨met, seen, methods, order⟩ := ih
    exact ⟨met, seen, methods, fun waiting later behind => .again known (order _ _ behind)⟩
  | @other name rest c c' new absent _ ih =>
    obtain ⟨met, seen, methods, order⟩ := ih
    refine ⟨name :: met, by simp [seen], ?_, fun waiting later behind => .first new ?_⟩
    · rw [methods, List.flatMap_cons, Table.methodsOf_eq_nil absent, List.nil_append]
      rfl
    · rw [Table.embedsOf_eq_nil absent]
      exact order _ _ behind
  | @embedded name rest c middle c' i new found _ _ ihInner ihOthers =>
    obtain ⟨inside, seenInside, methodsInside, orderInside⟩ := ihInner
    obtain ⟨others, seen, methods, order⟩ := ihOthers
    refine ⟨name :: (inside ++ others), ?_, ?_, fun waiting later behind => .first new ?_⟩
    · rw [seen, seenInside]
      simp [Collected.addMethods]
    · have middleMethods : ∀ own, (middle.addMethods own).methods =
          (c.addMethods (i.methods ++ inside.flatMap t.methodsOf ++ own)).methods := by
        intro own
        rw [← Collected.addMethods_append, Collected.addMethods, methodsInside,
          Collected.addMethods_append]
        rfl
      rw [methods, middleMethods, List.flatMap_cons, List.flatMap_append,
        Table.methodsOf_eq found, List.append_assoc]
    · change t.Preorder (name :: c.seen) (t.embedsOf name ++ (rest ++ waiting))
        (inside ++ others ++ later)
      rw [Table.embedsOf_eq found, List.append_assoc]
      exact orderInside _ _ (order _ _ behind)

/-! ## The first of each name -/

/-- Of methods with one name the first is kept, and those that are kept are in the order in which
their names occur first. -/
structure FirstOfEachName (declared kept : List Method) : Prop where
  names : kept.map Method.name = (declared.map Method.name).eraseDups
  first : ∀ m ∈ kept, declared.find? (·.name = m.name) = some m

theorem FirstOfEachName.addMethod {declared kept : List Method} (h : FirstOfEachName declared kept)
    (m : Method) : FirstOfEachName (declared ++ [m]) (Collected.addMethod kept m) := by
  have named : (∃ found ∈ kept, found.name = m.name) ↔ m.name ∈ declared.map Method.name := by
    rw [← List.mem_eraseDups, ← h.names, List.mem_map]
  have earlier : ∀ k ∈ kept, (declared ++ [m]).find? (·.name = k.name) = some k := fun k member =>
    by rw [List.find?_append, h.first k member, Option.some_or]
  by_cases again : ∃ found ∈ kept, found.name = m.name
  · rw [Collected.addMethod_of_named again]
    refine ⟨?_, earlier⟩
    rw [h.names, List.map_append, List.map_singleton, eraseDups_concat, if_pos (named.mp again)]
  · rw [Collected.addMethod_of_new again]
    have new : m.name ∉ declared.map Method.name := fun member => again (named.mpr member)
    refine ⟨?_, List.forall_mem_append.mpr ⟨earlier, List.forall_mem_singleton.mpr ?_⟩⟩
    · rw [List.map_append, List.map_append, h.names, List.map_singleton, eraseDups_concat,
        if_neg new]
    · have absent : declared.find? (·.name = m.name) = none := by
        simpa using new
      simp [List.find?_append, absent]

theorem firstOfEachName_addMethods (declared : List Method) :
    FirstOfEachName declared (({} : Collected).addMethods declared).methods := by
  induction declared using List.reverseRecOn with
  | nil => exact ⟨rfl, List.forall_mem_nil _⟩
  | append_singleton declared m ih =>
    rw [← Collected.addMethods_append]
    exact ih.addMethod m

theorem nodup_eraseDups {α : Type} [DecidableEq α] (l : List α) : l.eraseDups.Nodup := by
  induction l using List.reverseRecOn with
  | nil => exact List.nodup_nil
  | append_singleton l a ih =>
    rw [eraseDups_concat]
    split
    · exact ih
    · next new =>
      have apart : ∀ x ∈ l, x ≠ a := fun x member same => new (same ▸ member)
      simpa [List.nodup_append, ih] using apart

theorem FirstOfEachName.nodup {declared kept : List Method} (h : FirstOfEachName declared kept) :
    (kept.map Method.name).Nodup :=
  h.names ▸ nodup_eraseDups _

/-- What a contract requires is listed by name: the methods of `i` and of the contracts `met` from
it, one of each name. -/
structure ListedByName (t : Table) (i : Interface) (met : List QualifiedName)
    (methods : List Method) : Prop where
  /-- Contracts are met depth first from what `i` embeds, and there is no other order. -/
  preorder : ∀ order, t.Preorder [] i.declaredEmbeds order ↔ order = met
  /-- Each is met once, and all are that `i` reaches along embeds. -/
  once : met.Nodup
  reached : ∀ name, name ∈ met ↔
    ∃ j, Relation.ReflTransGen t.Embeds i j ∧ name ∈ j.declaredEmbeds
  /-- The methods are the first ones of their names, in the order in which the names come up. -/
  firsts : FirstOfEachName (i.methods ++ met.flatMap t.methodsOf) methods
  distinct : (methods.map Method.name).Nodup
  /-- All names of required methods are there, and no others. -/
  complete : ∀ name, name ∈ methods.map Method.name ↔ ∃ m, t.Requires i m ∧ m.name = name

/-- No bound cuts the walk over the contracts that are embedded off, whether they embed one another
or not, and what it collects is the first of each name in preorder. -/
theorem requiredMethods_in_preorder (t : Table) (i : Interface) :
    (∀ beyond depth, t.symbolCount < depth →
      requiredWithin t beyond depth i = requiredMethods t i) ∧
    ∃ met, ListedByName t i met (requiredMethods t i) := by
  refine ⟨fun beyond depth deep => requiredWithin_eq beyond deep i, ?_⟩
  obtain ⟨c, walks, collected⟩ := walks_requiredMethods t i
  obtain ⟨met, seen, methods, order⟩ := Visits.preorder walks
  have isOrder : t.Preorder [] i.declaredEmbeds met := by
    simpa [Collected.addMethods] using order [] [] (.done _)
  have firsts : FirstOfEachName (i.methods ++ met.flatMap t.methodsOf) (requiredMethods t i) := by
    rw [← collected, methods, Collected.addMethods_append]
    exact firstOfEachName_addMethods _
  refine ⟨met, {
    preorder := fun other => ⟨isOrder.unique, fun same => same ▸ isOrder⟩
    once := isOrder.nodup.1
    reached := fun name => ⟨fun member => ?_, fun ⟨j, path, embedded⟩ => ?_⟩
    firsts
    distinct := firsts.nodup
    complete := fun name => ?_ }⟩
  · refine isOrder.reached (P := fun name =>
      ∃ j, Relation.ReflTransGen t.Embeds i j ∧ name ∈ j.declaredEmbeds) ?_
      (fun name embedded => ⟨i, .refl, embedded⟩) name member
    rintro name ⟨j, path, embedded⟩ d deeper
    cases found : t.interface? name with
    | none => simp [Table.embedsOf_eq_nil found] at deeper
    | some k =>
      rw [Table.embedsOf_eq found] at deeper
      exact ⟨k, path.tail ⟨name, Table.mem_declaredEmbeds.mp embedded, found⟩, deeper⟩
  · have covered := (Walks.covers walks path).embeds name embedded
    simpa [seen, Collected.addMethods] using covered
  · rw [List.mem_map]
    constructor
    · rintro ⟨m, member, rfl⟩
      exact ⟨m, requires_of_mem_requiredMethods member, rfl⟩
    · rintro ⟨m, required, rfl⟩
      exact exists_requiredMethod_of_requires required

end MiddlewareStack
