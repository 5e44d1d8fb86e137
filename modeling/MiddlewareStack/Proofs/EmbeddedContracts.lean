import Mathlib.Data.List.Infix
import MiddlewareStack.Proofs.Dependency

/-!
# What a contract requires

The methods of a contract and of all it embeds, said without the walk that collects them. The walk
itself is a relation here, without a bound on its depth: it forgets nothing, everything it finds is
required, and of every required method it finds one with that name.
-/

namespace MiddlewareStack

/-- `j` is the declaration of a contract that `i` embeds. -/
def Table.Embeds (t : Table) (i j : Interface) : Prop :=
  ∃ name, .declared name ∈ i.embeds ∧ t.interface? name = some j

/-- `m` is declared in the contract `i` or in one that is reached from it along embeds. -/
def Table.Requires (t : Table) (i : Interface) (m : Method) : Prop :=
  ∃ j, Relation.ReflTransGen t.Embeds i j ∧ m ∈ j.methods

theorem Table.requires_iff {t : Table} {i : Interface} {m : Method} :
    t.Requires i m ↔
      m ∈ i.methods ∨ ∃ d ∈ i.declaredEmbeds, ∃ j, t.interface? d = some j ∧ t.Requires j m := by
  constructor
  · rintro ⟨k, path, declared⟩
    rcases Relation.ReflTransGen.cases_head path with rfl | ⟨j, ⟨d, embedded, found⟩, path⟩
    · exact .inl declared
    · exact .inr ⟨d, mem_declaredEmbeds.mpr embedded, j, found, k, path, declared⟩
  · rintro (own | ⟨d, embedded, j, found, k, path, declared⟩)
    · exact ⟨i, .refl, own⟩
    · exact ⟨k, .head ⟨d, mem_declaredEmbeds.mp embedded, found⟩ path, declared⟩

namespace Collected

def meet (c : Collected) (name : QualifiedName) : Collected :=
  { c with seen := name :: c.seen }

@[simp] theorem seen_meet (c : Collected) (name : QualifiedName) :
    (c.meet name).seen = name :: c.seen := rfl

/-- A method with that name has been found. -/
def Names (c : Collected) (name : String) : Prop :=
  ∃ m ∈ c.methods, m.name = name

theorem addMethod_of_named {methods : List Method} {m : Method}
    (named : ∃ found ∈ methods, found.name = m.name) : addMethod methods m = methods := by
  unfold addMethod
  rw [if_pos]
  simpa using named

theorem addMethod_of_new {methods : List Method} {m : Method}
    (new : ¬∃ found ∈ methods, found.name = m.name) : addMethod methods m = methods ++ [m] := by
  unfold addMethod
  rw [if_neg]
  simpa using new

theorem addMethod_effects (methods : List Method) (m : Method) :
    methods <+: addMethod methods m ∧ (∀ x ∈ addMethod methods m, x ∈ methods ∨ x = m) ∧
      ∃ found ∈ addMethod methods m, found.name = m.name := by
  by_cases again : ∃ found ∈ methods, found.name = m.name
  · rw [addMethod_of_named again]
    exact ⟨List.prefix_rfl, fun x member => .inl member, again⟩
  · rw [addMethod_of_new again]
    exact ⟨List.prefix_append .., by simp, m, by simp, rfl⟩

/-- What adding the methods of one contract does. -/
theorem addMethods_effects (c : Collected) (own : List Method) :
    c.methods <+: (c.addMethods own).methods ∧
    (∀ m ∈ (c.addMethods own).methods, m ∈ c.methods ∨ m ∈ own) ∧
    ∀ m ∈ own, (c.addMethods own).Names m.name := by
  unfold addMethods Names
  dsimp only
  induction own generalizing c with
  | nil => simp
  | cons first rest ih =>
    obtain ⟨kept, origin, named⟩ := ih { c with methods := addMethod c.methods first }
    obtain ⟨keptFirst, originFirst, found, inside, same⟩ := addMethod_effects c.methods first
    simp only [List.foldl_cons]
    refine ⟨keptFirst.trans kept, fun m member => ?_, fun m member => ?_⟩
    · rcases origin m member with earlier | later
      · exact (originFirst m earlier).imp id fun same => by simp [same]
      · exact .inr (List.mem_cons_of_mem _ later)
    · rcases List.mem_cons.mp member with rfl | later
      · exact ⟨found, kept.subset inside, same⟩
      · exact named m later

theorem mem_of_mem_addMethods {own : List Method} {m : Method}
    (h : m ∈ (({} : Collected).addMethods own).methods) : m ∈ own :=
  ((addMethods_effects {} own).2.1 m h).resolve_left List.not_mem_nil

end Collected

/-- The walk over some embedded names, from what has been collected before it to what has been
collected after it. -/
inductive Visits (t : Table) : List QualifiedName → Collected → Collected → Prop
  | done (c : Collected) : Visits t [] c c
  | again {name : QualifiedName} {rest : List QualifiedName} {c c' : Collected}
      (met : name ∈ c.seen) (others : Visits t rest c c') : Visits t (name :: rest) c c'
  | other {name : QualifiedName} {rest : List QualifiedName} {c c' : Collected}
      (new : name ∉ c.seen) (absent : t.interface? name = none)
      (others : Visits t rest (c.meet name) c') : Visits t (name :: rest) c c'
  | embedded {name : QualifiedName} {rest : List QualifiedName} {c middle c' : Collected}
      {i : Interface} (new : name ∉ c.seen) (found : t.interface? name = some i)
      (inner : Visits t i.declaredEmbeds ((c.meet name).addMethods i.methods) middle)
      (others : Visits t rest middle c') : Visits t (name :: rest) c c'

/-- The walk from a contract, whose own methods come first. -/
def Walks (t : Table) (i : Interface) (c c' : Collected) : Prop :=
  Visits t i.declaredEmbeds (c.addMethods i.methods) c'

variable {t : Table}

namespace Visits

variable {names : List QualifiedName} {c c' : Collected}

/-- A walk forgets nothing. -/
theorem grows (h : Visits t names c c') : c.seen ⊆ c'.seen ∧ c.methods <+: c'.methods := by
  induction h with
  | done c => exact ⟨List.Subset.refl _, List.prefix_rfl⟩
  | again _ _ ih => exact ih
  | other _ _ _ ih => exact ⟨fun x member => ih.1 (List.mem_cons_of_mem _ member), ih.2⟩
  | @embedded name _ c _ _ i _ _ _ _ inner others =>
    have kept := ((c.meet name).addMethods_effects i.methods).1
    refine ⟨fun x member => others.1 (inner.1 ?_), (kept.trans inner.2).trans others.2⟩
    exact List.mem_cons_of_mem _ member

/-- A walk has one result. -/
theorem unique {other : Collected} (h : Visits t names c c') (h' : Visits t names c other) :
    c' = other := by
  induction h generalizing other with
  | done => cases h'; rfl
  | again met _ ih =>
    cases h' with
    | again _ others => exact ih others
    | other new => exact absurd met new
    | embedded new => exact absurd met new
  | other new absent _ ih =>
    cases h' with
    | again met => exact absurd met new
    | other _ _ others => exact ih others
    | embedded _ found => cases absent.symm.trans found
  | embedded new found _ _ inner others =>
    cases h' with
    | again met => exact absurd met new
    | other _ absent => cases absent.symm.trans found
    | embedded _ found' inner' others' =>
      cases found.symm.trans found'
      cases inner inner'
      exact others others'

/-- What a walk finds is required by one of the contracts it starts from. -/
theorem required (h : Visits t names c c') :
    ∀ m ∈ c'.methods, m ∈ c.methods ∨
      ∃ name ∈ names, ∃ i, t.interface? name = some i ∧ t.Requires i m := by
  induction h with
  | done => exact fun m member => .inl member
  | again _ _ ih => exact fun m member => (ih m member).imp_right List.exists_mem_cons_of_exists
  | other _ _ _ ih => exact fun m member => (ih m member).imp_right List.exists_mem_cons_of_exists
  | @embedded name _ c _ _ i _ found _ _ inner others =>
    intro m member
    rcases others m member with inMiddle | later
    · rcases inner m inMiddle with added | embedded
      · rcases ((c.meet name).addMethods_effects i.methods).2.1 m added with old | own
        · exact .inl old
        · exact .inr ⟨name, List.mem_cons_self, i, found, Table.requires_iff.mpr (.inl own)⟩
      · exact .inr ⟨name, List.mem_cons_self, i, found, Table.requires_iff.mpr (.inr embedded)⟩
    · exact .inr (List.exists_mem_cons_of_exists later)

end Visits

/-- Nothing that a contract declares is missing from what has been collected: its methods by name,
and the contracts it embeds as met. -/
structure Covers (c : Collected) (i : Interface) : Prop where
  methods : ∀ m ∈ i.methods, c.Names m.name
  embeds : ∀ d ∈ i.declaredEmbeds, d ∈ c.seen

/-- Every contract that has been met is covered. -/
def Closed (t : Table) (c : Collected) : Prop :=
  ∀ name ∈ c.seen, ∀ i, t.interface? name = some i → Covers c i

theorem Covers.grows {c c' : Collected} {i : Interface} (h : Covers c i) (seen : c.seen ⊆ c'.seen)
    (methods : c.methods ⊆ c'.methods) : Covers c' i where
  methods m declared := by
    obtain ⟨found, member, same⟩ := h.methods m declared
    exact ⟨found, methods member, same⟩
  embeds d embedded := seen (h.embeds d embedded)

namespace Visits

variable {names : List QualifiedName} {c c' : Collected}

theorem covers (h : Visits t names c c') :
    (∀ name ∈ names, name ∈ c'.seen) ∧
    ∀ name ∈ c'.seen, name ∈ c.seen ∨ ∀ i, t.interface? name = some i → Covers c' i := by
  induction h with
  | done c => exact ⟨by simp, fun name member => .inl member⟩
  | again met others ih => exact ⟨List.forall_mem_cons.mpr ⟨others.grows.1 met, ih.1⟩, ih.2⟩
  | @other name _ _ _ _ absent others ih =>
    refine ⟨List.forall_mem_cons.mpr ⟨others.grows.1 List.mem_cons_self, ih.1⟩, fun x member => ?_⟩
    rcases ih.2 x member with earlier | covered
    · rcases List.mem_cons.mp earlier with rfl | earlier
      · exact .inr fun i found => by cases absent.symm.trans found
      · exact .inl earlier
    · exact .inr covered
  | @embedded name _ c middle c' i _ found inner others ihInner ihOthers =>
    have own := ((c.meet name).addMethods_effects i.methods).2.2
    have here : Covers middle i := by
      refine ⟨fun m declared => ?_, ihInner.1⟩
      obtain ⟨found, member, same⟩ := own m declared
      exact ⟨found, inner.grows.2.subset member, same⟩
    have kept : ∀ {j}, Covers middle j → Covers c' j := fun covered =>
      covered.grows others.grows.1 others.grows.2.subset
    have reached : name ∈ c'.seen := others.grows.1 (inner.grows.1 List.mem_cons_self)
    refine ⟨List.forall_mem_cons.mpr ⟨reached, ihOthers.1⟩, fun x member => ?_⟩
    rcases ihOthers.2 x member with inMiddle | covered
    · rcases ihInner.2 x inMiddle with earlier | covered
      · rcases List.mem_cons.mp earlier with rfl | earlier
        · refine .inr fun j found' => ?_
          cases found.symm.trans found'
          exact kept here
        · exact .inl earlier
      · exact .inr fun j found' => kept (covered j found')
    · exact .inr covered

theorem closed (h : Visits t names c c') (before : Closed t c) : Closed t c' := by
  intro name member i found
  rcases h.covers.2 name member with earlier | covered
  · exact (before name earlier i found).grows h.grows.1 h.grows.2.subset
  · exact covered i found

end Visits

theorem Closed.of_seen_nil {c : Collected} (h : c.seen = []) : Closed t c := by
  simp [Closed, h]

/-- A walk from a contract on its own covers all that the contract reaches. -/
theorem Walks.covers {i j : Interface} {c : Collected} (h : Walks t i {} c)
    (path : Relation.ReflTransGen t.Embeds i j) : Covers c j := by
  have closed : Closed t c := Visits.closed h (.of_seen_nil rfl)
  induction path with
  | refl =>
    refine ⟨fun m declared => ?_, (Visits.covers h).1⟩
    obtain ⟨found, member, same⟩ := (Collected.addMethods_effects {} i.methods).2.2 m declared
    exact ⟨found, (Visits.grows h).2.subset member, same⟩
  | tail _ step ih =>
    obtain ⟨name, embedded, found⟩ := step
    exact closed name (ih.embeds name (Table.mem_declaredEmbeds.mpr embedded)) _ found

section Bounded

variable {depth : Nat} {visit : Interface → Collected → Collected}

theorem collectEmbeds_visits
    (walks : ∀ i c, t.unmet c.seen < depth → Walks t i c (visit i c)) :
    ∀ (names : List QualifiedName) (c : Collected), t.unmet c.seen < depth + 1 →
      Visits t names c (collectEmbeds t visit names c)
  | [], c, _ => .done c
  | name :: rest, c, bound => by
    by_cases met : name ∈ c.seen
    · rw [collectEmbeds, if_pos met]
      exact .again met (collectEmbeds_visits walks rest c bound)
    · rw [collectEmbeds, if_neg met]
      have fewer : t.unmet (c.meet name).seen ≤ t.unmet c.seen :=
        Table.unmet_le (List.subset_cons_self ..)
      cases found : t.interface? name with
      | none =>
        exact .other met found
          (collectEmbeds_visits walks rest (c.meet name) (Nat.lt_of_le_of_lt fewer bound))
      | some i =>
        have deeper : t.unmet (c.meet name).seen < depth :=
          Table.unmet_lt_depth (List.subset_cons_self ..) List.mem_cons_self met
            (by simp [found]) bound
        have inner := walks i (c.meet name) deeper
        have left : t.unmet (visit i (c.meet name)).seen ≤ t.unmet (c.meet name).seen :=
          Table.unmet_le (Visits.grows inner).1
        exact .embedded met found inner (collectEmbeds_visits walks rest _ (by omega))

/-- The bounded walk does all of the walk, as long as it may go deep enough. -/
theorem collect_walks (beyond : Interface → Collected → Collected) :
    ∀ depth i c, t.unmet c.seen < depth → Walks t i c (collect t beyond depth i c)
  | 0, _, _, bound => absurd bound (Nat.not_lt_zero _)
  | depth + 1, i, c, bound =>
    collectEmbeds_visits (collect_walks beyond depth) i.declaredEmbeds (c.addMethods i.methods)
      bound

theorem walks_requiredMethods (t : Table) (i : Interface) :
    ∃ c, Walks t i {} c ∧ c.methods = requiredMethods t i :=
  ⟨_, collect_walks _ (t.symbolCount + 1) i {} (t.unmet_nil ▸ Nat.lt_succ_self _), rfl⟩

end Bounded

/-- What is collected for a contract is what any walk from it collects. -/
theorem Walks.methods_eq {i : Interface} {c : Collected} (h : Walks t i {} c) :
    requiredMethods t i = c.methods := by
  obtain ⟨other, walks, same⟩ := walks_requiredMethods t i
  rw [← same, Visits.unique walks h]

section Agreeing

variable {t' : Table} {P : QualifiedName → Prop}

/-- A walk does the same in another table if it stays among names of which both say the same. -/
theorem Visits.transfer (same : ∀ d, P d → t'.interface? d = t.interface? d)
    (closed : ∀ d i, P d → t.interface? d = some i → ∀ e ∈ i.declaredEmbeds, P e)
    {names : List QualifiedName} {c c' : Collected} (h : Visits t names c c') :
    (∀ d ∈ names, P d) → Visits t' names c c' := by
  induction h with
  | done c =>
    intro _
    exact .done c
  | again met _ ih =>
    intro inside
    exact .again met (ih (List.forall_mem_cons.mp inside).2)
  | other new absent _ ih =>
    intro inside
    obtain ⟨first, others⟩ := List.forall_mem_cons.mp inside
    exact .other new ((same _ first).trans absent) (ih others)
  | embedded new found _ _ inner others =>
    intro inside
    obtain ⟨first, rest⟩ := List.forall_mem_cons.mp inside
    exact .embedded new ((same _ first).trans found) (inner (closed _ _ first found)) (others rest)

theorem requiredMethods_transfer (same : ∀ d, P d → t'.interface? d = t.interface? d)
    (closed : ∀ d i, P d → t.interface? d = some i → ∀ e ∈ i.declaredEmbeds, P e)
    {i : Interface} (inside : ∀ d ∈ i.declaredEmbeds, P d) :
    requiredMethods t' i = requiredMethods t i := by
  obtain ⟨c, walks, collected⟩ := walks_requiredMethods t i
  have walks' : Walks t' i {} c := Visits.transfer same closed walks inside
  rw [walks'.methods_eq, collected]

end Agreeing

/-- Whatever is collected for a contract is required by it. -/
theorem requires_of_mem_requiredMethods {i : Interface} {m : Method}
    (h : m ∈ requiredMethods t i) : t.Requires i m := by
  obtain ⟨c, walks, same⟩ := walks_requiredMethods t i
  rw [Table.requires_iff]
  exact (Visits.required walks m (same ▸ h)).imp_left Collected.mem_of_mem_addMethods

/-- Of everything that a contract requires, a method with its name is collected. -/
theorem exists_requiredMethod_of_requires {i : Interface} {m : Method} (h : t.Requires i m) :
    ∃ collected ∈ requiredMethods t i, collected.name = m.name := by
  obtain ⟨c, walks, same⟩ := walks_requiredMethods t i
  obtain ⟨j, path, declared⟩ := h
  rw [← same]
  exact (Walks.covers walks path).methods m declared

end MiddlewareStack
