import MiddlewareStack.Proofs.EmbeddedContracts

/-!
# When a type satisfies a contract

A check tells methods apart by their names: of the required methods of one name it looks at the one
that the walk meets first, and among the methods of the candidate at the first of that name. It
answers for the signatures where a name stands for one signature on both sides, and only there.
-/

namespace MiddlewareStack

/-- A name stands for one signature. -/
def Agreeing (methods : Method → Prop) : Prop :=
  ∀ a b, methods a → methods b → a.name = b.name → a.SameSignature b

/-- Whatever the contract requires, however deep, the candidate can be called for through a shared
borrow and with the signature required. -/
def Carries (t : Table) (i : Interface) (candidate : ConcreteType) : Prop :=
  ∀ m, t.Requires i m → ∃ f ∈ candidate.methodSet, f.SameSignature m

/-- The methods of a candidate that bear the name of a required one. -/
def Offered (t : Table) (i : Interface) (candidate : ConcreteType) (f : Method) : Prop :=
  f ∈ candidate.methodSet ∧ ∃ m, t.Requires i m ∧ m.name = f.name

variable {t : Table} {i : Interface} {candidate : ConcreteType}

namespace Method.SameSignature

variable {a b c : Method}

theorem name_eq (h : a.SameSignature b) : a.name = b.name := h.1

theorem symm (h : a.SameSignature b) : b.SameSignature a :=
  ⟨h.1.symm, h.2.1.symm, h.2.2.1.symm, h.2.2.2.symm⟩

theorem trans (h : a.SameSignature b) (h' : b.SameSignature c) : a.SameSignature c :=
  ⟨h.1.trans h'.1, h.2.1.trans h'.2.1, h.2.2.1.trans h'.2.2.1, h.2.2.2.trans h'.2.2.2⟩

end Method.SameSignature

/-- One requirement is met by the first method of its name, or not at all. -/
theorem satisfaction_eq_satisfied {required : Method} :
    satisfaction candidate required = .satisfied ↔
      ∃ f, candidate.methodSet.find? (·.name = required.name) = some f ∧
        f.SameSignature required := by
  unfold satisfaction
  cases candidate.methodSet.find? (·.name = required.name) with
  | none =>
    simp only [reduceCtorEq, false_and, exists_false, iff_false]
    split <;> simp
  | some f =>
    simp only [Option.some.injEq, exists_eq_left']
    split
    · next same => simp [same]
    · next different => simp [different]

theorem firstUnmet_eq_satisfied {required : List Method} :
    firstUnmet candidate required = .satisfied ↔
      ∀ m ∈ required, satisfaction candidate m = .satisfied := by
  induction required with
  | nil => simp [firstUnmet]
  | cons m rest ih =>
    rw [firstUnmet, List.forall_mem_cons]
    cases satisfaction candidate m with
    | satisfied => simpa using ih
    | missingMethod name => simp
    | signatureMismatch name => simp

theorem check_eq_satisfied :
    check t i candidate = .satisfied ↔
      ∀ m ∈ requiredMethods t i, ∃ f, candidate.methodSet.find? (·.name = m.name) = some f ∧
        f.SameSignature m := by
  unfold check
  rw [firstUnmet_eq_satisfied]
  exact forall₂_congr fun m _ => satisfaction_eq_satisfied

/-- A type that passes carries everything, unless two requirements of one name differ. -/
theorem carries_of_satisfied (agree : Agreeing (t.Requires i))
    (h : check t i candidate = .satisfied) : Carries t i candidate := by
  intro m required
  obtain ⟨first, collected, sameName⟩ := exists_requiredMethod_of_requires required
  obtain ⟨f, found, sameSignature⟩ := check_eq_satisfied.mp h first collected
  have firstAgrees : first.SameSignature m :=
    agree first m (requires_of_mem_requiredMethods collected) required sameName
  exact ⟨f, List.mem_of_find?_eq_some found, sameSignature.trans firstAgrees⟩

/-- A type whose methods are told apart by name and that carries everything passes. -/
theorem satisfied_of_carries (apart : Agreeing (Offered t i candidate))
    (h : Carries t i candidate) : check t i candidate = .satisfied := by
  rw [check_eq_satisfied]
  intro m collected
  have required := requires_of_mem_requiredMethods collected
  obtain ⟨f, inSet, same⟩ := h m required
  have present : (candidate.methodSet.find? (·.name = m.name)).isSome := by
    rw [List.find?_isSome]
    exact ⟨f, inSet, by simpa using same.name_eq⟩
  obtain ⟨first, found⟩ := Option.isSome_iff_exists.mp present
  have firstName : first.name = m.name := by simpa using List.find?_some found
  have firstAgrees : first.SameSignature f :=
    apart first f ⟨List.mem_of_find?_eq_some found, m, required, firstName.symm⟩
      ⟨inSet, m, required, same.name_eq.symm⟩ (firstName.trans same.name_eq.symm)
  exact ⟨first, found, firstAgrees.trans same⟩

/-- No such type carries two requirements of one name that differ. -/
theorem agreeing_of_carries (apart : Agreeing (Offered t i candidate))
    (h : Carries t i candidate) : Agreeing (t.Requires i) := by
  intro a b requiredA requiredB sameName
  obtain ⟨f, inSetF, sameA⟩ := h a requiredA
  obtain ⟨g, inSetG, sameB⟩ := h b requiredB
  have names : f.name = g.name := sameA.name_eq.trans (sameName.trans sameB.name_eq.symm)
  have same : f.SameSignature g :=
    apart f g ⟨inSetF, a, requiredA, sameA.name_eq.symm⟩
      ⟨inSetG, b, requiredB, sameB.name_eq.symm⟩ names
  exact sameA.symm.trans (same.trans sameB)

/-- Where the candidate's methods are told apart by name, it carries all that a contract requires
exactly if it passes the check and no two requirements contradict each other. -/
theorem carries_iff_satisfied (apart : Agreeing (Offered t i candidate)) :
    Carries t i candidate ↔
      check t i candidate = .satisfied ∧ Agreeing (t.Requires i) :=
  ⟨fun carried => ⟨satisfied_of_carries apart carried, agreeing_of_carries apart carried⟩,
    fun ⟨satisfied, agree⟩ => carries_of_satisfied agree satisfied⟩

/-- Add a contract with methods of its own. -/
def Table.addContract (t : Table) (name : String) (embeds : List String) (methods : List Method) :
    Table :=
  t.insert { package := "self", name } (.interface
    { embeds := embeds.map fun embed => .declared { package := "self", name := embed }, methods })

/-- The contract of a name of the top level, empty if there is none. -/
def Table.contractNamed (t : Table) (name : String) : Interface :=
  (t.interface? { package := "self", name }).getD {}

/-- A method without parameters that gives a type from outside the table. -/
def getter (name output : String) : Method :=
  { name, output := some (.external output) }

/-- A contract that embeds another one, and two that give different things under one name. -/
def tokens : Table :=
  (((Table.empty.addContract "Token" [] [getter "token" "String"]).addContract "Session" ["Token"]
    [getter "user" "String"]).addContract "Number" [] [getter "token" "u64"]).addContract "Both"
      ["Token", "Number"] []

/-- Overloads of a name that the contract does not ask for do not matter. -/
def session : ConcreteType :=
  { methods := [getter "fmt" "Debug", getter "user" "String", getter "fmt" "Display",
      getter "token" "String"] }

theorem requires_session {m : Method} (h : tokens.Requires (tokens.contractNamed "Session") m) :
    m = getter "user" "String" ∨ m = getter "token" "String" := by
  have declared : tokens.contractNamed "Session" =
      { embeds := [.declared { package := "self", name := "Token" }]
        methods := [getter "user" "String"] } := by decide +kernel
  have embedded : tokens.interface? { package := "self", name := "Token" } =
      some { methods := [getter "token" "String"] } := by decide +kernel
  rw [declared, Table.requires_iff] at h
  rcases h with own | ⟨d, member, j, found, required⟩
  · exact .inl (by simpa using own)
  · obtain rfl : d = { package := "self", name := "Token" } := by
      simpa [Interface.declaredEmbeds] using member
    cases embedded.symm.trans found
    rw [Table.requires_iff] at required
    exact .inr (by simpa [Interface.declaredEmbeds] using required)

theorem session_carries :
    Agreeing (Offered tokens (tokens.contractNamed "Session") session) ∧
      Carries tokens (tokens.contractNamed "Session") session := by
  have apart : Agreeing (Offered tokens (tokens.contractNamed "Session") session) := by
    rintro a b ⟨inSetA, m, required, named⟩ ⟨inSetB, _⟩ same
    have single : ∀ a ∈ session.methodSet, ∀ b ∈ session.methodSet,
        a.name = "user" ∨ a.name = "token" → a.name = b.name → a.SameSignature b := by
      decide +kernel
    refine single a inSetA b inSetB ?_ same
    rcases requires_session required with rfl | rfl
    · exact .inl named.symm
    · exact .inr named.symm
  have agree : Agreeing (tokens.Requires (tokens.contractNamed "Session")) := by
    intro a b requiredA requiredB
    rcases requires_session requiredA with rfl | rfl <;>
      rcases requires_session requiredB with rfl | rfl <;> decide
  exact ⟨apart, (carries_iff_satisfied apart).mpr ⟨by decide +kernel, agree⟩⟩

/-- A type with two methods of one name fails for its first one, and a type passes for the first of
two required methods. -/
theorem check_looks_at_first_of_name :
    (check tokens (tokens.contractNamed "Number")
        { methods := [getter "token" "String", getter "token" "u64"] } =
          .signatureMismatch "token" ∧
      Carries tokens (tokens.contractNamed "Number")
        { methods := [getter "token" "String", getter "token" "u64"] }) ∧
    (check tokens (tokens.contractNamed "Both") { methods := [getter "token" "String"] } =
        .satisfied ∧
      ¬Carries tokens (tokens.contractNamed "Both") { methods := [getter "token" "String"] }) := by
  have number : tokens.contractNamed "Number" = { methods := [getter "token" "u64"] } := by
    decide +kernel
  have both : tokens.contractNamed "Both" =
      { embeds := [.declared { package := "self", name := "Token" },
          .declared { package := "self", name := "Number" }] } := by decide +kernel
  have found : tokens.interface? { package := "self", name := "Number" } =
      some { methods := [getter "token" "u64"] } := by decide +kernel
  refine ⟨⟨by decide +kernel, fun m required => ?_⟩, by decide +kernel, fun carried => ?_⟩
  · rw [number, Table.requires_iff] at required
    have own : m = getter "token" "u64" := by simpa [Interface.declaredEmbeds] using required
    exact ⟨m, by simp [own, ConcreteType.methodSet, getter], own ▸ by decide⟩
  · have required : tokens.Requires (tokens.contractNamed "Both") (getter "token" "u64") := by
      rw [both, Table.requires_iff]
      exact .inr ⟨_, by simp [Interface.declaredEmbeds], _, found,
        Table.requires_iff.mpr (.inl (by simp))⟩
    obtain ⟨f, inSet, same⟩ := carried _ required
    have only : f = getter "token" "String" := by simpa [ConcreteType.methodSet, getter] using inSet
    exact absurd (only ▸ same) (by decide)

end MiddlewareStack
