import MiddlewareStack.Proofs.BundleMethods
import MiddlewareStack.Proofs.ImplementedContracts

/-!
# What forwarded calls name

Each field implements the capability it holds and contracts that this reaches along embeds, by one
call for each of their methods. The check that a component has passed looked at one method of each
name, so that there is something to call wherever a contract was met. What the call passes on is up
to the method of the contract, and it is the field where all required methods of a name agree.
-/

namespace MiddlewareStack

open Relation

variable {t : Table}

/-- What a contract requires is declared by the contracts that its name reaches. -/
theorem Table.requires_iff_reached {name : QualifiedName} {i : Interface} {m : Method}
    (declared : t.interface? name = some i) :
    t.Requires i m ↔ ∃ d j, ReflTransGen t.EmbedsCapability name d ∧ t.interface? d = some j ∧
      m ∈ j.methods := by
  constructor
  · rintro ⟨j, path, own⟩
    induction path using ReflTransGen.head_induction_on generalizing name with
    | refl => exact ⟨name, j, .refl, declared, own⟩
    | head step _ ih =>
      obtain ⟨next, embedded, found⟩ := step
      obtain ⟨d, k, path, foundLast, inLast⟩ := ih found
      exact ⟨d, k, .head ⟨_, declared, embedded, by simp [found]⟩ path, foundLast, inLast⟩
  · rintro ⟨d, j, path, found, own⟩
    induction path using ReflTransGen.head_induction_on generalizing i with
    | refl =>
      cases declared.symm.trans found
      exact ⟨_, .refl, own⟩
    | head step _ ih =>
      obtain ⟨_, same, embedded, isInterface⟩ := step
      cases declared.symm.trans same
      obtain ⟨next, foundNext⟩ := Option.isSome_iff_exists.mp isInterface
      obtain ⟨last, path, own⟩ := ih foundNext
      exact ⟨last, .head ⟨_, embedded, foundNext⟩ path, own⟩

namespace Aggregate

/-- The arguments of a call that forwards `m`: what it is called on, if it is called on anything,
and then the parameters by their names. -/
inductive CallArguments (field : Field) (m : Method) : List String → Prop
  | shared (taken : m.receiver = .ref) :
      CallArguments field m (("&self." ++ field.name) :: m.argNames)
  | exclusive (taken : m.receiver = .refMut) :
      CallArguments field m (("&mut self." ++ field.name) :: m.argNames)
  | alone (taken : m.receiver = .absent) : CallArguments field m m.argNames

/-- `d` is `m`, with a call of the method of its name of what the field holds. -/
structure Calls (field : Field) (m : Method) (d : Delegate) : Prop where
  signature : d.signature = signatureText m
  call : ∃ arguments, CallArguments field m arguments ∧ d.call =
    field.implementation.filePath ++ "::" ++ m.name ++ "(" ++ ", ".intercalate arguments ++ ")"

theorem delegate_calls {contract : QualifiedName} {field : Field} {m : Method} {d : Delegate}
    (h : delegate contract field m = .ok d) : Calls field m d := by
  unfold delegate at h
  split at h
  · cases h
  · next receiver forwarded =>
    cases h
    refine ⟨rfl, _, ?_, rfl⟩
    unfold forwarded? at forwarded
    split at forwarded <;> cases forwarded
    · next taken => exact .shared taken
    · next taken => exact .exclusive taken
    · next taken => exact .alone taken

/-- A method can be forwarded unless it consumes what it is called on. -/
theorem exists_delegate_iff {contract : QualifiedName} {field : Field} {m : Method} :
    (∃ d, delegate contract field m = .ok d) ↔ m.receiver ≠ .value := by
  unfold delegate forwarded?
  cases m.receiver <;> simp

theorem forall₂_of_mapM {ε α β : Type} {step : α → Except ε β} {items : List α} {results : List β}
    (h : items.mapM step = .ok results) :
    List.Forall₂ (fun item result => step item = .ok result) items results := by
  induction items generalizing results with
  | nil =>
    cases h
    exact .nil
  | cons first rest ih =>
    rw [List.mapM_cons, bind_eq_ok] at h
    obtain ⟨result, made, h⟩ := h
    obtain ⟨others, madeOthers, same⟩ := bind_eq_ok.mp h
    cases same
    exact .cons made (ih madeOthers)

/-- What holds of the members of each group holds of all of them together. -/
theorem exists_of_mem_flatten {α β : Type} {R : α → β → Prop} {owners : List α}
    {groups : List (List β)} (h : List.Forall₂ (fun owner group => ∀ x ∈ group, R owner x) owners
      groups) {x : β} (member : x ∈ groups.flatten) : ∃ owner ∈ owners, R owner x := by
  induction h with
  | nil => cases member
  | cons first _ ih =>
    rw [List.flatten_cons] at member
    rcases List.mem_append.mp member with inFirst | later
    · exact ⟨_, List.mem_cons_self, first x inFirst⟩
    · exact List.exists_mem_cons_of_exists (ih later)

theorem Forwards.calls {field : Field} {impl : ContractImpl} {i : Interface}
    (h : Forwards t field impl i) : List.Forall₂ (Calls field) i.methods impl.methods :=
  (forall₂_of_mapM h.methods).imp fun _ _ => delegate_calls

/-- `impl` forwards a contract that is reached from `start` to the field. -/
def ForwardsFrom (t : Table) (field : Field) (start : QualifiedName) (impl : ContractImpl) : Prop :=
  (∃ i, Forwards t field impl i) ∧ ReflTransGen t.EmbedsCapability start impl.contract

section Walk

variable {field : Field} {names : List QualifiedName} {p p' : Progress}

/-- A contract is implemented, and then what is reached from its embeds. -/
theorem ForwardsFrom.emit {impl : ContractImpl} {i : Interface} (forwards : Forwards t field impl i)
    {group : List ContractImpl} (below : ∀ other ∈ group, ∃ d ∈ i.declaredEmbeds,
      (t.interface? d).isSome ∧ ForwardsFrom t field d other) :
    ∀ other ∈ impl :: group, ForwardsFrom t field impl.contract other := by
  refine List.forall_mem_cons.mpr ⟨⟨⟨i, forwards⟩, .refl⟩, fun other member => ?_⟩
  obtain ⟨d, embedded, isInterface, forwarded, path⟩ := below other member
  have step : t.EmbedsCapability impl.contract d :=
    ⟨i, forwards.declared, Table.mem_declaredEmbeds.mp embedded, isInterface⟩
  exact ⟨forwarded, .head step path⟩

/-- What a walk adds is forwarded from the names it starts at. -/
theorem Emits.group (h : Emits t field names p p') :
    ∃ group, p'.impls = p.impls ++ group ∧ ∀ impl ∈ group, ∃ start ∈ names,
      (t.interface? start).isSome ∧ ForwardsFrom t field start impl := by
  induction h with
  | done => exact ⟨[], by simp, by simp⟩
  | pass _ _ ih =>
    obtain ⟨group, added, reached⟩ := ih
    exact ⟨group, added, fun impl member => List.exists_mem_cons_of_exists (reached impl member)⟩
  | @emit first i rest p middle p' _ forwards _ _ ihInner ihOthers =>
    obtain ⟨inner, addedInner, reachedInner⟩ := ihInner
    obtain ⟨others, addedOthers, reachedOthers⟩ := ihOthers
    refine ⟨first :: inner ++ others, by simp [addedOthers, addedInner, Progress.emit,
      Progress.meet], List.forall_mem_append.mpr ⟨fun impl member => ?_, fun impl member => ?_⟩⟩
    · exact ⟨first.contract, List.mem_cons_self, by simp [forwards.declared],
        ForwardsFrom.emit forwards reachedInner impl member⟩
    · exact List.exists_mem_cons_of_exists (reachedOthers impl member)

theorem EmitsFrom.group {name : QualifiedName} (h : EmitsFrom t field name p p') :
    ∃ group, p'.impls = p.impls ++ group ∧ ∀ impl ∈ group, ForwardsFrom t field name impl := by
  obtain ⟨first, i, rfl, forwards, walk⟩ := h
  obtain ⟨group, added, reached⟩ := walk.group
  exact ⟨first :: group, by simp [added, Progress.emit], ForwardsFrom.emit forwards reached⟩

/-- Each field adds what is forwarded from its capability. -/
theorem implementAll_groups {fields : List Field} (h : implementAll t fields p = .ok p') :
    ∃ groups : List (List ContractImpl), p'.impls = p.impls ++ groups.flatten ∧
      List.Forall₂ (fun field group => ∀ impl ∈ group, ForwardsFrom t field field.capability impl)
        fields groups := by
  induction fields generalizing p with
  | nil =>
    cases h
    exact ⟨[], by simp, .nil⟩
  | cons field rest ih =>
    rw [implementAll, bind_eq_ok] at h
    obtain ⟨middle, implemented, after⟩ := h
    have bound : t.unmet p.handled < t.symbolCount + 1 :=
      Nat.lt_succ_of_le (t.unmet_nil ▸ Table.unmet_le (List.nil_subset _))
    obtain ⟨group, added, reached⟩ := (implement_emits field _ _ _ _ bound implemented).group
    obtain ⟨groups, addedAfter, reachedAfter⟩ := ih after
    exact ⟨group :: groups, by simp [addedAfter, added], .cons reached reachedAfter⟩

end Walk

variable {c : Conventions} {root : QualifiedName} {s : CompiledStack} {config : Config}
  {a : Aggregate}

/-- Everything that an aggregate forwards is a contract of the table. -/
theorem impls_forward (h : ofStack s t config = .ok a) :
    ∀ impl ∈ a.impls, ∃ field i, Forwards t field impl i := by
  obtain ⟨_, _, progress, implemented, impls⟩ := ofStack_eq_ok h
  obtain ⟨groups, added, forwarded⟩ := implementAll_groups implemented
  intro impl member
  rw [impls, added, List.nil_append] at member
  obtain ⟨field, _, ⟨i, forwards⟩, _⟩ := exists_of_mem_flatten forwarded member
  exact ⟨field, i, forwards⟩

/-- What implements `comp` has a method of the name of `m` that takes a shared borrow. -/
def HasTarget (t : Table) (comp : Component) (m : Method) : Prop :=
  ∃ candidate, t.concrete? comp.implementation = some candidate ∧
    ∃ f ∈ candidate.methods, f.receiver = .ref ∧ f.name = m.name

/-- A contract that the capability of `comp` reaches, each method of which is forwarded to `comp`,
where there is one of its name. -/
structure HandedTo (t : Table) (s : CompiledStack) (comp : Component) (impl : ContractImpl) :
    Prop where
  reached : ReflTransGen t.EmbedsCapability comp.capability impl.contract
  calls : ∃ i, t.interface? impl.contract = some i ∧ List.Forall₂
    (fun m d => Calls (fieldOf s.graph.components comp) m d ∧ HasTarget t comp m)
    i.methods impl.methods

end Aggregate

open Aggregate

variable {c : Conventions} {root : QualifiedName} {s : CompiledStack} {config : Config}
  {a : Aggregate}

/-- All that the capability of a component requires agrees wherever it has one name. -/
def Component.Unambiguous (t : Table) (comp : Component) : Prop :=
  ∀ contract, t.interface? comp.capability = some contract → Agreeing (t.Requires contract)

/-- Of each name that the capability of a component requires, the check has seen a method that takes
a shared borrow, and the implementation has one like it. -/
theorem CompiledFrom.required_checked (h : CompiledFrom t c root s) {comp : Component}
    (member : comp ∈ s.graph.components) {contract : Interface} {m : Method}
    (declared : t.interface? comp.capability = some contract) (required : t.Requires contract m) :
    HasTarget t comp m ∧
      ∃ first, t.Requires contract first ∧ first.name = m.name ∧ first.receiver = .ref := by
  obtain ⟨id, present⟩ := DependencyGraph.mem_components.mp member
  obtain ⟨checked, candidate, same, provided, satisfied, _, _, _, implementation⟩ :=
    Table.resolve_eq_ok.mp (h.settled.settled id comp present).resolved
  cases declared.symm.trans same
  obtain ⟨first, collected, sameName⟩ := exists_requiredMethod_of_requires required
  obtain ⟨f, found, name, receiver, _⟩ := check_eq_satisfied.mp satisfied first collected
  obtain ⟨isMethod, borrows⟩ := List.mem_filter.mp (List.mem_of_find?_eq_some found)
  have borrows : f.receiver = .ref := by simpa using borrows
  have provided : t.concrete? comp.implementation = some candidate := by
    rw [← provided]
    exact congrArg _ implementation
  exact ⟨⟨candidate, provided, f, isMethod, borrows, name.trans sameName⟩, first,
    requires_of_mem_requiredMethods collected, sameName, receiver.symm.trans borrows⟩

theorem CompiledFrom.handedTo (h : CompiledFrom t c root s) {comp : Component}
    (member : comp ∈ s.graph.components) {impl : ContractImpl}
    (forwards : ForwardsFrom t (fieldOf s.graph.components comp) comp.capability impl) :
    HandedTo t s comp impl := by
  obtain ⟨contract, declared⟩ :=
    Option.isSome_iff_exists.mp (h.names_contract (.capability member))
  obtain ⟨⟨i, forwards⟩, path⟩ := forwards
  refine ⟨path, i, forwards.declared, ?_⟩
  have targets : ∀ m ∈ i.methods, HasTarget t comp m := fun m own =>
    (h.required_checked member declared
      ((Table.requires_iff_reached declared).mpr ⟨_, i, path, forwards.declared, own⟩)).1
  have both := (List.forall₂_and_left _ _).mpr ⟨targets, forwards.calls⟩
  exact both.imp fun _ _ => And.symm

/-- Each component is handed contracts that its capability reaches, this one included. Each method
of these is forwarded by a call of the method of its name, and there is one that takes a shared
borrow. The call passes on the parameters in their order, behind the field unless the method of the
contract is called on nothing. Where required methods of one name agree, the field is always there,
in a shared borrow. -/
theorem forwarded_calls_have_targets {scope name : String}
    (compiled : t.compile c scope name = .ok s)
    (rendered : Aggregate.ofStack s t config = .ok a) :
    (∃ groups : List (List ContractImpl), a.impls = groups.flatten ∧
      List.Forall₂ (fun comp group => ∀ impl ∈ group, HandedTo t s comp impl)
        s.graph.components groups) ∧
    ∀ comp ∈ s.graph.components, comp.Unambiguous t → ∀ d j,
      ReflTransGen t.EmbedsCapability comp.capability d → t.interface? d = some j →
        ∀ m ∈ j.methods, ∀ arguments, CallArguments (fieldOf s.graph.components comp) m arguments ↔
          arguments = ("&self." ++ fieldName s.graph.components comp) :: m.argNames := by
  obtain ⟨package, _, result⟩ := Table.compile_ok compiled
  constructor
  · obtain ⟨_, _, progress, implemented, impls⟩ := ofStack_eq_ok rendered
    obtain ⟨groups, added, forwarded⟩ := implementAll_groups implemented
    refine ⟨groups, by rw [impls, added, List.nil_append], ?_⟩
    rw [fields_eq result rendered, List.forall₂_map_left_iff] at forwarded
    have both := (List.forall₂_and_left _ _).mpr ⟨fun comp member => member, forwarded⟩
    exact both.imp fun comp group ⟨member, forwards⟩ impl inGroup =>
      result.handedTo member (forwards impl inGroup)
  · intro comp member unambiguous d j path found m own arguments
    obtain ⟨contract, declared⟩ :=
      Option.isSome_iff_exists.mp (result.names_contract (.capability member))
    have required := (Table.requires_iff_reached declared).mpr ⟨d, j, path, found, own⟩
    obtain ⟨_, first, requiredFirst, sameName, borrows⟩ :=
      result.required_checked member declared required
    have same := unambiguous contract declared first m requiredFirst required sameName
    have taken : m.receiver = .ref := same.2.1.symm.trans borrows
    constructor
    · rintro (_ | other | other)
      · rfl
      · cases taken.symm.trans other
      · cases taken.symm.trans other
    · rintro rfl
      exact .shared taken

/-- Each contract that an aggregate forwards by its name, with the calls that are made. -/
def Aggregate.calledFor (a : Aggregate) : List (String × List String) :=
  a.impls.map fun impl => (impl.contract.name, impl.methods.map Delegate.call)

theorem login_calls_have_targets :
    ∃ a, login.compile {} "self" "Root" = .ok (.ofRange loginGraph) ∧
      Aggregate.ofStack (.ofRange loginGraph) login {} = .ok a ∧
      a.calledFor = [("Session", ["SessionMiddleware::user(&self.session_middleware)"]),
        ("Token", ["SessionMiddleware::token(&self.session_middleware)"]), ("A", [])] ∧
      ∃ groups : List (List ContractImpl), a.impls = groups.flatten ∧
        List.Forall₂
          (fun comp group => ∀ impl ∈ group, HandedTo login (.ofRange loginGraph) comp impl)
          loginGraph.components groups := by
  have compiled : login.compile {} "self" "Root" = .ok (.ofRange loginGraph) := by decide +kernel
  have evaluated : (Aggregate.ofStack (.ofRange loginGraph) login {}).toOption.map
      Aggregate.calledFor =
        some [("Session", ["SessionMiddleware::user(&self.session_middleware)"]),
          ("Token", ["SessionMiddleware::token(&self.session_middleware)"]), ("A", [])] := by
    decide +kernel
  obtain ⟨a, rendered, calls⟩ := exists_ok_of_read evaluated
  exact ⟨a, compiled, rendered, calls, (forwarded_calls_have_targets compiled rendered).1⟩

/-- A capability that embeds a contract with a method of the name of its own, but taken in another
way. -/
def namesakes (taken : Receiver) : Table :=
  ((Table.empty.addStack "Root" ["Auth"]).addProvider "Auth" ["Named"] [getter "token" "String"] [])
    |>.addContract "Named" [] [{ getter "token" "String" with receiver := taken }]

/-- The embedded method is called on nothing, and its call names no field. -/
theorem call_without_field :
    ∃ s a, (namesakes .absent).compile {} "self" "Root" = .ok s ∧
      Aggregate.ofStack s (namesakes .absent) {} = .ok a ∧
      a.fields.map Field.name = ["auth_middleware"] ∧
      a.calledFor = [("Auth", ["AuthMiddleware::token(&self.auth_middleware)"]),
        ("Named", ["AuthMiddleware::token()"])] := by
  have evaluated : ((namesakes .absent).compile {} "self" "Root").toOption.map (fun s =>
      (Aggregate.ofStack s (namesakes .absent) {}).toOption.map fun a =>
        (a.fields.map Field.name, a.calledFor)) =
      some (some (["auth_middleware"],
        [("Auth", ["AuthMiddleware::token(&self.auth_middleware)"]),
          ("Named", ["AuthMiddleware::token()"])])) := by
    decide +kernel
  obtain ⟨s, compiled, read⟩ := exists_ok_of_read evaluated
  obtain ⟨a, rendered, shown⟩ := exists_ok_of_read read
  exact ⟨s, a, compiled, rendered, Prod.mk.inj shown⟩

end MiddlewareStack
