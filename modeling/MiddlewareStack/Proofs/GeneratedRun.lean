import MiddlewareStack.Aggregate.Run
import MiddlewareStack.Proofs.ContractImpls
import MiddlewareStack.Proofs.ExecutionSafety

/-!
# The generated method and the executor

A compiled stack runs in two ways: an executor interprets its pipeline, and its aggregate has a
method for it. Both make the same calls on the same instances and return the same, as long as the
fields of the aggregate have names of their own and the steps have capabilities of their own.
-/

namespace MiddlewareStack

open Aggregate

variable {Instance Request : Type}

section Run

variable {m : Type → Type} {a : Aggregate} {v : Value Instance} {e : Executor Instance}

/-- A call on an aggregate that does what a step of an executor does: `perform` answers it as
`invoke` answers the step. -/
structure Performs (v : Value Instance) (e : Executor Instance)
    (perform : Behaviour m Instance Request)
    (invoke : Instance → Request → Option (Bundle Instance) → m Outcome) (step : Step)
    (call : Call) : Prop where
  rule : step.shortCircuit = {}
  bundle : call.passBundle = step.passBundle
  answered : ∃ x, v.get? call.field = some x ∧ e.components.find? step.capability = some x ∧
    perform call.implementation call.method x = invoke x

/-- The generated method looks at the response and then at the error; the executor looks up what its
rule says about them. Call by call this comes to the same. -/
theorem runCalls_eq_runSteps [Monad m] [LawfulMonad m]
    {perform : Behaviour m Instance Request}
    {invoke : Instance → Request → Option (Bundle Instance) → m Outcome} {steps : List Step}
    {calls : List Call} (request : Request) (bundle : a.bundle v = e.bundle)
    (aligned : List.Forall₂ (Performs v e perform invoke) steps calls) :
    a.runCalls v perform request calls = some <$> e.runSteps invoke request steps := by
  induction aligned with
  | nil => simp [runCalls, Executor.runSteps, bundle]
  | @cons step call steps calls performs _ ih =>
    obtain ⟨x, inField, wired, answered⟩ := performs.answered
    simp only [runCalls, Executor.runSteps, inField, wired, answered, performs.bundle, bundle,
      performs.rule, Outcome.terminalResponse?_default, map_bind]
    -- the same call on both sides, so that only what is done with its answer can differ
    congr 1
    funext outcome
    obtain ⟨early, error⟩ := outcome
    cases early with
    | some response => simp [Outcome.response?]
    | none =>
      cases error with
      | some text => simp [Outcome.response?]
      | none => simpa [Outcome.response?] using ih

end Run

section Compiled

variable {t table : Table} {c : Conventions} {root : QualifiedName} {s : CompiledStack}
  {config : Config} {a : Aggregate} {v : Value Instance} {e : Executor Instance}
  {typeOf : Instance → QualifiedName} {instances : List Instance}
  {supplied : List (String × Instance)}

theorem Aggregate.calls_of_ofStack (h : ofStack s table config = .ok a) :
    a.calls = List.zipWith (callOf s.graph.components) s.pipeline.steps s.orderedComponents := by
  simp only [ofStack, bind_eq_ok] at h
  obtain ⟨_, _, _, _, h⟩ := h
  cases h
  rfl

/-- The calls of an aggregate go with the steps of its stack, position by position. -/
theorem CompiledFrom.steps_calls (h : CompiledFrom t c root s)
    (rendered : ofStack s table config = .ok a) {R : Step → Call → Prop}
    (each : ∀ i comp, s.graph.get? i = some comp →
      R (.ofComponent i comp) (callOf s.graph.components (.ofComponent i comp) comp)) :
    List.Forall₂ R s.pipeline.steps a.calls := by
  rw [calls_of_ofStack rendered, h.orderedComponents_eq, h.steps_eq, List.forall₂_iff_get]
  refine ⟨by simp, fun i inSteps _ => ?_⟩
  rw [List.length_mapIdx] at inSteps
  simpa using each i _ (List.getElem?_eq_getElem inSteps)

/-- An aggregate and an executor that hold the same instance for each component of a stack. -/
structure HoldSame (s : CompiledStack) (a : Aggregate) (v : Value Instance) (e : Executor Instance)
    (typeOf : Instance → QualifiedName) : Prop where
  fields : a.fields = s.graph.components.map (fieldOf s.graph.components)
  held : ∀ comp ∈ s.graph.components, ∃ x,
    v.get? (fieldName s.graph.components comp) = some x ∧
      e.components.find? comp.key = some x ∧ typeOf x = comp.implementation
  only : ∀ capability, (e.components.find? capability).isSome →
    ∃ comp ∈ s.graph.components, comp.key = capability

/-- Of two aligned lists, everything in the first has its partner in the second. -/
theorem exists_paired {α β : Type} {R : α → β → Prop} {as : List α} {bs : List β}
    (h : List.Forall₂ R as bs) {a : α} (member : a ∈ as) :
    ∃ b, R a b ∧ ∀ f : α → String, (f a, b) ∈ (as.map f).zip bs := by
  induction h with
  | nil => cases member
  | cons related _ ih =>
    rcases List.mem_cons.mp member with rfl | later
    · exact ⟨_, related, fun _ => List.mem_cons_self⟩
    · obtain ⟨b, related', paired⟩ := ih later
      exact ⟨b, related', fun f => List.mem_cons_of_mem _ (paired f)⟩

/-- What the fields of an aggregate are put together from is what the executor is wired with. -/
theorem CompiledFrom.holdSame (h : CompiledFrom t c root s)
    (rendered : ofStack s table config = .ok a) (names : (a.fields.map Field.name).Nodup)
    (typed : List.Forall₂ (fun field x => typeOf x = field.implementation) a.fields instances)
    (same : supplied.Perm ((a.fields.map fun field => field.capability.text).zip instances))
    (wired : e.Wired s.pipeline supplied) : HoldSame s a (a.construct instances) e typeOf := by
  have fields := fields_eq h rendered
  have inFields : ((a.construct instances).fields.map Prod.fst).Nodup := by
    rw [construct, List.map_fst_zip (by simp [typed.length_eq])]
    exact names
  refine ⟨fields, fun comp member => ?_, fun capability present => ?_⟩
  · have isField : fieldOf s.graph.components comp ∈ a.fields :=
      fields ▸ List.mem_map_of_mem member
    obtain ⟨x, isTyped, paired⟩ := exists_paired typed isField
    refine ⟨x, ?_, ?_, isTyped⟩
    · rw [Value.get?, KeyedMap.lookup_eq_some_iff_mem inFields]
      exact paired Field.name
    · rw [wired.supplied, same.mem_iff]
      exact paired fun field => field.capability.text
  · rw [wired.exactly, h.invocationOrder_eq, List.mem_map] at present
    exact present

theorem HoldSame.bundle_eq (h : HoldSame s a v e typeOf) : a.bundle v = e.bundle := by
  refine congrArg Bundle.mk (KeyedMap.ofList_eq fun key value => ?_)
  rw [List.mem_filterMap, h.fields]
  constructor
  · rintro ⟨_, isField, inField⟩
    obtain ⟨comp, member, rfl⟩ := List.mem_map.mp isField
    obtain ⟨x, found, wired, _⟩ := h.held comp member
    rw [fieldOf, found, Option.map_some, Option.some.injEq, Prod.mk.injEq] at inField
    obtain ⟨rfl, rfl⟩ := inField
    exact wired
  · intro wired
    obtain ⟨comp, member, rfl⟩ := h.only key (by simp [wired])
    obtain ⟨x, found, wired', _⟩ := h.held comp member
    cases wired.symm.trans wired'
    exact ⟨_, List.mem_map_of_mem member, by simp [fieldOf, found, Component.key]⟩

/-- The generated call of a step, on an aggregate and an executor that hold the same instances. -/
structure Serves (s : CompiledStack) (a : Aggregate) (v : Value Instance) (e : Executor Instance)
    (step : Step) (call : Call) : Prop where
  position : call.position = step.position
  capability : call.capability = step.capability
  implementation : call.implementation = step.implementation
  bundle : call.passBundle = step.passBundle
  /-- The call is made on the field of the component of the step. -/
  own : ∃ comp field, s.graph.get? step.component = some comp ∧ field ∈ a.fields ∧
    field.capability = comp.capability ∧ field.implementation = comp.implementation ∧
    call.implementation = comp.implementation ∧ call.method = comp.invocation.name ∧
    call.field = field.name
  /-- The field holds the instance that the executor has for the step. -/
  held : ∃ x, v.get? call.field = some x ∧ e.components.find? step.capability = some x

/-- Every component is called by the method that the conventions name. -/
theorem CompiledFrom.invocation_name (h : CompiledFrom t c root s) {i : ComponentId}
    {comp : Component} (present : s.graph.get? i = some comp) :
    comp.invocation.name = c.invocationMethod := by
  obtain ⟨_, _, _, _, _, found, _⟩ :=
    Table.resolve_eq_ok.mp (h.settled.settled i comp present).resolved
  have named := List.find?_some found
  exact of_decide_eq_true named

theorem HoldSame.serves (h : HoldSame s a v e typeOf) (compiled : CompiledFrom t c root s)
    (rendered : ofStack s table config = .ok a) :
    List.Forall₂ (Serves s a v e) s.pipeline.steps a.calls := by
  refine compiled.steps_calls rendered fun i comp present => ?_
  have member : comp ∈ s.graph.components := DependencyGraph.mem_components.mpr ⟨i, present⟩
  have isField : fieldOf s.graph.components comp ∈ a.fields :=
    h.fields ▸ List.mem_map_of_mem member
  have atId : s.graph.get? comp.id = some comp := (compiled.numbered i comp present).symm ▸ present
  obtain ⟨x, inField, wired, _⟩ := h.held comp member
  exact ⟨rfl, rfl, rfl, rfl, ⟨comp, _, atId, isField, rfl, rfl, rfl, rfl, rfl⟩, x, inField, wired⟩

theorem HoldSame.run_eq {m : Type → Type} [Monad m] [LawfulMonad m]
    (h : HoldSame s a v e typeOf) (compiled : CompiledFrom t c root s)
    (rendered : ofStack s table config = .ok a) (pipeline : e.pipeline = s.pipeline)
    (perform : Behaviour m Instance Request) (request : Request) :
    a.run v perform request =
      some <$> e.run (fun x => perform (typeOf x) c.invocationMethod x) request := by
  unfold Aggregate.run Executor.run
  rw [pipeline]
  refine runCalls_eq_runSteps request h.bundle_eq (compiled.steps_calls rendered ?_)
  intro i comp present
  obtain ⟨x, inField, wired, typed⟩ := h.held comp (DependencyGraph.mem_components.mpr ⟨i, present⟩)
  refine ⟨rfl, rfl, x, inField, wired, ?_⟩
  rw [typed, ← compiled.invocation_name present]
  rfl

/-- An aggregate whose fields have different names, put together from one instance for each field,
runs as the executor does that has these instances for the capabilities of the fields: call by call
on the instance of the step, in any world, and with the same result. -/
theorem generated_run_agrees {scope name : String} (compiled : t.compile c scope name = .ok s)
    (rendered : ofStack s table config = .ok a) (names : (a.fields.map Field.name).Nodup)
    (capabilities : s.pipeline.invocationOrder.Nodup)
    (typed : List.Forall₂ (fun field x => typeOf x = field.implementation) a.fields instances)
    (same : supplied.Perm ((a.fields.map fun field => field.capability.text).zip instances)) :
    ∃ e, Executor.create s.pipeline supplied = .ok e ∧
      List.Forall₂ (Serves s a (a.construct instances) e) s.pipeline.steps a.calls ∧
      ∀ (m : Type → Type) [Monad m] [LawfulMonad m]
        (perform : Behaviour m Instance Request) (request : Request),
        a.run (a.construct instances) perform request =
          some <$> e.run (fun x => perform (typeOf x) c.invocationMethod x) request := by
  obtain ⟨package, _, result⟩ := Table.compile_ok compiled
  have order : (a.fields.map fun field => field.capability.text) = s.pipeline.invocationOrder := by
    rw [result.invocationOrder_eq, fields_eq result rendered, List.map_map]
    rfl
  have each : (supplied.map Prod.fst).Perm s.pipeline.invocationOrder := by
    have keys := same.map Prod.fst
    rwa [List.map_fst_zip (by simp [typed.length_eq]), order] at keys
  obtain ⟨e, created⟩ := Executor.create_ok capabilities each
  have wired := Executor.create_wired created
  have holds := result.holdSame rendered names typed same wired
  exact ⟨e, created, holds.serves result rendered,
    fun m _ _ perform request => holds.run_eq result rendered wired.pipeline perform request⟩

def diamondFields : List Field :=
  [("Shared", "shared_middleware"), ("A", "a_middleware"), ("B", "b_middleware")].map
    fun (capability, name) =>
      { name, capability := { package := "self", name := capability }
        implementation := { package := "self", name := capability ++ "Middleware" } }

/-- An instance for each field, with its type and its answer. -/
def typedInstances : List (QualifiedName × Outcome) :=
  (diamondFields.map Field.implementation).zip [.proceed, .fail "denied", .proceed]

/-- Answer as the instance does, and write down what was asked for. -/
def logged (implementation : QualifiedName) (method : String) (x : QualifiedName × Outcome)
    (_request : Unit) (bundle : Option (Bundle (QualifiedName × Outcome))) :
    StateM (List (String × String × Bool)) Outcome := fun calls =>
  (x.2, calls ++ [(implementation.name, method, bundle.isSome)])

theorem diamond_generated_run_agrees :
    diamond.compile {} "self" "Root" = .ok diamondStack ∧
    ∃ a e, Aggregate.ofStack diamondStack diamond {} = .ok a ∧ a.fields = diamondFields ∧
      Executor.create diamondStack.pipeline
        ((diamondFields.map fun field => field.capability.text).zip typedInstances).reverse =
          .ok e ∧
      a.run (a.construct typedInstances) logged () =
        some <$> e.run (fun x => logged x.1 "run" x) () ∧
      (a.run (a.construct typedInstances) logged () []).2 =
        [("SharedMiddleware", "run", false), ("AMiddleware", "run", true)] := by
  have compiled : diamond.compile {} "self" "Root" = .ok diamondStack := by decide +kernel
  have evaluated : (Aggregate.ofStack diamondStack diamond {}).toOption.map
      (fun a => (a.fields, (a.run (a.construct typedInstances) logged () []).2)) =
      some (diamondFields, [("SharedMiddleware", "run", false), ("AMiddleware", "run", true)]) := by
    decide +kernel
  obtain ⟨a, rendered, read⟩ := exists_ok_of_read evaluated
  obtain ⟨fields, calls⟩ := Prod.mk.inj read
  have names : (a.fields.map Field.name).Nodup := fields ▸ by decide
  have typed : List.Forall₂ (fun (field : Field) (x : QualifiedName × Outcome) =>
      x.1 = field.implementation) a.fields typedInstances := fields ▸ by decide
  have capabilities : diamondStack.pipeline.invocationOrder.Nodup := by decide +kernel
  obtain ⟨e, created, _, agrees⟩ :=
    generated_run_agrees compiled rendered names capabilities typed (List.reverse_perm _)
  exact ⟨compiled, a, e, rendered, fields, fields ▸ created, agrees _ logged (), calls⟩

end Compiled

end MiddlewareStack
