import Mathlib.Data.List.Nodup
import MiddlewareStack.Proofs.DiscoveryOrder
import MiddlewareStack.Proofs.RecordedRun
import MiddlewareStack.Proofs.Wiring

/-!
# Safety of a whole run

Whatever its components do, a run over a compiled pipeline calls the components of the first steps
in order, stops after the first that reports something, and calls none before its dependencies.
-/

namespace MiddlewareStack

open DependencyGraph

variable {Instance Request : Type}

namespace Outcome

/-- An early response or an error is there. -/
def Stops (o : Outcome) : Prop :=
  o.earlyResponse.isSome ∨ o.error.isSome

/-- The early response, else the error as a response. -/
def response? (o : Outcome) : Option Response :=
  o.earlyResponse.or (o.error.map .error)

theorem response?_isSome (o : Outcome) : o.response?.isSome ↔ o.Stops := by
  simp [response?, Stops, Option.isSome_or]

/-- The rule that every compiled step has. -/
theorem terminalResponse?_default (o : Outcome) :
    o.terminalResponse? (({} : ShortCircuit).evaluate o) = o.response? := by
  obtain ⟨early, error⟩ := o
  cases early <;> cases error <;> rfl

end Outcome

namespace Executor

variable {e : Executor Instance} {request : Request} {steps : List Step}
  {calls : List (RecordedCall Instance Request)} {result : Except Response (Bundle Instance)}

/-- A call that a step makes. -/
structure CallOf (e : Executor Instance) (request : Request) (step : Step)
    (call : RecordedCall Instance Request) : Prop where
  component : e.components.find? step.capability = some call.component
  request : call.request = request
  bundle : call.bundle = e.handed step

/-- The calls are those of the first steps, one for each. -/
theorem Runs.ordered (h : Runs e request steps calls result) :
    List.Forall₂ (CallOf e request) (steps.take calls.length) calls := by
  induction h with
  | done => exact .nil
  | unwired => exact .nil
  | stop wired _ => exact .cons ⟨wired, rfl, rfl⟩ .nil
  | next wired _ _ ih => exact .cons ⟨wired, rfl, rfl⟩ ih

theorem Runs.callOf (h : Runs e request steps calls result) {i : Nat} {step : Step}
    {call : RecordedCall Instance Request} (present : steps[i]? = some step)
    (called : calls[i]? = some call) : CallOf e request step call := by
  obtain ⟨inSteps, rfl⟩ := List.getElem?_eq_some_iff.mp present
  obtain ⟨inCalls, rfl⟩ := List.getElem?_eq_some_iff.mp called
  have inFirst : i < (steps.take calls.length).length := by
    rw [h.ordered.length_eq]
    exact inCalls
  simpa using h.ordered.get inFirst inCalls

/-- How a run ends: after all steps, none of which stopped, or after the first that stopped. -/
inductive Ends (e : Executor Instance) (steps : List Step) :
    List (RecordedCall Instance Request) → Except Response (Bundle Instance) → Prop
  | finished {calls : List (RecordedCall Instance Request)} (all : calls.length = steps.length)
      (going : ∀ call ∈ calls, ¬call.outcome.Stops) : Ends e steps calls (.ok e.bundle)
  | stopped {before : List (RecordedCall Instance Request)} {last : RecordedCall Instance Request}
      {response : Response} (going : ∀ call ∈ before, ¬call.outcome.Stops)
      (stops : last.outcome.response? = some response) :
      Ends e steps (before ++ [last]) (.error response)

/-- A call that goes on before a run that ends in one of these ways. -/
theorem Ends.cons {first : RecordedCall Instance Request} {step : Step}
    (goes : ¬first.outcome.Stops) (h : Ends e steps calls result) :
    Ends e (step :: steps) (first :: calls) result := by
  cases h with
  | finished all going =>
    exact .finished (by simp [all]) (List.forall_mem_cons.mpr ⟨goes, going⟩)
  | stopped going stops =>
    rw [← List.cons_append]
    exact .stopped (List.forall_mem_cons.mpr ⟨goes, going⟩) stops

theorem Runs.ends (h : Runs e request steps calls result)
    (wired : ∀ step ∈ steps, (e.components.find? step.capability).isSome)
    (plain : ∀ step ∈ steps, step.shortCircuit = {}) : Ends e steps calls result := by
  induction h with
  | done => exact .finished rfl (by simp)
  | unwired missing => simpa [missing] using wired _ List.mem_cons_self
  | stop _ stops =>
    rw [plain _ List.mem_cons_self, Outcome.terminalResponse?_default] at stops
    rw [← List.nil_append [_]]
    exact .stopped (by simp) stops
  | @next _ _ _ outcome _ _ _ goes _ ih =>
    rw [plain _ List.mem_cons_self, Outcome.terminalResponse?_default] at goes
    have first : ¬outcome.Stops := by
      rw [← outcome.response?_isSome, goes]
      simp
    exact .cons first (ih (fun step member => wired step (List.mem_cons_of_mem _ member))
      (fun step member => plain step (List.mem_cons_of_mem _ member)))

namespace Ends

theorem going (h : Ends e steps calls result) : ∀ call ∈ calls.dropLast, ¬call.outcome.Stops := by
  cases h with
  | finished _ going => exact fun call member => going call (List.dropLast_subset _ member)
  | stopped going _ => rwa [List.dropLast_concat]

theorem complete (h : Ends e steps calls result) (all : ∀ call ∈ calls, ¬call.outcome.Stops) :
    calls.length = steps.length := by
  cases h with
  | finished length _ => exact length
  | @stopped _ last _ _ stops =>
    exact absurd (last.outcome.response?_isSome.mp (by simp [stops])) (all last (by simp))

/-- What stops a run is its result. -/
theorem error (h : Ends e steps calls result) {call : RecordedCall Instance Request}
    (member : call ∈ calls) {response : Response}
    (stops : call.outcome.response? = some response) :
    result = .error response := by
  have isStop : call.outcome.Stops := call.outcome.response?_isSome.mp (by simp [stops])
  cases h with
  | finished _ going => exact absurd isStop (going call member)
  | stopped going stops' =>
    rcases List.mem_append.mp member with member | member
    · exact absurd isStop (going call member)
    · rw [List.mem_singleton.mp member, stops'] at stops
      rw [Option.some.inj stops]

theorem finished_iff (h : Ends e steps calls result) :
    result = .ok e.bundle ↔ ∀ call ∈ calls, ¬call.outcome.Stops := by
  cases h with
  | finished _ going => exact iff_of_true rfl going
  | @stopped _ last _ _ stops =>
    refine iff_of_false (by simp) fun all => all last (by simp) ?_
    exact last.outcome.response?_isSome.mp (by simp [stops])

end Ends

end Executor

/-- A run that calls components in order, none before its dependencies, and stops in time. -/
structure SafeRun (s : CompiledStack) (e : Executor Instance)
    (supplied : List (String × Instance)) (request : Request)
    (calls : List (RecordedCall Instance Request)) (result : Except Response (Bundle Instance)) :
    Prop where
  /-- The calls are those of the first steps, each of the instance supplied for its step. -/
  ordered : List.Forall₂
    (fun step call => (step.capability, call.component) ∈ supplied ∧ call.request = request)
    (s.pipeline.steps.take calls.length) calls
  once : ((s.pipeline.steps.take calls.length).map Step.capability).Nodup
  /-- Where no instance is supplied twice, none is called twice. -/
  distinct : (supplied.map Prod.snd).Nodup → (calls.map RecordedCall.component).Nodup
  /-- Only the last call may stop the run. -/
  going : ∀ call ∈ calls.dropLast, ¬call.outcome.Stops
  complete : (∀ call ∈ calls, ¬call.outcome.Stops) → calls.length = s.pipeline.steps.length
  /-- All that a called component depends on was called before it and did not stop the run. -/
  dependencies : ∀ (i : Nat) (step : Step) (call : RecordedCall Instance Request),
    s.pipeline.steps[i]? = some step → calls[i]? = some call →
    ∀ d, Relation.TransGen (fun a b => b ∈ s.graph.adjacent a) step.component d →
      ∃ j < i, ∃ (earlier : Step) (answer : RecordedCall Instance Request),
        s.pipeline.steps[j]? = some earlier ∧ earlier.component = d ∧
          calls[j]? = some answer ∧ ¬answer.outcome.Stops
  /-- A component is handed the bundle if its invocation takes two parameters. -/
  handed : ∀ (i : Nat) (step : Step) (call : RecordedCall Instance Request),
    s.pipeline.steps[i]? = some step → calls[i]? = some call →
    ∃ comp, s.graph.get? step.component = some comp ∧ step.capability = comp.key ∧
      call.bundle = if comp.invocation.params.length = 2 then some e.bundle else none
  early : ∀ call ∈ calls, ∀ response, call.outcome.earlyResponse = some response →
    result = .error response
  wrapped : ∀ call ∈ calls, ∀ text, call.outcome.earlyResponse = none →
    call.outcome.error = some text → result = .error (.error text)
  finished : result = .ok e.bundle ↔ ∀ call ∈ calls, ¬call.outcome.Stops
  /-- The bundle gives out what was supplied, for the capabilities of the pipeline. -/
  exposed : ∀ capability,
    (capability ∈ e.bundle.capabilities ↔ capability ∈ s.pipeline.invocationOrder) ∧
      ∀ component, e.bundle.get? capability = some component ↔ (capability, component) ∈ supplied

section Compiled

variable {t : Table} {c : Conventions} {root : QualifiedName} {s : CompiledStack}
  {e : Executor Instance} {supplied : List (String × Instance)} {request : Request}
  {calls : List (RecordedCall Instance Request)} {result : Except Response (Bundle Instance)}

/-- Under different capabilities there are different instances, and the other way round. -/
theorem Executor.Wired.biUnique {p : Pipeline} (wired : e.Wired p supplied)
    (distinct : (supplied.map Prod.snd).Nodup) :
    Relator.BiUnique fun capability component => (capability, component) ∈ supplied := by
  constructor
  · intro a component b first second
    have same := List.inj_on_of_nodup_map distinct first second rfl
    exact congrArg Prod.fst same
  · intro capability a b first second
    rw [← wired.supplied] at first second
    exact Option.some.inj (first.symm.trans second)

/-- The steps before the end of a run were called and did not stop it. -/
theorem Executor.Ends.earlier {steps : List Step} (h : Executor.Ends e steps calls result)
    {i j : Nat} (before : j < i) (bound : i < calls.length) :
    ∃ answer, calls[j]? = some answer ∧ ¬answer.outcome.Stops := by
  have inside : j < calls.dropLast.length := by
    rw [List.length_dropLast]
    omega
  refine ⟨calls.dropLast[j], ?_, h.going _ (List.getElem_mem inside)⟩
  rw [List.getElem_dropLast, List.getElem?_eq_getElem]

theorem Executor.Ends.dependencies (h : Executor.Ends e s.pipeline.steps calls result)
    (compiled : CompiledFrom t c root s) {i : Nat} {step : Step}
    {call : RecordedCall Instance Request} (present : s.pipeline.steps[i]? = some step)
    (isCalled : calls[i]? = some call) {d : ComponentId}
    (path : Relation.TransGen (fun a b => b ∈ s.graph.adjacent a) step.component d) :
    ∃ j < i, ∃ (earlier : Step) (answer : RecordedCall Instance Request),
      s.pipeline.steps[j]? = some earlier ∧ earlier.component = d ∧
        calls[j]? = some answer ∧ ¬answer.outcome.Stops := by
  obtain ⟨comp, found, rfl⟩ := compiled.step_iff.mp present
  have less : d < i := by
    rw [← compiled.numbered i comp found]
    exact compiled.reachable_lt path
  have bound : d < s.graph.size := Nat.lt_trans less (List.getElem?_eq_some_iff.mp found).1
  obtain ⟨other, found'⟩ : ∃ other, s.graph.get? d = some other :=
    ⟨_, List.getElem?_eq_getElem bound⟩
  obtain ⟨answer, answered, goes⟩ := h.earlier less (List.getElem?_eq_some_iff.mp isCalled).1
  exact ⟨d, less, _, answer, compiled.step_iff.mpr ⟨other, found', rfl⟩,
    compiled.numbered d other found', answered, goes⟩

theorem Executor.CallOf.handed {step : Step} {call : RecordedCall Instance Request}
    (h : Executor.CallOf e request step call) (compiled : CompiledFrom t c root s) {i : Nat}
    (present : s.pipeline.steps[i]? = some step) :
    ∃ comp, s.graph.get? step.component = some comp ∧ step.capability = comp.key ∧
      call.bundle = if comp.invocation.params.length = 2 then some e.bundle else none := by
  obtain ⟨comp, found, rfl⟩ := compiled.step_iff.mp present
  have settled := compiled.settled.settled i comp found
  refine ⟨comp, ?_, rfl, ?_⟩
  · rw [← found, ← settled.id_eq]
    rfl
  · rw [h.bundle]
    exact if_congr settled.takesBundle rfl rfl

theorem Executor.Runs.safe (compiled : CompiledFrom t c root s) (wired : e.Wired s.pipeline supplied)
    (distinct : s.pipeline.invocationOrder.Nodup)
    (runs : Executor.Runs e request s.pipeline.steps calls result) :
    SafeRun s e supplied request calls result := by
  have ends : Executor.Ends e s.pipeline.steps calls result := by
    refine runs.ends (fun step member => ?_) fun step member => ?_
    · exact (wired.exactly _).mpr (List.mem_map_of_mem member)
    · obtain ⟨i, present⟩ := List.mem_iff_getElem?.mp member
      obtain ⟨comp, _, rfl⟩ := compiled.step_iff.mp present
      rfl
  have ordered := runs.ordered
  have called : List.Forall₂ (fun capability component => (capability, component) ∈ supplied)
      ((s.pipeline.steps.take calls.length).map Step.capability)
      (calls.map RecordedCall.component) := by
    rw [List.forall₂_map_left_iff, List.forall₂_map_right_iff]
    exact ordered.imp fun step call h => (wired.supplied _ _).mp h.component
  have once : ((s.pipeline.steps.take calls.length).map Step.capability).Nodup :=
    distinct.sublist ((List.take_sublist _ _).map _)
  refine ⟨?_, once, ?_, ends.going, ends.complete, ?_, ?_, ?_, ?_, ends.finished_iff, ?_⟩
  · exact ordered.imp fun step call h => ⟨(wired.supplied _ _).mp h.component, h.request⟩
  · exact fun unique => (List.rel_nodup (wired.biUnique unique) called).mp once
  · exact fun i step call present isCalled d path => ends.dependencies compiled present isCalled path
  · exact fun i step call present isCalled =>
      (runs.callOf present isCalled).handed compiled present
  · intro call member response early
    exact ends.error member (by simp [Outcome.response?, early])
  · intro call member text early error
    exact ends.error member (by simp [Outcome.response?, early, error])
  · exact fun capability =>
      ⟨KeyedMap.mem_keys_iff.trans (wired.exactly capability), wired.supplied capability⟩

end Compiled

/-- Whatever the components of a compiled pipeline do, the record of a run is that of a safe one. -/
theorem run_is_safe {t : Table} {c : Conventions} {scope name : String} {s : CompiledStack}
    {supplied : List (String × Instance)} {e : Executor Instance} {σ : Type}
    (compiled : t.compile c scope name = .ok s) (distinct : s.pipeline.invocationOrder.Nodup)
    (wired : Executor.create s.pipeline supplied = .ok e)
    (invoke : Instance → Request → Option (Bundle Instance) → StateM σ Outcome)
    (request : Request) (world : σ) :
    ∃ calls, e.run (Executor.recorded invoke) request (world, []) =
        ((e.run invoke request world).1, ((e.run invoke request world).2, calls)) ∧
      SafeRun s e supplied request calls (e.run invoke request world).1 := by
  obtain ⟨package, _, result⟩ := Table.compile_ok compiled
  have accepted := Executor.create_wired wired
  obtain ⟨calls, record, runs⟩ :=
    Executor.runSteps_recorded e invoke request e.pipeline.steps world []
  refine ⟨calls, record, ?_⟩
  rw [accepted.pipeline] at runs
  unfold Executor.run
  rw [accepted.pipeline]
  exact runs.safe result accepted distinct

/-- Instances that answer the same on every call, the second of them with an error. -/
def diamondInstances : List (String × Outcome) :=
  [("self::Shared", .proceed), ("self::A", .fail "denied"), ("self::B", .proceed)]

def diamondStack : CompiledStack := .ofRange diamondGraph

def diamondExecutor : Executor Outcome :=
  { pipeline := diamondStack.pipeline
    components := .ofList diamondInstances }

theorem diamond_run_is_safe :
    diamond.compile {} "self" "Root" = .ok diamondStack ∧
      diamondStack.pipeline.invocationOrder.Nodup ∧
      Executor.create diamondStack.pipeline diamondInstances = .ok diamondExecutor ∧
      ∃ calls, calls.map RecordedCall.outcome = [.proceed, .fail "denied"] ∧
        SafeRun diamondStack diamondExecutor diamondInstances () calls
          (.error (.error "denied")) := by
  have compiled : diamond.compile {} "self" "Root" = .ok diamondStack := by decide +kernel
  have distinct : diamondStack.pipeline.invocationOrder.Nodup := by decide +kernel
  have wired : Executor.create diamondStack.pipeline diamondInstances = .ok diamondExecutor := by
    decide +kernel
  obtain ⟨calls, record, safe⟩ := run_is_safe compiled distinct wired
    (fun outcome _ _ => (pure outcome : StateM Unit Outcome)) () ()
  have outcomes : calls.map RecordedCall.outcome = [.proceed, .fail "denied"] := by
    have written := congrArg (fun ended => ended.2.2.map RecordedCall.outcome) record
    exact written.symm.trans (by decide +kernel)
  exact ⟨compiled, distinct, wired, calls, outcomes, safe⟩

end MiddlewareStack
