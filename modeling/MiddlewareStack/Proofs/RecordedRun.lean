import Mathlib.Data.List.Basic
import MiddlewareStack.Executor

/-!
# Runs with their calls

A run of an executor with every call written down: which instance, what it was handed and what it
answered. Instances may read and change a world of any kind, so that a run covers every behaviour of
its components.
-/

namespace MiddlewareStack

/-- One call of an instance and its answer. -/
structure RecordedCall (Instance Request : Type) where
  component : Instance
  request : Request
  bundle : Option (Bundle Instance)
  outcome : Outcome

namespace Executor

variable {Instance Request σ : Type}

/-- The same behaviour, with each call added to a record. -/
def recorded (invoke : Instance → Request → Option (Bundle Instance) → StateM σ Outcome)
    (component : Instance) (request : Request) (bundle : Option (Bundle Instance)) :
    StateM (σ × List (RecordedCall Instance Request)) Outcome := fun (world, calls) =>
  let (outcome, world) := invoke component request bundle world
  (outcome, (world, calls ++ [{ component, request, bundle, outcome }]))

/-- The bundle as a step hands it on. -/
def handed (e : Executor Instance) (step : Step) : Option (Bundle Instance) :=
  if step.passBundle then some e.bundle else none

/-- How a run over some steps may go: the calls it makes and how it ends. -/
inductive Runs (e : Executor Instance) (request : Request) :
    List Step → List (RecordedCall Instance Request) → Except Response (Bundle Instance) → Prop
  | done : Runs e request [] [] (.ok e.bundle)
  | unwired {step : Step} {rest : List Step} (missing : e.components.find? step.capability = none) :
      Runs e request (step :: rest) []
        (.error (.error (WiringError.missingComponent step.capability).message))
  | stop {step : Step} {rest : List Step} {component : Instance} {outcome : Outcome}
      {response : Response} (wired : e.components.find? step.capability = some component)
      (stops : outcome.terminalResponse? (step.shortCircuit.evaluate outcome) = some response) :
      Runs e request (step :: rest) [{ component, request, bundle := e.handed step, outcome }]
        (.error response)
  | next {step : Step} {rest : List Step} {component : Instance} {outcome : Outcome}
      {calls : List (RecordedCall Instance Request)} {result : Except Response (Bundle Instance)}
      (wired : e.components.find? step.capability = some component)
      (goes : outcome.terminalResponse? (step.shortCircuit.evaluate outcome) = none)
      (after : Runs e request rest calls result) :
      Runs e request (step :: rest)
        ({ component, request, bundle := e.handed step, outcome } :: calls) result

section Step

variable (e : Executor Instance)
  (invoke : Instance → Request → Option (Bundle Instance) → StateM σ Outcome) (request : Request)
  {step : Step} {rest : List Step} {world world' : σ}

theorem runSteps_unwired (missing : e.components.find? step.capability = none) :
    e.runSteps invoke request (step :: rest) world =
      (.error (.error (WiringError.missingComponent step.capability).message), world) := by
  simp only [runSteps, missing]
  rfl

/-- The instance of the first step is called, and its answer decides how the run goes on. -/
theorem runSteps_wired {component : Instance} {outcome : Outcome}
    (wired : e.components.find? step.capability = some component)
    (answer : invoke component request (e.handed step) world = (outcome, world')) :
    e.runSteps invoke request (step :: rest) world =
      match outcome.terminalResponse? (step.shortCircuit.evaluate outcome) with
      | some response => (.error response, world')
      | none => e.runSteps invoke request rest world' := by
  unfold handed at answer
  simp only [runSteps, wired, bind, StateT.bind, answer]
  cases outcome.terminalResponse? (step.shortCircuit.evaluate outcome) <;> rfl

end Step

/-- The record of a run is one of the ways in which the run may go, and recording changes neither
the result nor the world. -/
theorem runSteps_recorded (e : Executor Instance)
    (invoke : Instance → Request → Option (Bundle Instance) → StateM σ Outcome)
    (request : Request) (steps : List Step) (world : σ)
    (before : List (RecordedCall Instance Request)) :
    ∃ calls, e.runSteps (recorded invoke) request steps (world, before) =
        ((e.runSteps invoke request steps world).1,
          (e.runSteps invoke request steps world).2, before ++ calls) ∧
      Runs e request steps calls (e.runSteps invoke request steps world).1 := by
  induction steps generalizing world before with
  | nil => exact ⟨[], by rw [List.append_nil]; rfl, .done⟩
  | cons step rest ih =>
    cases wired : e.components.find? step.capability with
    | none =>
      rw [runSteps_unwired e _ request wired, runSteps_unwired e _ request wired]
      exact ⟨[], by simp, .unwired wired⟩
    | some component =>
      rcases answer : invoke component request (e.handed step) world with ⟨outcome, world'⟩
      have written : recorded invoke component request (e.handed step) (world, before) =
          (outcome, world', before ++
            [{ component, request, bundle := e.handed step, outcome }]) := by
        simp [recorded, answer]
      rw [runSteps_wired e _ request wired answer, runSteps_wired e _ request wired written]
      cases ends : outcome.terminalResponse? (step.shortCircuit.evaluate outcome) with
      | some response => exact ⟨_, rfl, .stop wired ends⟩
      | none =>
        obtain ⟨calls, record, runs⟩ := ih world'
          (before ++ [{ component, request, bundle := e.handed step, outcome }])
        exact ⟨_, by rw [record, List.append_assoc]; rfl, .next wired ends runs⟩

end Executor

end MiddlewareStack
