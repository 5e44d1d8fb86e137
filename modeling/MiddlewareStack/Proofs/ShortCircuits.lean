import MiddlewareStack.Proofs.ExecutionSafety

/-!
# Short circuits

A rule decides whether a step stops, and the outcome decides what is returned then. For no rule and
no outcome do the two disagree, so that a run over any pipeline ends at the first step whose rule
says so.
-/

namespace MiddlewareStack

variable {Instance Request : Type}

namespace Outcome

variable {o : Outcome} {transition : Transition} {response : Response}

/-- What an outcome owes the caller of a pipeline that it ends. -/
inductive Owed (o : Outcome) : Transition → Response → Prop
  | early {response : Response} (present : o.earlyResponse = some response) :
      Owed o .returnOverride response
  | wrapped {text : String} (present : o.error = some text) :
      Owed o .returnWrappedError (.error text)
  | onlyError {text : String} (absent : o.earlyResponse = none) (present : o.error = some text) :
      Owed o .returnOverride (.error text)
  | onlyEarly {response : Response} (absent : o.error = none)
      (present : o.earlyResponse = some response) : Owed o .returnWrappedError response

/-- What is owed is the response or the error of the outcome itself. -/
theorem Owed.answered (h : o.Owed transition response) :
    o.earlyResponse = some response ∨ ∃ text, o.error = some text ∧ response = .error text := by
  cases h with
  | early present | onlyEarly _ present => exact .inl present
  | wrapped present | onlyError _ present => exact .inr ⟨_, present, rfl⟩

theorem terminalResponse?_eq_some_iff :
    o.terminalResponse? transition = some response ↔ o.Owed transition response := by
  obtain ⟨early, error⟩ := o
  constructor
  · intro given
    cases transition with
    | «continue» => cases given
    | returnOverride =>
      cases early with
      | some early => cases given; exact .early rfl
      | none =>
        cases error with
        | some text => cases given; exact .onlyError rfl rfl
        | none => cases given
    | returnWrappedError =>
      cases error with
      | some text => cases given; exact .wrapped rfl
      | none =>
        cases early with
        | some early => cases given; exact .onlyEarly rfl rfl
        | none => cases given
  · intro owed
    cases owed <;> simp_all [terminalResponse?]

/-- An outcome that is neither a response nor an error does not stop under any rule, and any other
has something to return. -/
theorem terminalResponse?_evaluate_eq_none_iff (rule : ShortCircuit) :
    o.terminalResponse? (rule.evaluate o) = none ↔ rule.evaluate o = .continue := by
  obtain ⟨early, error⟩ := o
  obtain ⟨onEarly, onError⟩ := rule
  cases early with
  | some early =>
    cases onEarly <;> cases error <;> simp [terminalResponse?, ShortCircuit.evaluate]
  | none =>
    cases error with
    | some text => cases onError <;> simp [terminalResponse?, ShortCircuit.evaluate]
    | none => simp [terminalResponse?, ShortCircuit.evaluate]

end Outcome

namespace Executor

variable {e : Executor Instance} {request : Request} {steps : List Step} {step : Step}
  {first : RecordedCall Instance Request}
  {calls : List (RecordedCall Instance Request)} {result : Except Response (Bundle Instance)}

/-- A call of a step after which the pipeline goes on. -/
structure Passed (e : Executor Instance) (request : Request) (step : Step)
    (call : RecordedCall Instance Request) : Prop where
  made : CallOf e request step call
  goes : step.shortCircuit.evaluate call.outcome = .continue

/-- How a run obeys the rules of its steps: all of them were passed, or it ended with what is owed
after the first that was not, and the steps after that one made no call. -/
inductive ShortCircuits (e : Executor Instance) (request : Request) (steps : List Step) :
    List (RecordedCall Instance Request) → Except Response (Bundle Instance) → Prop
  | finished {calls : List (RecordedCall Instance Request)}
      (passed : List.Forall₂ (Passed e request) steps calls) :
      ShortCircuits e request steps calls (.ok e.bundle)
  | stopped {before after : List Step} {step : Step}
      {calls : List (RecordedCall Instance Request)} {last : RecordedCall Instance Request}
      {response : Response} (split : steps = before ++ step :: after)
      (passed : List.Forall₂ (Passed e request) before calls) (made : CallOf e request step last)
      (stops : step.shortCircuit.evaluate last.outcome ≠ .continue)
      (owed : last.outcome.Owed (step.shortCircuit.evaluate last.outcome) response) :
      ShortCircuits e request steps (calls ++ [last]) (.error response)

/-- A step that is passed before a run that obeys the rules. -/
theorem ShortCircuits.cons (passed : Passed e request step first)
    (h : ShortCircuits e request steps calls result) :
    ShortCircuits e request (step :: steps) (first :: calls) result := by
  cases h with
  | finished others => exact .finished (.cons passed others)
  | @stopped before after last _ _ _ split others made stops owed =>
    subst split
    rw [← List.cons_append]
    exact .stopped (List.cons_append ..).symm (.cons passed others) made stops owed

/-- Every way in which a run may go over steps that have an instance obeys their rules. -/
theorem Runs.shortCircuits (h : Runs e request steps calls result)
    (wired : ∀ step ∈ steps, (e.components.find? step.capability).isSome) :
    ShortCircuits e request steps calls result := by
  induction h with
  | done => exact .finished .nil
  | unwired missing => simpa [missing] using wired _ List.mem_cons_self
  | @stop step rest component outcome response found stops =>
    have ends : step.shortCircuit.evaluate outcome ≠ .continue := by
      rw [Ne, ← Outcome.terminalResponse?_evaluate_eq_none_iff, stops]
      simp
    have owed := Outcome.terminalResponse?_eq_some_iff.mp stops
    rw [← List.nil_append [_]]
    exact .stopped (List.nil_append _).symm .nil ⟨found, rfl, rfl⟩ ends owed
  | next found goes _ ih =>
    have passed := (Outcome.terminalResponse?_evaluate_eq_none_iff _).mp goes
    exact .cons ⟨⟨found, rfl, rfl⟩, passed⟩
      (ih fun step member => wired step (List.mem_cons_of_mem _ member))

section Created

variable {p : Pipeline} {supplied : List (String × Instance)}

theorem Wired.serves (h : e.Wired p supplied) :
    ∀ step ∈ p.steps, (e.components.find? step.capability).isSome := fun _ member =>
  (h.exactly _).mpr (List.mem_map_of_mem member)

/-- A run on an executor that was created goes over the steps of its pipeline. -/
theorem Wired.run_recorded {σ : Type} (h : e.Wired p supplied)
    (invoke : Instance → Request → Option (Bundle Instance) → StateM σ Outcome)
    (request : Request) (world : σ) :
    ∃ calls, e.run (recorded invoke) request (world, []) =
        ((e.run invoke request world).1, ((e.run invoke request world).2, calls)) ∧
      Runs e request p.steps calls (e.run invoke request world).1 := by
  rw [← h.pipeline]
  exact runSteps_recorded e invoke request e.pipeline.steps world []

end Created

end Executor

/-- Over any pipeline with any rules, a run on an executor that was created ends in an error at the
first step whose rule does not let it go on, with what that step's outcome owes, and calls nothing
after it. -/
theorem run_short_circuits {p : Pipeline} {supplied : List (String × Instance)}
    {e : Executor Instance} {σ : Type} (created : Executor.create p supplied = .ok e)
    (invoke : Instance → Request → Option (Bundle Instance) → StateM σ Outcome)
    (request : Request) (world : σ) :
    ∃ calls, e.run (Executor.recorded invoke) request (world, []) =
        ((e.run invoke request world).1, ((e.run invoke request world).2, calls)) ∧
      Executor.ShortCircuits e request p.steps calls (e.run invoke request world).1 := by
  have wired := Executor.create_wired created
  obtain ⟨calls, record, runs⟩ := wired.run_recorded invoke request world
  exact ⟨calls, record, runs.shortCircuits wired.serves⟩

/-- Three steps, of which the first goes on after a response and the second returns its error where
there is a response as well. -/
def guardedPipeline : Pipeline :=
  { target := ⟨"self", "Root"⟩
    steps := [
      { position := 0, component := 0, capability := "self::Cached", implementation := ⟨"self", "C"⟩,
        passBundle := false, bundle := none, shortCircuit := { onEarlyResponse := .continue } },
      { position := 1, component := 1, capability := "self::Limited",
        implementation := ⟨"self", "L"⟩, passBundle := true, bundle := none,
        shortCircuit := { onEarlyResponse := .returnWrappedError, onError := .continue } },
      { position := 2, component := 2, capability := "self::Audited",
        implementation := ⟨"self", "A"⟩, passBundle := false, bundle := none }] }

def guardedInstances : List (String × Outcome) :=
  [("self::Audited", .fail "unreached"), ("self::Cached", .respond (.respond { status := 304 })),
    ("self::Limited", { earlyResponse := some (.respond { status := 429 }), error := some "limit" })]

def guardedExecutor : Executor Outcome :=
  { pipeline := guardedPipeline
    components := .ofList guardedInstances }

theorem guarded_run_short_circuits :
    Executor.create guardedPipeline guardedInstances = .ok guardedExecutor ∧
      ∃ calls, calls.map RecordedCall.component = (guardedInstances.drop 1).map Prod.snd ∧
        Executor.ShortCircuits guardedExecutor () guardedPipeline.steps calls
          (.error (.error "limit")) := by
  have created : Executor.create guardedPipeline guardedInstances = .ok guardedExecutor := by
    decide +kernel
  obtain ⟨calls, record, obeys⟩ := run_short_circuits created
    (fun outcome _ _ => (pure outcome : StateM Unit Outcome)) () ()
  have called : calls.map RecordedCall.component = (guardedInstances.drop 1).map Prod.snd := by
    have written := congrArg (fun ended => ended.2.2.map RecordedCall.component) record
    exact written.symm.trans (by decide +kernel)
  exact ⟨created, calls, called, obeys⟩

end MiddlewareStack
