import MiddlewareStack.KeyedMap
import MiddlewareStack.Pipeline

/-!
# Running a pipeline

An executor holds one instance for each capability of a pipeline and runs the steps in order until
one of them stops it. What an instance does is given from outside, in any monad; an instance that is
handed the bundle can reach the others through it.
-/

namespace MiddlewareStack

inductive WiringError where
  | missingComponent (capability : String)
  | unknownComponent (capability : String)
  | duplicateComponent (capability : String)
  deriving DecidableEq, Repr

def WiringError.message : WiringError → String
  | .missingComponent capability => "no instance supplied for " ++ capability
  | .unknownComponent capability => capability ++ " is not part of the pipeline"
  | .duplicateComponent capability => capability ++ " was supplied more than once"

/-- Every instance of a pipeline, by capability. -/
structure Bundle (Instance : Type) where
  components : KeyedMap Instance

namespace Bundle

variable {Instance : Type}

def get? (b : Bundle Instance) (capability : String) : Option Instance :=
  b.components.find? capability

def capabilities (b : Bundle Instance) : List String :=
  b.components.keys

end Bundle

structure Executor (Instance : Type) where
  pipeline : Pipeline
  components : KeyedMap Instance
  deriving DecidableEq

namespace Executor

variable {Instance Request : Type} {m : Type → Type}

/-- Take supplied instances one by one. Each has to belong to a step and to come once. -/
def wire (p : Pipeline) : List (String × Instance) → KeyedMap Instance →
    Except WiringError (KeyedMap Instance)
  | [], wired => .ok wired
  | (capability, component) :: rest, wired =>
    if (p.step? capability).isNone then .error (.unknownComponent capability)
    else if wired.contains capability then .error (.duplicateComponent capability)
    else wire p rest (wired.insert capability component)

/-- An executor of a pipeline over some instances, each step having one. -/
def create (p : Pipeline) (supplied : List (String × Instance)) :
    Except WiringError (Executor Instance) :=
  match wire p supplied .empty with
  | .error e => .error e
  | .ok components =>
    match p.steps.find? fun step => !components.contains step.capability with
    | some step => .error (.missingComponent step.capability)
    | none => .ok { pipeline := p, components }

def bundle (e : Executor Instance) : Bundle Instance :=
  { components := e.components }

/-- Run steps in order, up to the first that stops. -/
def runSteps [Monad m] (e : Executor Instance)
    (invoke : Instance → Request → Option (Bundle Instance) → m Outcome) (request : Request) :
    List Step → m (Except Response (Bundle Instance))
  | [] => pure (.ok e.bundle)
  | step :: rest =>
    match e.components.find? step.capability with
    | none => pure (.error (.error (WiringError.missingComponent step.capability).message))
    | some component => do
      let outcome ← invoke component request (if step.passBundle then some e.bundle else none)
      match outcome.terminalResponse? (step.shortCircuit.evaluate outcome) with
      | some response => pure (.error response)
      | none => e.runSteps invoke request rest

/-- Run the whole pipeline on one request. On success the caller gets the bundle. -/
def run [Monad m] (e : Executor Instance)
    (invoke : Instance → Request → Option (Bundle Instance) → m Outcome) (request : Request) :
    m (Except Response (Bundle Instance)) :=
  e.runSteps invoke request e.pipeline.steps

end Executor

end MiddlewareStack
