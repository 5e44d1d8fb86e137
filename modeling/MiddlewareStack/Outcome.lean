/-!
# Outcomes of a step

A component answers with an early response, an error, both or neither. A short-circuit rule says
what the pipeline does then, and the transition says what is returned to the caller.
-/

namespace MiddlewareStack

/-- A response that ends the request early. -/
structure ResponseSpec where
  status : Nat
  headers : List (String × String) := []
  body : List UInt8 := []
  deriving DecidableEq, Repr

/-- What overrides the handler: an error, known by its text, or an explicit response. -/
inductive Response where
  | error (text : String)
  | respond (spec : ResponseSpec)
  deriving DecidableEq, Repr

namespace Response

/-- Add a header. An error carries none and stays as it is. -/
def withHeader (r : Response) (name value : String) : Response :=
  match r with
  | .respond spec => .respond { spec with headers := spec.headers ++ [(name, value)] }
  | .error text => .error text

def isError : Response → Bool
  | .error _ => true
  | .respond _ => false

def status : Response → Nat
  | .error _ => 500
  | .respond spec => spec.status

/-- The body to send. What went wrong is not shown to the client. -/
def body : Response → List UInt8
  | .error _ => "Server Error".toUTF8.toList
  | .respond spec => spec.body

def headers : Response → List (String × String)
  | .error _ => []
  | .respond spec => spec.headers

/-- The error behind a response. -/
def cause? : Response → Option String
  | .error text => some text
  | .respond _ => none

end Response

structure Outcome where
  earlyResponse : Option Response := none
  error : Option String := none
  deriving DecidableEq, Repr

/-- What the pipeline does after a step. -/
inductive Transition where
  /-- Run the next step. -/
  | continue
  /-- Stop, and return the early response. -/
  | returnOverride
  /-- Stop, and return the error as a response. -/
  | returnWrappedError
  deriving DecidableEq, Repr

structure ShortCircuit where
  onEarlyResponse : Transition := .returnOverride
  onError : Transition := .returnWrappedError
  deriving DecidableEq, Repr

namespace Outcome

/-- Neither a response nor an error. -/
def proceed : Outcome := {}

def respond (response : Response) : Outcome :=
  { earlyResponse := some response }

def fail (error : String) : Outcome :=
  { error := some error }

def ofExcept : Except String Unit → Outcome
  | .ok () => proceed
  | .error text => fail text

/-- What is returned when a transition ends the pipeline: what it asks for if it is there, else the
other of the two. -/
def terminalResponse? (o : Outcome) : Transition → Option Response
  | .continue => none
  | .returnOverride => o.earlyResponse.or (o.error.map .error)
  | .returnWrappedError => (o.error.map .error).or o.earlyResponse

end Outcome

/-- An early response comes before an error. -/
def ShortCircuit.evaluate (rule : ShortCircuit) (o : Outcome) : Transition :=
  if o.earlyResponse.isSome then rule.onEarlyResponse
  else if o.error.isSome then rule.onError
  else .continue

end MiddlewareStack
