import MiddlewareStack.Aggregate
import MiddlewareStack.Executor

/-!
# Running an aggregate

What the generated method does when it is called on an aggregate whose fields hold instances. What
an instance answers is given from outside, in any monad, as it is for an executor.
-/

namespace MiddlewareStack.Aggregate

variable {Instance Request : Type} {m : Type → Type}

/-- What the methods of implementations answer when they are called on an instance. -/
abbrev Behaviour (m : Type → Type) (Instance Request : Type) : Type :=
  QualifiedName → String → Instance → Request → Option (Bundle Instance) → m Outcome

/-- What the fields of an aggregate hold. -/
structure Value (Instance : Type) where
  fields : List (String × Instance)

def Value.get? (v : Value Instance) (field : String) : Option Instance :=
  v.fields.lookup field

/-- Put an aggregate together from one instance for each field, in their order. -/
def construct (a : Aggregate) (instances : List Instance) : Value Instance :=
  { fields := (a.fields.map Field.name).zip instances }

/-- The aggregate as the components see it that it is passed to: what each field holds, by the
capability of the field. -/
def bundle (a : Aggregate) (v : Value Instance) : Bundle Instance :=
  { components := .ofList (a.fields.filterMap fun field =>
      (v.get? field.name).map (field.capability.text, ·)) }

/-- Make calls one after the other, up to the first that reports something. There is no result where
a call is made on a field that the aggregate lacks. -/
def runCalls [Monad m] (a : Aggregate) (v : Value Instance)
    (perform : Behaviour m Instance Request) (request : Request) :
    List Call → m (Option (Except Response (Bundle Instance)))
  | [] => pure (some (.ok (a.bundle v)))
  | call :: rest =>
    match v.get? call.field with
    | none => pure none
    | some component => do
      let outcome ← perform call.implementation call.method component request
        (if call.passBundle then some (a.bundle v) else none)
      match outcome.earlyResponse with
      | some response => pure (some (.error response))
      | none =>
        match outcome.error with
        | some text => pure (some (.error (.error text)))
        | none => a.runCalls v perform request rest

/-- The generated method. On success the caller gets the aggregate. -/
def run [Monad m] (a : Aggregate) (v : Value Instance)
    (perform : Behaviour m Instance Request) (request : Request) :
    m (Option (Except Response (Bundle Instance))) :=
  a.runCalls v perform request a.calls

end MiddlewareStack.Aggregate
