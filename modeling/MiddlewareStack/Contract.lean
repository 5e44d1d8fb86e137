import MiddlewareStack.Symbols.Table

/-!
# Contracts

A contract requires its own methods and those of every contract it embeds, however deep. A type
satisfies it when its method set has each of them with the same signature.
-/

namespace MiddlewareStack

/-- What a walk over embedded contracts has met so far. -/
structure Collected where
  seen : List QualifiedName := []
  methods : List Method := []

namespace Collected

/-- Of two methods with one name the first stays. -/
def addMethod (methods : List Method) (m : Method) : List Method :=
  if methods.any (·.name = m.name) then methods else methods ++ [m]

def addMethods (c : Collected) (own : List Method) : Collected :=
  { c with methods := own.foldl addMethod c.methods }

end Collected

/-- Visit embedded contracts in order, each name once in the whole walk. -/
def collectEmbeds (t : Table) (visit : Interface → Collected → Collected) :
    List QualifiedName → Collected → Collected
  | [], c => c
  | name :: rest, c =>
    if name ∈ c.seen then collectEmbeds t visit rest c
    else
      let c := { c with seen := name :: c.seen }
      match t.interface? name with
      | some embedded => collectEmbeds t visit rest (visit embedded c)
      | none => collectEmbeds t visit rest c

/-- The walk below one contract, its own methods first. `visit` does the same for an embedded one. -/
def collectLevel (t : Table) (visit : Interface → Collected → Collected) (contract : Interface)
    (c : Collected) : Collected :=
  collectEmbeds t visit contract.declaredEmbeds (c.addMethods contract.methods)

/-- The walk with at most `depth` levels, `beyond` standing for all that is deeper. Each level down
has met one more symbol of the table, so that a depth beyond their number is never used up. -/
def collect (t : Table) (beyond : Interface → Collected → Collected) :
    Nat → Interface → Collected → Collected
  | 0 => beyond
  | depth + 1 => collectLevel t (collect t beyond depth)

/-- The methods that a walk of bounded depth finds. -/
def requiredWithin (t : Table) (beyond : Interface → Collected → Collected) (depth : Nat)
    (contract : Interface) : List Method :=
  (collect t beyond depth contract {}).methods

/-- Every method a contract requires, one of each name, in the order of the walk. -/
def requiredMethods (t : Table) (contract : Interface) : List Method :=
  requiredWithin t (fun _ c => c) (t.symbolCount + 1) contract

inductive Satisfaction where
  | satisfied
  | missingMethod (name : String)
  | signatureMismatch (name : String)
  deriving DecidableEq, Repr

/-- How a type meets one required method. Declared with another receiver, it is there in a wrong
shape. -/
def satisfaction (candidate : ConcreteType) (required : Method) : Satisfaction :=
  match candidate.methodSet.find? (·.name = required.name) with
  | some found =>
    if found.SameSignature required then .satisfied else .signatureMismatch required.name
  | none =>
    if (candidate.declared? required.name).isSome then .signatureMismatch required.name
    else .missingMethod required.name

/-- The first requirement that is not met decides. -/
def firstUnmet (candidate : ConcreteType) : List Method → Satisfaction
  | [] => .satisfied
  | required :: rest =>
    match satisfaction candidate required with
    | .satisfied => firstUnmet candidate rest
    | unmet => unmet

def check (t : Table) (contract : Interface) (candidate : ConcreteType) : Satisfaction :=
  firstUnmet candidate (requiredMethods t contract)

end MiddlewareStack
