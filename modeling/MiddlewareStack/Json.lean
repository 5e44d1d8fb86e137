/-!
# JSON values

The fields of an object keep their order, and a field may occur twice as far as the value is
concerned.
-/

namespace MiddlewareStack

inductive Json where
  | null
  | bool (value : Bool)
  | integer (value : Int)
  /-- A number with a fraction or an exponent, as written. -/
  | decimal (text : String)
  | string (text : String)
  | array (items : List Json)
  | object (fields : List (String × Json))
  /-- What is written like a value but stands for none: half of a surrogate pair, a number that is
  too large, or containers that are nested too deep. -/
  | unreadable
  deriving Repr, Inhabited

namespace Json

/-- The fields of an object, none for any other value. -/
def fields? : Json → Option (List (String × Json))
  | .object fields => some fields
  | _ => none

/-- The last field of a name. -/
def field? (value : Json) (name : String) : Option Json :=
  match value with
  | .object fields => fields.reverse.lookup name
  | _ => none

def string? : Json → Option String
  | .string text => some text
  | _ => none

def bool? : Json → Option Bool
  | .bool value => some value
  | _ => none

def array? : Json → Option (List Json)
  | .array items => some items
  | _ => none

def nat? : Json → Option Nat
  | .integer (.ofNat n) => some n
  | _ => none

def ofNat (n : Nat) : Json :=
  .integer n

mutual

/-- Whether every part of a value stands for something. -/
def isReadable : Json → Bool
  | .array items => itemsAreReadable items
  | .object fields => fieldsAreReadable fields
  | .unreadable => false
  | _ => true

def itemsAreReadable : List Json → Bool
  | [] => true
  | item :: rest => isReadable item && itemsAreReadable rest

def fieldsAreReadable : List (String × Json) → Bool
  | [] => true
  | (_, value) :: rest => isReadable value && fieldsAreReadable rest

end

/-- A value that may be missing. -/
def ofOption {α : Type} (write : α → Json) : Option α → Json
  | none => .null
  | some value => write value

end Json

end MiddlewareStack
