import MiddlewareStack.Outcome
import MiddlewareStack.Text.Escape

/-!
# Outcomes as text for a developer

Fields are named, texts are quoted, and bytes are shown as numbers.
-/

namespace MiddlewareStack

private def listText (items : List String) : String :=
  "[" ++ ", ".intercalate items ++ "]"

private def optionText (item : Option String) : String :=
  match item with
  | none => "None"
  | some text => "Some(" ++ text ++ ")"

/-- A record with its fields between braces. -/
private def recordText (name : String) (fields : List (String × String)) : String :=
  name ++ " \x7b " ++ ", ".intercalate (fields.map fun (field, value) => field ++ ": " ++ value) ++
    " \x7d"

def ResponseSpec.debugText (spec : ResponseSpec) : String :=
  recordText "ResponseSpec" [
    ("status", toString spec.status),
    ("headers", listText (spec.headers.map fun (name, value) =>
      "(" ++ Text.quoted name ++ ", " ++ Text.quoted value ++ ")")),
    ("body", listText (spec.body.map toString))]

def Response.debugText : Response → String
  | .error text => "Error(" ++ Text.quoted text ++ ")"
  | .respond spec => "Respond(" ++ spec.debugText ++ ")"

def Outcome.debugText (o : Outcome) : String :=
  recordText "Outcome" [
    ("early_response", optionText (o.earlyResponse.map Response.debugText)),
    ("error", optionText (o.error.map Text.quoted))]

end MiddlewareStack
