import MiddlewareStack.Text.Letter
import MiddlewareStack.Text.Separated

/-!
# Configured names and paths

An identifier starts with a letter or an underscore and goes on with letters, digits and
underscores. A path is identifiers with `::` between them, and may start with `::`.
-/

namespace MiddlewareStack.Text

def isIdentifierTail (cs : List Char) : Bool :=
  !cs.isEmpty && cs.all fun c => isAlphanumeric c || c == '_'

def isIdentifier (cs : List Char) : Bool :=
  cs.head?.any (fun c => isAlphabetic c || c == '_') && isIdentifierTail cs

/-- The text without one leading separator. -/
def dropLeadingSeparator : List Char → List Char
  | ':' :: ':' :: rest => rest
  | cs => cs

def isPath (cs : List Char) : Bool :=
  let body := dropLeadingSeparator cs
  !body.isEmpty && (splitSegments body).all isIdentifier

end MiddlewareStack.Text
