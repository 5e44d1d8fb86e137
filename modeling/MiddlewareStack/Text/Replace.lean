/-!
# Replacing every occurrence

Occurrences are found from left to right and do not overlap.
-/

namespace MiddlewareStack.Text

/-- `skip` characters still belong to the occurrence replaced last. -/
def replaceFrom (pattern replacement : List Char) (skip : Nat) : List Char → List Char
  | [] => []
  | c :: rest =>
    match skip with
    | k + 1 => replaceFrom pattern replacement k rest
    | 0 =>
      if pattern.isPrefixOf (c :: rest) then
        replacement ++ replaceFrom pattern replacement (pattern.length - 1) rest
      else c :: replaceFrom pattern replacement 0 rest

def replaceAll (pattern replacement : List Char) (text : List Char) : List Char :=
  replaceFrom pattern replacement 0 text

end MiddlewareStack.Text
