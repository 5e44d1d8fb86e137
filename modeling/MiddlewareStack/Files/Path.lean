/-!
# Paths of files

A path is a text of components with slashes between them. It is shown as it was written, and
components that lead nowhere are passed over where a name is looked for.
-/

namespace MiddlewareStack.Files

/-- The texts between slashes. -/
def components : List Char → List (List Char)
  | [] => [[]]
  | '/' :: rest => [] :: components rest
  | c :: rest =>
    match components rest with
    | [] => [[c]]
    | first :: others => (c :: first) :: others

def isAbsolute (path : String) : Bool :=
  path.toList.head? == some '/'

/-- A path inside a directory. An absolute one stands for itself. -/
def join (dir path : String) : String :=
  if isAbsolute path then path
  else if dir.isEmpty || dir.toList.getLast? == some '/' then dir ++ path
  else dir ++ "/" ++ path

/-- A component that leads nowhere. -/
def isEmptyStep (component : List Char) : Bool :=
  component.isEmpty || component == ['.']

/-- The components before some others, latest first, without steps that lead nowhere. The first
component of all stays. -/
def trimSteps : List (List Char) → List (List Char)
  | [] => []
  | [first] => [first]
  | last :: rest => if isEmptyStep last then trimSteps rest else last :: rest

/-- The name that a path ends with, and the path of the directory around it. A path that leads up
ends with no name. -/
def splitName? (path : String) : Option (String × String) :=
  match (components path.toList).reverse.dropWhile isEmptyStep with
  | [] => none
  | name :: before =>
    if name == ['.', '.'] then none
    else
      let before := (trimSteps before).reverse
      let dir := if before == [[]] then ['/'] else ['/'].intercalate before
      some (String.ofList dir, String.ofList name)

/-- A name without what follows its last dot. A dot at the front is part of the name. -/
def stem (name : String) : String :=
  let before := (name.toList.reverse.dropWhile (· != '.')).drop 1
  if before.isEmpty then name else String.ofList before.reverse

end MiddlewareStack.Files
