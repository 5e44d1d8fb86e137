import MiddlewareStack.Files.Entry
import MiddlewareStack.Files.Path
import MiddlewareStack.KeyedMap

/-!
# File trees

Files and directories held as a value. Paths are followed one component at a time from the working
directory, or from the root if they are absolute.
-/

namespace MiddlewareStack.Files

/-- A place in a tree, as the names that lead to it from the root. -/
abbrev Place := List String

inductive Node where
  | file (content : ByteArray)
  | directory

structure Tree where
  /-- What is at each place but the root, which is a directory. -/
  nodes : KeyedMap Node := .empty
  workingPlace : Place := []

namespace Tree

def keyOf (place : Place) : String :=
  "/" ++ "/".intercalate place

def node? (t : Tree) (place : Place) : Option Node :=
  if place.isEmpty then some .directory else t.nodes.find? (keyOf place)

/-- The longest name that a component may have, in bytes. -/
def maxName : Nat := 255

/-- The number of bytes that a path has to stay below. -/
def maxPath : Nat := 4096

/-- Follow components from a place. A component can only be followed in a directory. -/
def follow (t : Tree) : Place → List (List Char) → Except Fault Place
  | place, [] => .ok place
  | place, component :: rest =>
    match t.node? place with
    | none => .error .notFound
    | some (.file _) => .error .notADirectory
    | some .directory =>
      let name := String.ofList component
      if isEmptyStep component then t.follow place rest
      else if component == ['.', '.'] then t.follow place.dropLast rest
      else if name.utf8ByteSize > maxName then .error .nameTooLong
      else t.follow (place ++ [name]) rest

/-- The place that a path leads to, where nothing need be. -/
def place (t : Tree) (path : String) : Except Fault Place :=
  if path.isEmpty then .error .notFound
  else if path.toList.contains '\x00' then .error .zeroInPath
  else if path.utf8ByteSize ≥ maxPath then .error .nameTooLong
  else t.follow (if isAbsolute path then [] else t.workingPlace) (components path.toList)

/-- What is at a path. -/
def view (t : Tree) : View := fun path =>
  match t.place path with
  | .error fault => .absent fault
  | .ok place =>
    match t.node? place with
    | some (.file content) => .file content
    | some .directory => .directory
    | none => .absent .notFound

/-- Put something at a place, with directories on the way to it. -/
def add (t : Tree) (place : Place) (node : Node) : Tree :=
  let above := ((List.range place.length).drop 1).map fun count => place.take count
  let nodes := above.foldl (fun nodes place => nodes.insert (keyOf place) .directory) t.nodes
  { t with nodes := nodes.insert (keyOf place) node }

/-- Write a file, which may be there already. -/
def write (t : Tree) (path : String) (content : ByteArray) : Except Fault Tree := do
  let place ← t.place path
  match t.node? place with
  | some .directory => .error .isADirectory
  | _ => .ok { t with nodes := t.nodes.insert (keyOf place) (.file content) }

end Tree

end MiddlewareStack.Files
