import InterfaceGen.Text.Split

/-!
# Paths

A path is a text whose pieces are separated by slashes. Two paths with the same components name
the same file, whatever blank pieces stand between them.
-/

namespace InterfaceGen.Files

inductive Component
  | root
  | here
  | up
  | name (s : String)
deriving DecidableEq

namespace Component

def ofPiece (piece : String) : Component :=
  if piece = "." then .here else if piece = ".." then .up else .name piece

def rank : Component → Nat
  | .root => 0
  | .here => 1
  | .up => 2
  | .name _ => 3

instance : Ord Component where
  compare
    | .name a, .name b => compare a b
    | a, b => compare a.rank b.rank

end Component

namespace Path

def isAbsolute (path : String) : Bool := path.toList.head? == some '/'

/-- The pieces of a path, after the slash that an absolute path starts with. Each is marked
whether it is a component: empty ones are not, nor is a point, unless it starts the path. -/
def markedPieces (path : String) : List (String × Bool) :=
  if path.isEmpty then []
  else
    match Text.pieces '/' path with
    | [] => []
    | first :: rest =>
      let isComponent (piece : String) : Bool := piece ≠ "" && piece ≠ "."
      let rest := rest.map fun piece => (piece, isComponent piece)
      if isAbsolute path then rest else (first, true) :: rest

def components (path : String) : List Component :=
  let inner := (markedPieces path).filterMap fun (piece, counts) =>
    if counts then some (Component.ofPiece piece) else none
  if isAbsolute path then .root :: inner else inner

def compare (a b : String) : Ordering := Ord.compare (components a) (components b)

def endsWithSlash (path : String) : Bool := path.toList.getLast? == some '/'

def join (directory name : String) : String :=
  if directory.isEmpty || endsWithSlash directory then directory ++ name
  else directory ++ "/" ++ name

/-- The path without its last component, if there is one to take away. -/
def parent? (path : String) : Option String :=
  let untilComponent (pieces : List (String × Bool)) := pieces.dropWhile fun piece => !piece.2
  match untilComponent (markedPieces path).reverse with
  | [] => none
  | _ :: before =>
    let text := "/".intercalate ((untilComponent before).reverse.map Prod.fst)
    some (if isAbsolute path then "/" ++ text else text)

def ancestors (path : String) : List String :=
  let rec go : Nat → String → List String
    | 0, path => [path]
    | n + 1, path =>
      match parent? path with
      | none => [path]
      | some parent => path :: go n parent
  go (components path).length path

def fileName? (path : String) : Option String :=
  match (components path).getLast? with
  | some (.name s) => some s
  | _ => none

/-- A name without its last point and what follows it, unless nothing stands before the point. -/
def withoutExtension (name : List Char) : List Char :=
  match name.reverse.dropWhile (· ≠ '.') with
  | _ :: before => if before.isEmpty then name else before.reverse
  | [] => name

def stem? (path : String) : Option String :=
  (fileName? path).map fun name => String.ofList (withoutExtension name.toList)

end Path

end InterfaceGen.Files
