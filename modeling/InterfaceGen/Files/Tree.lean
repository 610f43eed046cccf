import InterfaceGen.Files.Path
import InterfaceGen.OrderedMap

/-!
# File trees

The files below a root, with a working directory from which relative paths start. Operations
fail as those of a system do.
-/

namespace InterfaceGen.Files

inductive SystemError
  | notFound
  | alreadyExists
  | notADirectory
  | isADirectory
  | nameTooLong
  | nulInPath
  | notText
  | other (message : String)
deriving DecidableEq

def SystemError.message : SystemError → String
  | .notFound => "No such file or directory (os error 2)"
  | .alreadyExists => "File exists (os error 17)"
  | .notADirectory => "Not a directory (os error 20)"
  | .isADirectory => "Is a directory (os error 21)"
  | .nameTooLong => "File name too long (os error 36)"
  | .nulInPath => "file name contained an unexpected NUL byte"
  | .notText => "stream did not contain valid UTF-8"
  | .other message => message

def isLongName (name : String) : Bool := 255 < name.utf8ByteSize

/-- What is wrong with a path wherever it leads: it must not be empty, it has no NUL, and it is
shorter than 4096 bytes. -/
def SystemError.ofPath? (path : String) : Option SystemError :=
  if path.toList.contains '\x00' then some .nulInPath
  else if path.isEmpty then some .notFound
  else if 4096 ≤ path.utf8ByteSize then some .nameTooLong
  else none

inductive Content
  | text (s : String)
  | binary (bytes : List UInt8)
deriving DecidableEq

namespace Content

def ofBytes (bytes : ByteArray) : Content :=
  match String.fromUTF8? bytes with
  | some s => .text s
  | none => .binary bytes.toList

def toText : Content → Except SystemError String
  | .text s => .ok s
  | .binary _ => .error .notText

end Content

inductive Entry
  | file (content : Content)
  | directory (entries : List (String × Entry))
deriving Inhabited

namespace Entry

def isDirectory : Entry → Bool
  | .directory _ => true
  | .file _ => false

def find? : List String → Entry → Option Entry
  | [], e => some e
  | name :: rest, .directory entries => (OrderedMap.find? entries name).bind (find? rest)
  | _ :: _, .file _ => none

/-- Puts an entry in a place; directories that are missing on the way are made. -/
def put : Entry → List String → Entry → Entry
  | _, [], new => new
  | .file content, _ :: _, _ => .file content
  | .directory entries, name :: rest, new =>
    let old := (OrderedMap.find? entries name).getD (.directory [])
    .directory (OrderedMap.insert entries name (old.put rest new))

mutual

def descendants : Entry → List (String × Bool)
  | .file _ => []
  | .directory entries => allDescendants entries

def allDescendants : List (String × Entry) → List (String × Bool)
  | [] => []
  | (name, e) :: rest =>
    (name, e.isDirectory) :: e.descendants.map (fun (path, d) => (Path.join name path, d)) ++
      allDescendants rest

end

end Entry

structure FileTree where
  root : Entry
  workingDirectory : List String

namespace FileTree

def empty (workingDirectory : List String) : FileTree :=
  ⟨(Entry.directory []).put workingDirectory (.directory []), workingDirectory⟩

def names (path : String) : List String := (Text.pieces '/' path).filter (· ≠ "")

/-- Follows names from a place. Only a directory can be gone on from, and every place on the way
must exist. -/
def walk (root : Entry) (place : List String) : List String → Except SystemError (List String)
  | [] => .ok place
  | name :: rest =>
    match root.find? place with
    | none => .error .notFound
    | some (.file _) => .error .notADirectory
    | some (.directory entries) =>
      if name = "." then walk root place rest
      else if name = ".." then walk root place.dropLast rest
      else if isLongName name then .error .nameTooLong
      else if (OrderedMap.find? entries name).isSome then walk root (place ++ [name]) rest
      else .error .notFound

def start (t : FileTree) (path : String) : List String :=
  if Path.isAbsolute path then [] else t.workingDirectory

/-- The place of an existing file or directory. A slash at the end asks for a directory. -/
def locate (t : FileTree) (path : String) : Except SystemError (List String) :=
  match SystemError.ofPath? path with
  | some e => .error e
  | none =>
    walk t.root (t.start path) (names path ++ if Path.endsWithSlash path then ["."] else [])

def entry? (t : FileTree) (path : String) : Except SystemError Entry := do
  match t.root.find? (← t.locate path) with
  | some e => .ok e
  | none => .error .notFound

def isDirectory (t : FileTree) (path : String) : Bool :=
  match t.entry? path with
  | .ok e => e.isDirectory
  | .error _ => false

def read (t : FileTree) (path : String) : Except SystemError String := do
  match ← t.entry? path with
  | .file content => content.toText
  | .directory _ => .error .isADirectory

/-! ### Changes -/

/-- The directory in which something is to be made, and the name that it is to have; none for a
path that ends in points. -/
def target (t : FileTree) (path : String) : Except SystemError (List String × Option String) :=
  match SystemError.ofPath? path with
  | some e => .error e
  | none => do
    let names := names path
    let place ← walk t.root (t.start path) (names.dropLast ++ ["."])
    match names.getLast? with
    | none => return (place, none)
    | some name => return (place, if name = "." || name = ".." then none else some name)

def makeDirectory (t : FileTree) (path : String) : Except SystemError FileTree := do
  match ← t.target path with
  | (_, none) => .error .alreadyExists
  | (place, some name) =>
    if isLongName name then .error .nameTooLong
    else if (t.root.find? (place ++ [name])).isSome then .error .alreadyExists
    else return { t with root := t.root.put (place ++ [name]) (.directory []) }

/-- Makes the first of a path's ancestors, and before it those that it lacks. -/
def makeAncestors (t : FileTree) : List String → Except SystemError FileTree
  | [] => .ok t
  | path :: rest =>
    if path.isEmpty then .ok t
    else
      match t.makeDirectory path with
      | .ok t' => .ok t'
      | .error .notFound =>
        match makeAncestors t rest with
        | .error e => .error e
        | .ok t' =>
          match t'.makeDirectory path with
          | .ok t'' => .ok t''
          | .error e => if t'.isDirectory path then .ok t' else .error e
      | .error e => if t.isDirectory path then .ok t else .error e

def makeDirectories (t : FileTree) (path : String) : Except SystemError FileTree :=
  t.makeAncestors (Path.ancestors path)

def write (t : FileTree) (path : String) (content : Content) : Except SystemError FileTree := do
  match ← t.target path with
  | (_, none) => .error .isADirectory
  | (place, some name) =>
    if Path.endsWithSlash path then .error .isADirectory
    else if isLongName name then .error .nameTooLong
    else if (t.root.find? (place ++ [name])).any Entry.isDirectory then .error .isADirectory
    else return { t with root := t.root.put (place ++ [name]) (.file content) }

end FileTree

end InterfaceGen.Files
