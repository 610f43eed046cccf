import InterfaceGen.Files.Tree

/-!
# Access to files

What a command asks of the files around it. A file tree answers at once; a system answers in a
monad of its own.
-/

namespace InterfaceGen.Files

structure FileReader (m : Type → Type) where
  read : String → m (Except SystemError String)
  isPresent : String → m Bool
  /-- The names in a directory; none at a path that is no directory. -/
  entries : String → m (Option (List String))
  /-- Everything in a directory at any depth, with its path from there and whether it is a
  directory. -/
  below : String → m (List (String × Bool))

structure FileWriter (m : Type → Type) where
  makeDirectories : String → m (Except SystemError Unit)
  write : String → String → m (Except SystemError Unit)

namespace FileTree

def reader (t : FileTree) : FileReader Id where
  read path := t.read path
  isPresent path := (t.entry? path).toOption.isSome
  entries path :=
    match t.entry? path with
    | .ok (.directory entries) => some (OrderedMap.keys entries)
    | _ => none
  below path :=
    match t.entry? path with
    | .ok e => e.descendants
    | .error _ => []

def writer : FileWriter (StateM FileTree) where
  makeDirectories path t :=
    match t.makeDirectories path with
    | .ok t' => (.ok (), t')
    | .error e => (.error e, t)
  write path text t :=
    match t.write path (.text text) with
    | .ok t' => (.ok (), t')
    | .error e => (.error e, t)

end FileTree

end InterfaceGen.Files
