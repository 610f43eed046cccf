import InterfaceGen.Files.Pattern
import InterfaceGen.Files.Reader

/-!
# Files that match a pattern

A pattern is followed piece by piece from the working directory or the root. A piece without
wildcards is only looked for; one with wildcards is compared with every name in the directory.
-/

namespace InterfaceGen.Files

structure Glob where
  isAbsolute : Bool
  pieces : List (List PatternToken)
  /-- Whether the pattern ends in a slash, and so matches directories only. -/
  directoriesOnly : Bool

def dropEmptyLast (pieces : List (List Char)) : List (List Char) :=
  if pieces.getLast? = some [] then pieces.dropLast else pieces

namespace Glob

/-- Reads a pattern. It has to be well formed as a whole and in each of its pieces. -/
def ofText (s : String) : Except PatternError Glob := do
  let _ ← Pattern.tokens 0 true s.toList
  let isAbsolute := Path.isAbsolute s
  let inner := if isAbsolute then s.toList.drop 1 else s.toList
  let pieces ← (dropEmptyLast (Text.split '/' inner)).mapM (Pattern.tokens 0 true)
  return ⟨isAbsolute, pieces, Path.endsWithSlash s⟩

/-- The path of something in a directory; in the working directory it is the bare name. -/
def inside (directory name : String) : String :=
  if Path.components directory = [.here] then name else Path.join directory name

def fileName (path : String) : List Char := ((Path.fileName? path).getD "").toList

variable {m : Type → Type} [Monad m] (files : FileReader m)

def isDirectory (path : String) : m Bool := do return (← files.entries path).isSome

/-- The paths that the rest of a pattern matches, from a path that the pieces before it match. -/
def matchesFrom (directoriesOnly : Bool) : List (List PatternToken) → String → m (List String)
  | [], path => do
    if directoriesOnly && !(← isDirectory files path) then return [] else return [path]
  | [.directories] :: [], path => do
    let found ← files.below path
    return (found.filter Prod.snd).map fun (name, _) => inside path name
  | [.directories] :: next :: rest, path => do
    if next = [.directories] then matchesFrom directoriesOnly (next :: rest) path
    else
      let found ← files.below path
      found.flatMapM fun (name, _) => do
        let path := inside path name
        if Pattern.isMatch next (fileName path) then matchesFrom directoriesOnly rest path
        else return []
  | piece :: rest, path => do
    match Pattern.literal? piece with
    | some name =>
      let next := inside path (String.ofList name)
      let isThere ←
        if name = ['.'] || name = ['.', '.'] then isDirectory files path
        else files.isPresent next
      if isThere then matchesFrom directoriesOnly rest next else return []
    | none =>
      match ← files.entries path with
      | none => return []
      | some names =>
        let named ← names.flatMapM fun name => do
          if Pattern.isMatch piece name.toList then
            matchesFrom directoriesOnly rest (inside path name)
          else return []
        let special ← [".", ".."].flatMapM fun name => do
          if piece.head? = some (.char '.') && Pattern.isMatch piece name.toList then
            matchesFrom directoriesOnly rest (Path.join path name)
          else return []
        return named ++ special

def paths (g : Glob) : m (List String) := do
  let found ← matchesFrom files g.directoriesOnly g.pieces (if g.isAbsolute then "/" else ".")
  return found.mergeSort fun a b => Path.compare a b != .gt

end Glob

inductive PathError
  | malformed (e : PatternError)
  | noMatch (pattern : String)
deriving DecidableEq

def PathError.message : PathError → String
  | .malformed e => e.message
  | .noMatch pattern => "glob pattern matched no files: " ++ pattern

variable {m : Type → Type} [Monad m] (files : FileReader m)

def expandPath (s : String) : m (Except PathError (List String)) := do
  if Pattern.isPattern s then
    match Glob.ofText s with
    | .error e => return .error (.malformed e)
    | .ok g =>
      match ← g.paths files with
      | [] => return .error (.noMatch s)
      | paths => return .ok paths
  else return .ok [s]

def expandPaths : List String → m (Except PathError (List String))
  | [] => return .ok []
  | s :: rest => do
    match ← expandPath files s with
    | .error e => return .error e
    | .ok paths => return (← expandPaths rest).map (paths ++ ·)

end InterfaceGen.Files
