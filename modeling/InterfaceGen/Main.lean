import InterfaceGen.Command.Run

/-!
# The program

Reads and writes the files of the system, and runs the command line that the program is given.
-/

namespace InterfaceGen.Main

open Files (SystemError Content FileReader FileWriter)

def systemError : IO.Error → SystemError
  | .noFileOrDirectory .. => .notFound
  | .alreadyExists .. => .alreadyExists
  | .inappropriateType _ _ details =>
    if details = "is a directory" then .isADirectory else .notADirectory
  | .invalidArgument _ 36 _ => .nameTooLong
  | e => .other (toString e)

def attempt {α : Type} (action : IO α) : IO (Except SystemError α) := do
  match ← action.toBaseIO with
  | .ok a => return .ok a
  | .error e => return .error (systemError e)

/-- An action on a path, unless there is something wrong with the path itself. -/
def attemptAt {α : Type} (path : String) (action : IO α) : IO (Except SystemError α) := do
  match SystemError.ofPath? path with
  | some e => return .error e
  | none => attempt action

def entries (path : String) : IO (Option (List String)) := do
  let directory : IO.FS.DirEntry := ⟨path, ""⟩
  match ← attemptAt path directory.root.readDir with
  | .ok found => return some (found.toList.map IO.FS.DirEntry.fileName)
  | .error _ => return none

def read (path : String) : IO (Except SystemError String) := do
  if (← entries path).isSome then return .error .isADirectory
  else
    match ← attemptAt path (IO.FS.readBinFile path) with
    | .ok bytes => return (Content.ofBytes bytes).toText
    | .error e => return .error e

def isPresent (path : String) : IO Bool := do
  if (← entries path).isSome then return true
  else
    return (← attemptAt path (IO.FS.withFile path .read fun _ => pure ())).toOption.isSome

partial def below (path : String) : IO (List (String × Bool)) := do
  let names := (← entries path).getD []
  names.flatMapM fun name => do
    let inner := Files.Path.join path name
    let isDirectory := (← entries inner).isSome
    let found ← below inner
    return (name, isDirectory) :: found.map fun (rest, d) => (Files.Path.join name rest, d)

def reader : FileReader IO := { read, isPresent, entries, below }

def writer : FileWriter IO where
  makeDirectories path := do
    if path.isEmpty then return .ok () else attemptAt path (IO.FS.createDirAll path)
  write path text := attemptAt path (IO.FS.writeFile path text)

def execute (arguments : List String) : IO Command.Report := do
  match Command.Request.ofArguments arguments with
  | .error e => return e.report
  | .ok r =>
    let outcome ← r.run writer (Command.compile Query.interpreter reader r.settings)
    return outcome.report r.verbose

end InterfaceGen.Main

def main (arguments : List String) : IO UInt32 := do
  let report ← InterfaceGen.Main.execute arguments
  IO.print report.stdout
  IO.eprint report.stderr
  return report.exitCode.toUInt32
