import InterfaceGen.Command.Load
import InterfaceGen.Command.Name
import InterfaceGen.Files.Glob
import InterfaceGen.Interface.Emission

/-!
# Compiling inputs

All inputs are loaded, then all declarations are named, then all are generated. The first error
of the first stage that has one stops the command before anything is written.
-/

namespace InterfaceGen.Command

inductive Failure
  | paths (e : Files.PathError)
  | load (path : String) (e : LoadError)
  | name (e : NameError)
  | generation (path : String) (e : GenerationError)
  | makeDirectory (path : String) (e : Files.SystemError)
  | write (path : String) (e : Files.SystemError)

def Failure.chain : Failure → List String
  | .paths e => ["failed to resolve input file paths: " ++ e.message]
  | .load path e => ("failed to load schema (" ++ path ++ ")") :: e.chain
  | .name e => [e.message]
  | .generation path e => ["failed to generate (" ++ path ++ ")", e.message]
  | .makeDirectory path e => ["failed to create " ++ path, e.message]
  | .write path e => ["failed to write " ++ path, e.message]

structure Source where
  path : String
  schema : Schema

/-- Progress of a command: an input was generated, with so many relations. -/
structure Progress where
  path : String
  relations : Nat
deriving DecidableEq

variable {m : Type → Type} [Monad m] (engine : Query.Engine) (files : Files.FileReader m)

def loadAll (s : Settings) : List String → m (Except Failure (List Source))
  | [] => return .ok []
  | path :: rest => do
    match schemaOfFile engine s.jsonPointer s.query (← files.read path) with
    | .error e => return .error (.load path e)
    | .ok schema => return (← loadAll s rest).map (⟨path, schema⟩ :: ·)

def nameAll (given : Option String) (inputs : Nat) :
    List Source → Except Failure (List (String × Source))
  | [] => .ok []
  | source :: rest => do
    let name ← (declarationName given source.path inputs).mapError .name
    return (name, source) :: (← nameAll given inputs rest)

/-- The emissions of all inputs, with the progress made until the first error. -/
def generateAll : List (String × Source) → List Progress × Except Failure (List Emission)
  | [] => ([], .ok [])
  | (name, source) :: rest =>
    match generate name source.schema with
    | .error e => ([], .error (.generation source.path e))
    | .ok emission =>
      let (progress, result) := generateAll rest
      (⟨source.path, emission.relations.size⟩ :: progress, result.map (emission :: ·))

inductive Delivery
  | print (text : String)
  | write (path text : String)
deriving DecidableEq

def Delivery.to (out : Option String) (text : String) : Delivery :=
  match out with
  | none => .print text
  | some path => .write path text

/-- The declarations in one text, and the relations of all inputs in one table if they are asked
for. -/
def deliveries (s : Settings) (emissions : List Emission) : List Delivery :=
  let source := declarationSeparator.intercalate (emissions.map Emission.source)
  let table := emissions.foldl (fun t e => t.merge e.relations) RelationTable.empty
  Delivery.to s.out source :: s.relations.toList.map fun path => .write path table.toJson.prettyText

def compile (s : Settings) : m (List Progress × Except Failure (List Delivery)) := do
  match ← Files.expandPaths files s.inputs with
  | .error e => return ([], .error (.paths e))
  | .ok paths =>
    match ← loadAll engine files s paths with
    | .error e => return ([], .error e)
    | .ok sources =>
      match nameAll s.name sources.length sources with
      | .error e => return ([], .error e)
      | .ok named =>
        let (progress, result) := generateAll named
        return (progress, result.map (deliveries s))

end InterfaceGen.Command
