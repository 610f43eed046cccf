import InterfaceGen.Command.Arguments
import InterfaceGen.Command.Compile
import InterfaceGen.Command.Dump

/-!
# Running a command

What a request compiles to is handed out piece by piece until one fails. The report of a run
holds its exit code and what goes to the two output streams.
-/

namespace InterfaceGen.Command

variable {m : Type → Type} [Monad m]

def Delivery.perform (files : Files.FileWriter m) : Delivery → m (Except Failure String)
  | .print text => return .ok (text ++ "\n")
  | .write path text => do
    let parent := (Files.Path.parent? path).getD ""
    match ← files.makeDirectories parent with
    | .error e => return .error (.makeDirectory parent e)
    | .ok () =>
      match ← files.write path text with
      | .error e => return .error (.write path e)
      | .ok () => return .ok ""

def performAll (files : Files.FileWriter m) : List Delivery → m (String × Option Failure)
  | [] => return ("", none)
  | d :: rest => do
    match ← d.perform files with
    | .error e => return ("", some e)
    | .ok printed =>
      let (others, failure) ← performAll files rest
      return (printed ++ others, failure)

structure Outcome where
  stdout : String
  dump : Option String
  progress : List Progress
  failure : Option Failure

/-- Runs a request. `compiled` is what its settings compile to with the files that are there. -/
def Request.run (r : Request) (files : Files.FileWriter m)
    (compiled : m (List Progress × Except Failure (List Delivery))) : m Outcome := do
  if r.settings.noOp then return ⟨"", some r.dump, [], none⟩
  else
    match ← compiled with
    | (progress, .error e) => return ⟨"", none, progress, some e⟩
    | (progress, .ok deliveries) =>
      let (stdout, failure) ← performAll files deliveries
      return ⟨stdout, none, progress, failure⟩

/-- Runs a request on a file tree, and returns the tree as it is then. -/
def Request.runWith (engine : Query.Engine) (r : Request) (t : Files.FileTree) :
    Outcome × Files.FileTree :=
  r.run Files.FileTree.writer (fun t => (compile engine t.reader r.settings, t)) t

def Request.runOn : Request → Files.FileTree → Outcome × Files.FileTree :=
  Request.runWith Query.interpreter

/-! ### Reports -/

def Progress.line (p : Progress) : String :=
  "INFO schema_iface::cli: generated path=" ++ p.path ++ " relations=" ++ p.relations.repr

def chainLines : List String → List String
  | [] => []
  | error :: causes => ("error: " ++ error) :: causes.map ("  caused by: " ++ ·)

structure Report where
  exitCode : Nat
  stdout : String
  stderr : String

def textOfLines (lines : List String) : String := String.join (lines.map (· ++ "\n"))

/-- Progress is only told when it is asked for. -/
def Outcome.report (o : Outcome) (verbose : Bool) : Report where
  exitCode := if o.failure.isSome then 1 else 0
  stdout := o.stdout
  stderr := textOfLines
    (o.dump.toList ++ (if verbose then o.progress.map Progress.line else []) ++
      match o.failure with
      | none => []
      | some e => chainLines e.chain)

def versionText : String := "schema-iface 0.1.0"

def usageText : String := "Usage: schema-iface [OPTIONS] <COMMAND>"

def UsageError.message : UsageError → String
  | .nothingGiven => usageText
  | .missingCommand => "error: a command is required"
  | .unknownCommand => "error: there is no such command"
  | .unknownArgument => "error: unexpected argument"
  | .missingInput => "error: --input is required"
  | .invalidValue => "error: a value is missing or empty"
  | .repeatedArgument => "error: an argument cannot be given twice"
  | .unexpectedValue => "error: a flag takes no value"
  | .helpAsked => usageText
  | .versionAsked => versionText

/-- Help and the version are answers, everything else is an error. -/
def UsageError.report (e : UsageError) : Report :=
  match e with
  | .helpAsked => ⟨0, textOfLines [e.message], ""⟩
  | .versionAsked => ⟨0, textOfLines [e.message], ""⟩
  | e => ⟨2, "", textOfLines [e.message]⟩

def execute (t : Files.FileTree) (arguments : List String) : Report × Files.FileTree :=
  match Request.ofArguments arguments with
  | .error e => (e.report, t)
  | .ok r =>
    let (outcome, t') := r.runOn t
    (outcome.report r.verbose, t')

end InterfaceGen.Command
