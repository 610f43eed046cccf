import InterfaceGen.Command.Request

/-!
# Command lines

Arguments are read from left to right. A setting waits for its values until something else is
named, and only then is it settled; what is wrong with an argument itself is noticed at once.
-/

namespace InterfaceGen.Command

inductive Setting
  | jsonPointer
  | query
  | input
  | name
  | out
  | relations
deriving DecidableEq

inductive Flag
  | verbose
  | noOp
  | help
  | version
deriving DecidableEq

inductive Switch
  | flag (f : Flag)
  | setting (s : Setting)
deriving DecidableEq

structure Vocabulary where
  long : List (String × Switch)
  short : List (Char × Switch)

def Vocabulary.top : Vocabulary where
  long := [("verbose", .flag .verbose), ("help", .flag .help), ("version", .flag .version)]
  short := [('v', .flag .verbose), ('h', .flag .help), ('V', .flag .version)]

def Vocabulary.interface : Vocabulary where
  long :=
    [("verbose", .flag .verbose), ("help", .flag .help), ("no-op", .flag .noOp),
      ("json-pointer", .setting .jsonPointer), ("jq-expr", .setting .query),
      ("input", .setting .input), ("name", .setting .name), ("out", .setting .out),
      ("relations", .setting .relations)]
  short :=
    [('v', .flag .verbose), ('h', .flag .help), ('i', .setting .input), ('o', .setting .out)]

def Setting.takesMany : Setting → Bool
  | .input => true
  | _ => false

def Setting.accepts : Setting → String → Bool
  | .out, value => value ≠ ""
  | .relations, value => value ≠ ""
  | _, _ => true

structure Reading where
  flags : List Flag
  settled : List (Setting × List String)
  /-- A setting that may take further values. -/
  pending : Option (Setting × List String)

namespace Reading

def empty : Reading := ⟨[], [], none⟩

def values (r : Reading) (s : Setting) : List String :=
  r.settled.flatMap fun (s', values) => if s' = s then values else []

def settle (r : Reading) (s : Setting) (values : List String) : Except UsageError Reading :=
  if values.isEmpty then .error .invalidValue
  else if !s.takesMany && r.settled.any (fun entry => entry.1 = s) then .error .repeatedArgument
  else if values.all s.accepts then .ok { r with settled := r.settled ++ [(s, values)] }
  else .error .invalidValue

def settlePending (r : Reading) : Except UsageError Reading :=
  match r.pending with
  | none => .ok r
  | some (s, values) => { r with pending := none }.settle s values

def raise (r : Reading) (f : Flag) : Except UsageError Reading := do
  let r ← r.settlePending
  match f with
  | .help => .error .helpAsked
  | .version => .error .versionAsked
  | f => if f ∈ r.flags then .error .repeatedArgument else .ok { r with flags := f :: r.flags }

def await (r : Reading) (s : Setting) : Except UsageError Reading := do
  let r ← r.settlePending
  return { r with pending := some (s, []) }

def attach (r : Reading) (s : Setting) (value : String) : Except UsageError Reading := do
  (← r.settlePending).settle s [value]

/-- An argument that names nothing is a value, if one is waited for. -/
def takeValue (r : Reading) (value : String) : Except UsageError Reading :=
  match r.pending with
  | none => .error .unknownArgument
  | some (s, values) =>
    if s.takesMany || values.isEmpty then .ok { r with pending := some (s, values ++ [value]) }
    else .error .unknownArgument

def readLong (v : Vocabulary) (s : List Char) (r : Reading) : Except UsageError Reading :=
  let name := String.ofList (s.takeWhile (· ≠ '='))
  match v.long.lookup name, s.dropWhile (· ≠ '=') with
  | none, _ => .error .unknownArgument
  | some (.flag f), [] => r.raise f
  | some (.flag _), _ :: _ => .error .unexpectedValue
  | some (.setting s), [] => r.await s
  | some (.setting s), _ :: value => r.attach s (String.ofList value)

def readShort (v : Vocabulary) : List Char → Reading → Except UsageError Reading
  | [], r => .ok r
  | c :: rest, r =>
    match v.short.lookup c with
    | none => .error .unknownArgument
    | some (.flag f) => do readShort v rest (← r.raise f)
    | some (.setting s) =>
      match rest with
      | [] => r.await s
      | '=' :: value => r.attach s (String.ofList value)
      | value => r.attach s (String.ofList value)

def read (v : Vocabulary) (argument : String) (r : Reading) : Except UsageError Reading :=
  match argument.toList with
  | '-' :: '-' :: rest => readLong v rest r
  | '-' :: c :: rest => readShort v (c :: rest) r
  | _ => r.takeValue argument

/-- All arguments of a command. Two hyphens alone end the settings, and nothing can follow. -/
def readAll (v : Vocabulary) : List String → Reading → Except UsageError Reading
  | [], r => r.settlePending
  | argument :: rest, r =>
    if argument = "--" then if rest.isEmpty then r.settlePending else .error .unknownArgument
    else do readAll v rest (← r.read v argument)

def settings (r : Reading) : Except UsageError Settings :=
  let first (s : Setting) : Option String := (r.values s).head?
  match r.values .input with
  | [] => .error .missingInput
  | inputs => .ok
    { jsonPointer := first .jsonPointer
      query := first .query
      inputs := inputs
      name := first .name
      out := first .out
      relations := first .relations
      noOp := Flag.noOp ∈ r.flags }

end Reading

def commandName : String := "interface"

def helpName : String := "help"

/-- Help can be asked about everything or about one command, itself included. -/
def helpTopic : List String → UsageError
  | [] => .helpAsked
  | [name] => if name = commandName ∨ name = helpName then .helpAsked else .unknownCommand
  | _ => .unknownCommand

def withoutCommand (r : Reading) : UsageError :=
  if r.flags.isEmpty then .nothingGiven else .missingCommand

def readTop : List String → Reading → Except UsageError Request
  | [], r => .error (withoutCommand r)
  | argument :: rest, r =>
    if argument = "--" then
      match rest with
      | [] => .error (withoutCommand r)
      | name :: _ =>
        .error (if name = commandName ∨ name = helpName then .unknownArgument else .unknownCommand)
    else if argument = commandName then do
      let sub ← Reading.empty.readAll .interface rest
      return ⟨Flag.verbose ∈ r.flags || Flag.verbose ∈ sub.flags, ← sub.settings⟩
    else if argument = helpName then .error (helpTopic rest)
    else
      match argument.toList with
      | '-' :: _ :: _ => do readTop rest (← r.read .top argument)
      | _ => .error .unknownCommand

def Request.ofArguments (arguments : List String) : Except UsageError Request :=
  readTop arguments .empty

end InterfaceGen.Command
