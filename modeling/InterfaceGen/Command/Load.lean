import InterfaceGen.Command.Request
import InterfaceGen.Files.Reader
import InterfaceGen.Json.Pointer
import InterfaceGen.Query.Run
import InterfaceGen.Schema.OfValue

/-!
# Loading schemas

A schema is a part of a JSON file. A pointer selects it first, if there is one, and then a query,
which `engine` works out, makes it of what the pointer selected.
-/

namespace InterfaceGen.Command

inductive LoadError
  | unreadable (e : Files.SystemError)
  | malformed (fault : Json.Fault)
  | selectsNothing (pointer : String)
  | query (e : Query.Error)
  | resultCount (count : Nat)
  | refused (fault : Json.Fault)

def LoadError.chain : LoadError → List String
  | .unreadable e => ["failed to read source file", e.message]
  | .malformed fault => ["failed to parse JSON", fault.cause.message]
  | .selectsNothing pointer => ["JSON pointer " ++ pointer ++ " selects nothing"]
  | .query e => "failed to apply jq expression" :: e.chain
  | .resultCount count =>
    ["jq expression must yield exactly one schema, got " ++ count.repr]
  | .refused fault => [fault.message]

def selectPart (pointer : Option String) (document : Json.Value) :
    Except LoadError Json.Value :=
  match pointer with
  | none => .ok document
  | some pointer =>
    match document.select? pointer with
    | some v => .ok v
    | none => .error (.selectsNothing pointer)

variable (engine : Query.Engine)

def applyQuery (query : Option String) (document : Json.Value) : Except LoadError Json.Value :=
  match query with
  | none => .ok document
  | some query =>
    match Query.runWith engine query document with
    | .error e => .error (.query e)
    | .ok [v] => .ok v
    | .ok results => .error (.resultCount results.length)

def schemaOfSource (pointer query : Option String) (source : String) :
    Except LoadError Schema := do
  let document ← (Json.Value.ofText source).mapError .malformed
  let part ← selectPart pointer document
  let v ← applyQuery engine query part
  (Schema.ofValue v).mapError .refused

def schemaOfFile (pointer query : Option String) (content : Except Files.SystemError String) :
    Except LoadError Schema :=
  match content with
  | .error e => .error (.unreadable e)
  | .ok source => schemaOfSource engine pointer query source

end InterfaceGen.Command
