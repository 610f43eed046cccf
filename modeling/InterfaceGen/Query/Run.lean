import InterfaceGen.Json.Reader
import InterfaceGen.Query.Evaluation
import InterfaceGen.Query.Grammar
import InterfaceGen.Query.Scope

/-!
# Running queries

A query is read, its names are checked, and then it is run on a document. Every result comes as a
text and is read again as JSON, before the next one is worked out. Who works the results out is left
open: `interpreter` is one that knows the terms of this library.
-/

namespace InterfaceGen.Query

inductive Error
  | unreadable
  /-- Names that nothing binds, in a query with this text. -/
  | unbound (source : String) (names : List Name)
  | failed (failure : Failure)
  | notJson (text : String) (fault : Json.Fault)

def Error.message : Error → String
  | .unreadable => "the query cannot be read"
  | .unbound source names => String.join (names.map (Name.report source))
  | .failed failure => String.ofList failure.message
  | .notJson text _ => "jq produced non-JSON output: " ++ text

def Error.chain (e : Error) : List String :=
  match e with
  | .notJson _ fault => [e.message, fault.cause.message]
  | _ => [e.message]

/-- Calls may be nested this deep, which is deeper than any query can get. -/
def greatestCallDepth : Nat := 1000000000000000000

/-- The texts of the results of a query on a document, or why it cannot be run. -/
abbrev Engine := String → Json.Value → Except Error (Results String)

def interpreter : Engine := fun query document =>
  match Term.ofText? query with
  | none => .error .unreadable
  | some t =>
    match t.unbound Name.outermost with
    | [] =>
      .ok ((t.eval (Machine.ofDepth greatestCallDepth) Scope.outermost (.ofJson document)).map
        fun v => String.ofList v.text)
    | names => .error (.unbound query names)

def readBack (text : String) : Except Error Json.Value :=
  (Json.Value.ofText text).mapError (.notJson text)

/-- Reads the results back one after the other, after those seen before, of which the latest is
the first. -/
def readAll (seen : List Json.Value) : Results String → Except Error (List Json.Value)
  | .empty => .ok seen.reverse
  | .fail e => .error (.failed e)
  | .last text => (readBack text).map fun x => (x :: seen).reverse
  | .more text rest =>
    match readBack text with
    | .error e => .error e
    | .ok x => readAll (x :: seen) (rest ())
  | .later results => readAll seen (results ())

def runWith (engine : Engine) (query : String) (document : Json.Value) :
    Except Error (List Json.Value) := do
  readAll [] (← engine query document)

def run : String → Json.Value → Except Error (List Json.Value) := runWith interpreter

end InterfaceGen.Query
