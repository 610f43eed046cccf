import InterfaceGen.Command.Request
import InterfaceGen.Text.Quoted

/-!
# Showing a request

The dump of a request, with every entry of a record or list on a line of its own.
-/

namespace InterfaceGen.Command

inductive Shown
  | plain (text : String)
  | wrapped (name : String) (inner : Shown)
  | list (items : List Shown)
  | record (name : String) (fields : List (String × Shown))

namespace Shown

def indentation (level : Nat) : String := String.ofList (List.replicate (4 * level) ' ')

/-- Entries one level further in, each on a line that ends in a comma. -/
def block (level : Nat) (entries : List String) : String :=
  "\n" ++ String.join (entries.map fun e => indentation (level + 1) ++ e ++ ",\n") ++
    indentation level

mutual

def render (level : Nat) : Shown → String
  | .plain text => text
  | .wrapped name inner => name ++ "(" ++ block level [inner.render (level + 1)] ++ ")"
  | .list items => "[" ++ block level (renderAll (level + 1) items) ++ "]"
  | .record name fields =>
    name ++ " \x7b" ++ block level (renderFields (level + 1) fields) ++ "\x7d"

def renderAll (level : Nat) : List Shown → List String
  | [] => []
  | item :: rest => item.render level :: renderAll level rest

def renderFields (level : Nat) : List (String × Shown) → List String
  | [] => []
  | (name, value) :: rest => (name ++ ": " ++ value.render level) :: renderFields level rest

end

def ofText (s : String) : Shown := .plain (Text.quoted s)

def ofOption : Option String → Shown
  | none => .plain "None"
  | some s => .wrapped "Some" (ofText s)

def ofBool (b : Bool) : Shown := .plain (if b then "true" else "false")

end Shown

def Settings.shown (s : Settings) : Shown :=
  .record "InterfaceOut"
    [("input_settings", .record "InputSettings"
        [("json_pointer", .ofOption s.jsonPointer),
          ("jq_expr", .ofOption s.query),
          ("input", .list (s.inputs.map .ofText))]),
      ("name", .ofOption s.name),
      ("out", .ofOption s.out),
      ("relations", .ofOption s.relations),
      ("no_op", .ofBool s.noOp)]

def Request.dump (r : Request) : String :=
  (Shown.record "CommandLineInterface"
    [("verbose", .ofBool r.verbose),
      ("cmd", .wrapped "Interface" r.settings.shown)]).render 0

end InterfaceGen.Command
