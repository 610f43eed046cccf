import InterfaceGen.Json.Printer
import InterfaceGen.Schema.Basic

/-!
# Schemas as JSON

The JSON value that describes a schema. Members come in a fixed order and an absent one is left
out; only the properties of the schema itself are always there.
-/

namespace InterfaceGen

open Json (Value)

def TypeDecl.toJson : TypeDecl → Value
  | .single tag => .string tag
  | .alternatives tags => .array (tags.map Value.string)

def EnumValues.toJson (values : EnumValues) : Value :=
  .array (values.map fun
    | some s => Value.string s
    | none => Value.null)

def namesToJson (names : List String) : Value := .array (names.map Value.string)

def member? (name : String) : Option Value → List (String × Value)
  | none => []
  | some v => [(name, v)]

mutual

def Property.toJson : Property → Value
  | ⟨title, type, enumValues, properties, required, foreignKey, foreignKeyType⟩ =>
    .object (
      member? "title" (title.map Value.string) ++
      ("type", type.toJson) ::
      member? "enum" (enumValues.map EnumValues.toJson) ++
      member? "properties" (match properties with
        | none => none
        | some entries => some (.object (Property.entriesToJson entries))) ++
      member? "required" (required.map namesToJson) ++
      member? "foreignKey" (foreignKey.map Value.string) ++
      member? "foreignKeyType" (foreignKeyType.map fun kind => Value.string kind.name))

def Property.entriesToJson : List (String × Property) → List (String × Value)
  | [] => []
  | (name, p) :: rest => (name, p.toJson) :: Property.entriesToJson rest

end

def Schema.toJson (s : Schema) : Value :=
  .object (
    ("type", .string s.type) ::
    ("properties", .object (Property.entriesToJson s.properties)) ::
    member? "required" (s.required.map namesToJson))

end InterfaceGen
