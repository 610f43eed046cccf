import InterfaceGen.Json.Fault
import InterfaceGen.Schema.Basic

/-!
# Drafts

The fields of a schema or property under way: which have been read so far, and what they say. A
draft is finished where the members or items of its value end. Both spellings of a description
are covered: an object with the fields by name, and an array with the fields in order.
-/

namespace InterfaceGen

open Json (Cause)

namespace Property

inductive Field
  | title
  | type
  | enumValues
  | properties
  | required
  | foreignKey
  | foreignKeyType
deriving DecidableEq

namespace Field

def all : List Field :=
  [.title, .type, .enumValues, .properties, .required, .foreignKey, .foreignKeyType]

def key : Field → String
  | .title => "title"
  | .type => "type"
  | .enumValues => "enum"
  | .properties => "properties"
  | .required => "required"
  | .foreignKey => "foreignKey"
  | .foreignKeyType => "foreignKeyType"

def ofKey? (name : String) : Option Field := all.find? fun f => f.key == name

def ofIndex? (i : Nat) : Option Field := all[i]?

end Field

/-- A field that has been read is `some`, even if its value is a null. -/
structure Draft where
  title : Option (Option String) := none
  type : Option TypeDecl := none
  enumValues : Option (Option EnumValues) := none
  properties : Option (Option Properties) := none
  required : Option (Option (List String)) := none
  foreignKey : Option (Option String) := none
  foreignKeyType : Option (Option Cardinality) := none

namespace Draft

def has (d : Draft) : Field → Bool
  | .title => d.title.isSome
  | .type => d.type.isSome
  | .enumValues => d.enumValues.isSome
  | .properties => d.properties.isSome
  | .required => d.required.isSome
  | .foreignKey => d.foreignKey.isSome
  | .foreignKeyType => d.foreignKeyType.isSome

def finish (missing : Cause) (d : Draft) : Except Cause Property :=
  match d.type with
  | none => .error missing
  | some type =>
    .ok { title := d.title.join
          type := type
          enumValues := d.enumValues.join
          properties := d.properties.join
          required := d.required.join
          foreignKey := d.foreignKey.join
          foreignKeyType := d.foreignKeyType.join }

end Draft

def wanted : String := "struct Property"

/-- The fault of an object that ends without a type. -/
def missingType : Cause := .missingField Field.type.key

/-- The fault of an array that ends before its type. -/
def tooShort : Cause := .tooFewItems 1 "struct Property with 7 elements"

end Property

namespace Schema

inductive Field
  | type
  | properties
  | required
deriving DecidableEq

namespace Field

def all : List Field := [.type, .properties, .required]

def key : Field → String
  | .type => "type"
  | .properties => "properties"
  | .required => "required"

def ofKey? (name : String) : Option Field := all.find? fun f => f.key == name

def ofIndex? (i : Nat) : Option Field := all[i]?

end Field

structure Draft where
  type : Option String := none
  properties : Option Properties := none
  required : Option (Option (List String)) := none

namespace Draft

def has (d : Draft) : Field → Bool
  | .type => d.type.isSome
  | .properties => d.properties.isSome
  | .required => d.required.isSome

def finish (d : Draft) : Schema :=
  ⟨d.type.getD defaultType, d.properties.getD [], d.required.join⟩

end Draft

def wanted : String := "struct Schema"

end Schema

namespace TypeDecl

def wanted : Cause := .noAlternative "TypeDecl"

end TypeDecl

namespace Cardinality

def unknown (name : String) : Cause := .unknownVariant name (all.map Cardinality.name)

def ofName (name : String) : Except Cause Cardinality :=
  match ofName? name with
  | some kind => .ok kind
  | none => .error (unknown name)

end Cardinality

end InterfaceGen
