import InterfaceGen.Relation.Table
import InterfaceGen.Schema.Basic
import InterfaceGen.Interface.Member
import InterfaceGen.Text.Offset
import InterfaceGen.Text.UpperCase

/-!
# Relation fields

A property that carries a foreign key gets a second member beside it, which refers to the type
of the related object.
-/

namespace InterfaceGen

/-- Writes the words of a hyphenated text together, each with a capital. `start` says whether
the next character begins a word. -/
def joinWords (start : Bool) : List Char → List Char
  | [] => []
  | c :: cs =>
    if c = '-' then joinWords true cs
    else if start then Text.upperForm c ++ joinWords false cs
    else c :: joinWords false cs

/-- The type name that belongs to a foreign key: `user-profile` refers to `UserProfile`. -/
def relatedTypeName (foreignKey : String) : String :=
  String.ofList (joinWords true foreignKey.toList)

namespace Relation

/-- A property key without its last two characters, `Id` as a rule; `none` if the cut would
fall inside a character. A key of at most two characters is kept. -/
def stem? (key : String) : Option (List Char) :=
  match (Text.offsets 0 key.toList).reverse[1]? with
  | some (offset, _) => if 0 < offset then Text.before? offset key.toList else some key.toList
  | none => some key.toList

def pluralize (kind : Cardinality) (stem : List Char) : List Char :=
  if kind = .oneToMany ∧ stem.getLast? ≠ some 's' then stem ++ ['s'] else stem

def nameFor (key : String) (kind : Cardinality) : String :=
  String.ofList (pluralize kind ((stem? key).getD key.toList))

end Relation

/-- What a property with a foreign key adds to a declaration. -/
structure Relation where
  fieldName : String
  isRequired : Bool
  typeName : String
  foreignKey : String
  kind : Cardinality
  nullable : Bool
deriving DecidableEq

namespace Relation

def ofProperty? (key : String) (p : Property) (required : Option (List String)) :
    Option Relation :=
  p.foreignKeyHint.map fun (foreignKey, kind) =>
    { fieldName := nameFor key kind
      isRequired := isListed required key
      typeName := relatedTypeName foreignKey
      foreignKey := foreignKey
      kind := kind
      nullable := p.type.isNullablePair }

def expression (r : Relation) : String :=
  r.typeName ++ (if r.kind = .oneToMany then "[]" else "") ++
    (if r.nullable then unionSeparator ++ nullText else "")

def declaration (r : Relation) : String :=
  memberDeclaration r.fieldName r.isRequired r.expression

def overwriting (r : Relation) (table : RelationTable) : List Event :=
  match table.get? r.typeName with
  | some previous =>
    if previous = r.foreignKey then [] else [.overwritten r.typeName previous r.foreignKey]
  | none => []

end Relation

def relationEvents (key : String) (p : Property) (required : Option (List String))
    (table : RelationTable) : List Event :=
  match Relation.ofProperty? key p required with
  | none => []
  | some r => r.overwriting table

def relationField (key : String) (p : Property) (required : Option (List String))
    (table : RelationTable) : Option String × RelationTable :=
  match Relation.ofProperty? key p required with
  | none => (none, table)
  | some r => (some r.declaration, table.insert r.typeName r.foreignKey)

end InterfaceGen
