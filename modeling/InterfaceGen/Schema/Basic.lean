import InterfaceGen.OrderedMap

/-!
# Schemas

A schema describes an object by its properties in order. A property declares its type by one tag
or by a list of alternatives; the tags are kept as written, known or not.
-/

namespace InterfaceGen

inductive Tag
  | string
  | number
  | object
  | boolean
  | null
deriving DecidableEq

def Tag.name : Tag → String
  | .string => "string"
  | .number => "number"
  | .object => "object"
  | .boolean => "boolean"
  | .null => "null"

def Tag.all : List Tag := [.string, .number, .object, .boolean, .null]

def Tag.ofName? (s : String) : Option Tag := Tag.all.find? fun t => t.name == s

theorem Tag.ofName?_name (t : Tag) : Tag.ofName? t.name = some t := by cases t <;> decide

inductive TypeDecl
  | single (tag : String)
  | alternatives (tags : List String)
deriving DecidableEq

namespace TypeDecl

def ofTag (t : Tag) : TypeDecl := .single t.name

def ofPair (a b : Tag) : TypeDecl := .alternatives [a.name, b.name]

def tags : TypeDecl → List String
  | .single tag => [tag]
  | .alternatives tags => tags

/-- A list of two tags one of which is `null`. -/
def isNullablePair : TypeDecl → Bool
  | .single _ => false
  | .alternatives tags => tags.length == 2 && tags.contains Tag.null.name

def text : TypeDecl → String
  | .single tag => "\"" ++ tag ++ "\""
  | .alternatives tags =>
    "[" ++ ", ".intercalate (tags.map fun t => "\"" ++ t ++ "\"") ++ "]"

end TypeDecl

inductive Cardinality
  | oneToMany
  | manyToOne
  | oneToOne
deriving DecidableEq

def Cardinality.name : Cardinality → String
  | .oneToMany => "one-to-many"
  | .manyToOne => "many-to-one"
  | .oneToOne => "one-to-one"

def Cardinality.all : List Cardinality := [.oneToMany, .manyToOne, .oneToOne]

def Cardinality.ofName? (s : String) : Option Cardinality :=
  Cardinality.all.find? fun c => c.name == s

theorem Cardinality.ofName?_name (c : Cardinality) : Cardinality.ofName? c.name = some c := by
  cases c <;> decide

/-- The members of an enumeration; a null member is `none`. -/
abbrev EnumValues := List (Option String)

structure Property where
  title : Option String
  type : TypeDecl
  enumValues : Option EnumValues
  properties : Option (List (String × Property))
  /-- Names among this property's own `properties`. -/
  required : Option (List String)
  foreignKey : Option String
  foreignKeyType : Option Cardinality

abbrev Properties := OrderedMap Property

structure Schema where
  type : String
  properties : Properties
  required : Option (List String)

def isListed (required : Option (List String)) (name : String) : Bool :=
  match required with
  | none => false
  | some names => names.contains name

namespace Property

/-- A property has what each property has that inherits it from the properties directly below. -/
theorem nested_induction {motive : Property → Prop}
    (step : ∀ p : Property,
      (∀ entries, p.properties = some entries → ∀ entry ∈ entries, motive entry.2) → motive p)
    (p : Property) : motive p := by
  refine @Property.rec motive
    (fun below => ∀ entries, below = some entries → ∀ entry ∈ entries, motive entry.2)
    (fun entries => ∀ entry ∈ entries, motive entry.2) (fun entry => motive entry.2)
    ?_ ?_ ?_ ?_ ?_ ?_ p
  · intro title type enumValues properties required foreignKey foreignKeyType below
    exact step _ below
  · intro entries h
    cases h
  · intro entries below others h
    cases h
    exact below
  · intro entry member
    cases member
  · intro head tail atHead inTail entry member
    rcases List.mem_cons.mp member with rfl | later
    · exact atHead
    · exact inTail entry later
  · intro name p h
    exact h

def ofType (type : TypeDecl) : Property := ⟨none, type, none, none, none, none, none⟩

def nullable (t : Tag) : Property := ofType (.ofPair t .null)

def withTitle (p : Property) (title : String) : Property := { p with title := some title }

def withEnum (p : Property) (values : EnumValues) : Property :=
  { p with enumValues := some values }

def withProperties (p : Property) (entries : List (String × Property)) : Property :=
  { p with properties := some (OrderedMap.ofEntries entries) }

def withRequired (p : Property) (names : List String) : Property :=
  { p with required := some names }

def withForeignKey (p : Property) (key : String) (kind : Cardinality) : Property :=
  { p with foreignKey := some key, foreignKeyType := some kind }

/-- Both halves of a foreign key; one half alone says nothing. -/
def foreignKeyHint (p : Property) : Option (String × Cardinality) :=
  match p.foreignKey, p.foreignKeyType with
  | some key, some kind => some (key, kind)
  | _, _ => none

end Property

namespace Schema

def defaultType : String := Tag.object.name

/-- An object with these properties; of a name that is given twice the last property counts. -/
def object (entries : List (String × Property)) : Schema :=
  ⟨defaultType, OrderedMap.ofEntries entries, none⟩

def withRequired (s : Schema) (names : List String) : Schema := { s with required := some names }

def isRequired (s : Schema) (name : String) : Bool := isListed s.required name

end Schema

end InterfaceGen
