import InterfaceGen.Json.Value
import InterfaceGen.Schema.Draft

/-!
# Schemas from JSON values

The schema that a finished JSON value describes, or the first fault in document order. Members
under unknown keys are ignored; a null stands for an absent field, except for a type and for the
properties of a schema.
-/

namespace InterfaceGen

open Json (Value Cause Fault)

namespace Json.Value

def mismatch {α : Type} (wanted : String) (v : Value) : Except Fault α :=
  .error (.here (.wrongType v.found wanted))

def toText : Value → Except Fault String
  | .string s => .ok s
  | v => v.mismatch "a string"

def toOption {α : Type} (read : Value → Except Fault α) : Value → Except Fault (Option α)
  | .null => .ok none
  | v => (read v).map some

def readEach {α : Type} (read : Value → Except Fault α) (i : Nat) :
    List Value → Except Fault (List α)
  | [] => .ok []
  | v :: rest =>
    match read v with
    | .error f => .error (f.within (.index i))
    | .ok a =>
      match readEach read (i + 1) rest with
      | .error f => .error f
      | .ok as => .ok (a :: as)

def toList {α : Type} (read : Value → Except Fault α) : Value → Except Fault (List α)
  | .array items => readEach read 0 items
  | v => v.mismatch "a sequence"

def toNames : Value → Except Fault (List String) := toList toText

def toEnumValues : Value → Except Fault EnumValues := toList (toOption toText)

/-- A text or an array of texts; whatever is wrong with it is wrong with the whole. -/
def toTypeDecl : Value → Except Fault TypeDecl
  | .string tag => .ok (.single tag)
  | v =>
    match v.toNames with
    | .ok tags => .ok (.alternatives tags)
    | .error _ => .error (.here TypeDecl.wanted)

def toUnit : Value → Except Fault Unit
  | .null => .ok ()
  | v => v.mismatch "unit"

/-- One of the three names, alone or as the only key of an object over a null. -/
def toCardinality : Value → Except Fault Cardinality
  | .string name => (Cardinality.ofName name).mapError Fault.here
  | .object [(name, v)] =>
    match Cardinality.ofName name with
    | .error c => .error (.here c)
    | .ok kind =>
      match v.toUnit with
      | .error f => .error (f.within (.key name))
      | .ok () => .ok kind
  | .object _ => .error (.here .notSingleKey)
  | v => v.mismatch "string or map"

end Json.Value

open Json.Value

section structures

variable {φ δ : Type}

/-- Reads the members of an object into a draft. -/
def readByKey (ofKey? : String → Option φ) (read : φ → δ → Value → Except Fault δ) (d : δ) :
    List (String × Value) → Except Fault δ
  | [] => .ok d
  | (name, v) :: rest =>
    match ofKey? name with
    | none => readByKey ofKey? read d rest
    | some f =>
      match read f d v with
      | .error fault => .error (fault.within (.key name))
      | .ok d' => readByKey ofKey? read d' rest

/-- Reads the items of an array, from index `i` on, into a draft. -/
def readInOrder (fields : List φ) (read : φ → δ → Value → Except Fault δ) (i : Nat) (d : δ) :
    List Value → Except Fault δ
  | [] => .ok d
  | v :: rest =>
    match fields[i]? with
    | none => .ok d
    | some f =>
      match read f d v with
      | .error fault => .error (fault.within (.index i))
      | .ok d' => readInOrder fields read (i + 1) d' rest

end structures

namespace Property

mutual

def readField (f : Field) (d : Draft) (v : Value) : Except Fault Draft :=
  match f with
  | .title => (toOption toText v).map fun x => { d with title := some x }
  | .type => (toTypeDecl v).map fun x => { d with type := some x }
  | .enumValues => (toOption toEnumValues v).map fun x => { d with enumValues := some x }
  | .properties =>
    match v with
    | .null => .ok { d with properties := some none }
    | .object members =>
      (readEntries [] members).map fun x => { d with properties := some (some x) }
    | v => v.mismatch "a map"
  | .required => (toOption toNames v).map fun x => { d with required := some x }
  | .foreignKey => (toOption toText v).map fun x => { d with foreignKey := some x }
  | .foreignKeyType => (toOption toCardinality v).map fun x => { d with foreignKeyType := some x }

-- A field may hold properties again, so the recursion of `readByKey` and `readInOrder` has to be
-- seen here to go down the value.
def readMembers (d : Draft) : List (String × Value) → Except Fault Draft
  | [] => .ok d
  | (name, v) :: rest =>
    match Field.ofKey? name with
    | none => readMembers d rest
    | some f =>
      match readField f d v with
      | .error fault => .error (fault.within (.key name))
      | .ok d' => readMembers d' rest

def readItems (i : Nat) (d : Draft) : List Value → Except Fault Draft
  | [] => .ok d
  | v :: rest =>
    match Field.ofIndex? i with
    | none => .ok d
    | some f =>
      match readField f d v with
      | .error fault => .error (fault.within (.index i))
      | .ok d' => readItems (i + 1) d' rest

def ofValue : Value → Except Fault Property
  | .object members =>
    match readMembers {} members with
    | .error fault => .error fault
    | .ok d => (d.finish missingType).mapError Fault.here
  | .array items =>
    match readItems 0 {} items with
    | .error fault => .error fault
    | .ok d =>
      match d.finish tooShort with
      | .error c => .error (.here c)
      | .ok p =>
        if items.length ≤ Field.all.length then .ok p
        else .error (.here (.tooManyItems items.length))
  | v => v.mismatch wanted

def readEntries (m : Properties) : List (String × Value) → Except Fault Properties
  | [] => .ok m
  | (name, v) :: rest =>
    match ofValue v with
    | .error fault => .error (fault.within (.key name))
    | .ok p => readEntries (m.insert name p) rest

end

end Property

namespace Schema

def readField (f : Field) (d : Draft) (v : Value) : Except Fault Draft :=
  match f with
  | .type => (toText v).map fun x => { d with type := some x }
  | .properties =>
    match v with
    | .object members =>
      (Property.readEntries [] members).map fun x => { d with properties := some x }
    | v => v.mismatch "a map"
  | .required => (toOption toNames v).map fun x => { d with required := some x }

def ofValue : Value → Except Fault Schema
  | .object members => (readByKey Field.ofKey? readField {} members).map Draft.finish
  | .array items =>
    match readInOrder Field.all readField 0 {} items with
    | .error fault => .error fault
    | .ok d =>
      if items.length ≤ Field.all.length then .ok d.finish
      else .error (.here (.tooManyItems items.length))
  | v => v.mismatch wanted

end Schema

end InterfaceGen
