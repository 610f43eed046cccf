import InterfaceGen.Json.Reader
import InterfaceGen.Schema.OfValue

/-!
# Schemas from JSON text

The schema that stands at the front of a JSON text, read as the text goes by and without building
a value of it first. Faults come in the order of the text. The value of an unknown key is passed
over without being decoded, a known key may stand only once, and nothing after the document is
looked at.
-/

namespace InterfaceGen

open Json (Reader Cause Fault SyntaxError Step)

namespace TypeDecl

/-- The value is read in full before it is judged. -/
def reader (room : Nat) : Reader TypeDecl :=
  (Reader.value room).check fun v => v.toTypeDecl.mapError Fault.cause

end TypeDecl

namespace Cardinality

def readKey (s : List Char) : Except Fault (String × List Char) :=
  match Json.skipBlanks s with
  | [] => .error (.here SyntaxError.endInValue)
  | '"' :: rest => (Json.readText [] rest).mapError fun e => Fault.here (.malformed e)
  | '}' :: _ => .error (.here SyntaxError.expectedValue)
  | _ => .error (.here SyntaxError.keyNotString)

def closeRecord (s : List Char) : Except Fault (List Char) :=
  match Json.skipBlanks s with
  | [] => .error (.here SyntaxError.endInObject)
  | '}' :: rest => .ok rest
  | _ => .error (.here SyntaxError.expectedValue)

/-- An object whose only key is a name and whose only value is a null, after its brace. -/
def readRecord (s : List Char) : Except Fault (Cardinality × List Char) :=
  match readKey s with
  | .error f => .error f
  | .ok (name, afterKey) =>
    match ofName name with
    | .error c => .error (.here c)
    | .ok kind =>
      match Json.readColon afterKey with
      | .error e => .error (.here e)
      | .ok afterColon =>
        match Reader.unit.run afterColon with
        | .error f => .error (f.within (.key name))
        | .ok ((), afterValue) => (closeRecord afterValue).map (kind, ·)

def read (room : Nat) (s : List Char) : Except Fault (Cardinality × List Char) :=
  match Json.skipBlanks s with
  | [] => .error (.here SyntaxError.endInValue)
  | '"' :: rest =>
    match Json.readText [] rest with
    | .error e => .error (.here e)
    | .ok (name, rest') =>
      match ofName name with
      | .error c => .error (.here c)
      | .ok kind => .ok (kind, rest')
  | '{' :: rest => if room = 0 then .error (.here SyntaxError.tooDeep) else readRecord rest
  | _ => .error (.here SyntaxError.expectedValue)

theorem length_readKey_lt {s r : List Char} {name : String} (h : readKey s = .ok (name, r)) :
    r.length < s.length := by
  unfold readKey at h
  split at h
  · cases h
  · next rest hs =>
    cases ht : Json.readText [] rest with
    | error e =>
      rw [ht] at h
      cases h
    | ok p =>
      rw [ht] at h
      cases h
      exact Nat.lt_trans (Json.length_readText_lt ht) (Json.length_of_skipBlanks_eq_cons hs)
  · cases h
  · cases h

theorem length_closeRecord_lt {s r : List Char} (h : closeRecord s = .ok r) :
    r.length < s.length := by
  unfold closeRecord at h
  split at h
  · cases h
  · next hs =>
    cases h
    exact Json.length_of_skipBlanks_eq_cons hs
  · cases h

theorem length_readRecord_lt {s r : List Char} {kind : Cardinality}
    (h : readRecord s = .ok (kind, r)) : r.length < s.length := by
  unfold readRecord at h
  split at h
  · cases h
  · next hk =>
    split at h
    · cases h
    · split at h
      · cases h
      · next hc =>
        split at h
        · cases h
        · next afterValue hu =>
          cases he : closeRecord afterValue with
          | error f =>
            rw [he] at h
            cases h
          | ok rest =>
            rw [he] at h
            cases h
            have := length_readKey_lt hk
            have := Json.length_readColon_lt hc
            have := Reader.unit.shorter hu
            have := length_closeRecord_lt he
            omega

theorem length_read_lt {room : Nat} {s r : List Char} {kind : Cardinality}
    (h : read room s = .ok (kind, r)) : r.length < s.length := by
  unfold read at h
  split at h
  · cases h
  · next hs =>
    split at h
    · cases h
    · next ht =>
      split at h <;> cases h
      exact Nat.lt_trans (Json.length_readText_lt ht) (Json.length_of_skipBlanks_eq_cons hs)
  · next hs =>
    split at h
    · cases h
    · exact Nat.lt_trans (length_readRecord_lt h) (Json.length_of_skipBlanks_eq_cons hs)
  · cases h

def reader (room : Nat) : Reader Cardinality := ⟨read room, length_read_lt⟩

end Cardinality

def namesReader (room : Nat) : Reader (List String) := Reader.list room Reader.string

def enumReader (room : Nat) : Reader EnumValues := Reader.list room Reader.string.optional

/-- Reads the fields of a structure spelled as an object: an unknown key is passed over, and a
known one may stand only once. -/
def fieldMembers {φ δ : Type} (ofKey? : String → Option φ) (has : δ → φ → Bool)
    (field : φ → δ → Reader δ) (d : δ) (key : String) : Except Cause (Reader δ) :=
  match ofKey? key with
  | none => .ok (Reader.skip.map fun _ => d)
  | some f => if has d f then .error (.duplicateField key) else .ok (field f d)

namespace Property

def fieldReader (room : Nat) (entries : Reader Properties) (f : Field) (d : Draft) :
    Reader Draft :=
  match f with
  | .title => Reader.string.optional.map fun x => { d with title := some x }
  | .type => (TypeDecl.reader room).map fun x => { d with type := some x }
  | .enumValues => (enumReader room).optional.map fun x => { d with enumValues := some x }
  | .properties => entries.optional.map fun x => { d with properties := some x }
  | .required => (namesReader room).optional.map fun x => { d with required := some x }
  | .foreignKey => Reader.string.optional.map fun x => { d with foreignKey := some x }
  | .foreignKeyType =>
    (Cardinality.reader room).optional.map fun x => { d with foreignKeyType := some x }

def structureReader (field : Field → Draft → Reader Draft) (brackets : Bool) : Reader Property :=
  if brackets then
    (Reader.items (fun i d => (Field.ofIndex? i).map fun f => field f d) {}).check
      (Draft.finish tooShort)
  else
    (Reader.members [Step.unnamed] (fieldMembers Field.ofKey? Draft.has field) {}).check
      (Draft.finish missingType)

mutual

def reader : Nat → Reader Property
  | 0 =>
    Reader.dispatch (Reader.refuse wanted) (.error SyntaxError.tooDeep)
      (.error SyntaxError.tooDeep)
  | room + 1 =>
    let field := fieldReader room (entriesReader room)
    Reader.dispatch (Reader.refuse wanted) (.ok (structureReader field true))
      (.ok (structureReader field false))

/-- Properties by name; a name that occurs again overwrites the property read first. -/
def entriesReader : Nat → Reader Properties
  | 0 =>
    Reader.dispatch (Reader.refuse "a map") (.error (.wrongType .sequence "a map"))
      (.error SyntaxError.tooDeep)
  | room + 1 =>
    Reader.dispatch (Reader.refuse "a map") (.error (.wrongType .sequence "a map"))
      (.ok (Reader.members [Step.unnamed]
        (fun (m : Properties) name => .ok ((reader room).map (m.insert name))) []))

end

def ofText (s : String) : Except Fault Property := (reader Reader.greatestDepth).runAll s

end Property

namespace TypeDecl

def ofText (s : String) : Except Fault TypeDecl := (reader Reader.greatestDepth).runAll s

end TypeDecl

namespace Schema

def fieldReader (room : Nat) (f : Field) (d : Draft) : Reader Draft :=
  match f with
  | .type => Reader.string.map fun x => { d with type := some x }
  | .properties => (Property.entriesReader room).map fun x => { d with properties := some x }
  | .required => (namesReader room).optional.map fun x => { d with required := some x }

def reader : Nat → Reader Schema
  | 0 =>
    Reader.dispatch (Reader.refuse wanted) (.error SyntaxError.tooDeep)
      (.error SyntaxError.tooDeep)
  | room + 1 =>
    Reader.dispatch (Reader.refuse wanted)
      (.ok ((Reader.items
        (fun i d => (Field.ofIndex? i).map fun f => fieldReader room f d) {}).map Draft.finish))
      (.ok ((Reader.members [Step.unnamed]
        (fieldMembers Field.ofKey? Draft.has (fieldReader room)) {}).map Draft.finish))

def ofText (s : String) : Except Fault Schema := (reader Reader.greatestDepth).runFront s

end Schema

end InterfaceGen
