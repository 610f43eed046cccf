import InterfaceGen.Json.Value
import InterfaceGen.Text.Split

/-!
# Pointers into a document

A pointer names one value in a document by the keys and places on the way to it, each after a
slash. A slash in a key is written `~1` and a tilde `~0`.
-/

namespace InterfaceGen.Json

def escapeReference : List Char → List Char
  | [] => []
  | c :: rest =>
    if c = '~' then '~' :: '0' :: escapeReference rest
    else if c = '/' then '~' :: '1' :: escapeReference rest
    else c :: escapeReference rest

/-- A tilde that begins no escape stands for itself. -/
def unescapeReference : List Char → List Char
  | [] => []
  | '~' :: '0' :: rest => '~' :: unescapeReference rest
  | '~' :: '1' :: rest => '/' :: unescapeReference rest
  | c :: rest => c :: unescapeReference rest

theorem unescapeReference_escapeReference (s : List Char) :
    unescapeReference (escapeReference s) = s := by
  induction s with
  | nil => rfl
  | cons c rest ih =>
    rw [escapeReference]
    split
    · next h => rw [unescapeReference, ih, h]
    · next ht =>
      split
      · next h => rw [unescapeReference, ih, h]
      · rw [unescapeReference, ih]
        · rintro _ rfl
          exact absurd rfl ht
        · rintro _ rfl
          exact absurd rfl ht

def references? (pointer : String) : Option (List String) :=
  match pointer.toList with
  | [] => some []
  | '/' :: rest =>
    some ((Text.split '/' rest).map fun piece => String.ofList (unescapeReference piece))
  | _ => none

/-- A place in an array: digits without a leading zero. -/
def place? (reference : String) : Option Nat :=
  match reference.toList with
  | [] => none
  | ['0'] => some 0
  | '0' :: _ => none
  | digits =>
    if digits.all Char.isDigit then
      some (digits.foldl (fun n c => n * 10 + (c.toNat - 48)) 0)
    else none

namespace Value

def child? (reference : String) : Value → Option Value
  | .object members => OrderedMap.find? members reference
  | .array items => (place? reference).bind (items[·]?)
  | _ => none

def follow? : List String → Value → Option Value
  | [], v => some v
  | reference :: rest, v => (v.child? reference).bind (follow? rest)

def select? (pointer : String) (v : Value) : Option Value :=
  (references? pointer).bind fun references => v.follow? references

end Value

end InterfaceGen.Json
