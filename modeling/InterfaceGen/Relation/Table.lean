import InterfaceGen.Json.Printer
import InterfaceGen.OrderedMap

/-!
# Relation tables

For each type name that a relation refers to, the foreign key that it comes from. The last key
written counts, at the place of the first.
-/

namespace InterfaceGen

structure RelationTable where
  entries : OrderedMap String
deriving DecidableEq

namespace RelationTable

def empty : RelationTable := ⟨[]⟩

def get? (table : RelationTable) (typeName : String) : Option String :=
  OrderedMap.find? table.entries typeName

def insert (table : RelationTable) (typeName foreignKey : String) : RelationTable :=
  ⟨OrderedMap.insert table.entries typeName foreignKey⟩

/-- Inserts an entry, and gives back the foreign key that it replaces. -/
def exchange (table : RelationTable) (typeName foreignKey : String) :
    Option String × RelationTable :=
  let (replaced, entries) := OrderedMap.exchange table.entries typeName foreignKey
  (replaced, ⟨entries⟩)

def size (table : RelationTable) : Nat := table.entries.length

def isEmpty (table : RelationTable) : Bool := table.entries.isEmpty

def merge (table other : RelationTable) : RelationTable :=
  ⟨OrderedMap.insertAll table.entries other.entries⟩

def toJson (table : RelationTable) : Json.Value :=
  .object (table.entries.map fun (name, key) => (name, .string key))

end RelationTable

end InterfaceGen
