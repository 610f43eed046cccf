import InterfaceGen.Interface.Emission
import InterfaceGen.Proofs.OrderedMap

/-!
# The last write counts

Relations are recorded in a table one after the other, and of a type name the foreign key recorded
last counts. Recording the same relations once more leaves the table as it is, and relations that
were first recorded in a table of their own may be merged in.
-/

namespace InterfaceGen

/-- The relations of the top-level properties, in order. -/
def relationsOf (required : Option (List String)) (properties : List (String × Property)) :
    List Relation :=
  properties.filterMap fun (key, p) => Relation.ofProperty? (Text.trim key) p required

namespace RelationTable

def record (table : RelationTable) (relations : List Relation) : RelationTable :=
  relations.foldl (fun t r => t.insert r.typeName r.foreignKey) table

/-- The events of recording relations in a table. -/
def recordEvents (table : RelationTable) : List Relation → List Event
  | [] => []
  | r :: rest => r.overwriting table ++ recordEvents (table.insert r.typeName r.foreignKey) rest

theorem relationField_eq (key : String) (p : Property) (required : Option (List String))
    (table : RelationTable) :
    relationField key p required table =
      ((Relation.ofProperty? key p required).map Relation.declaration,
        table.record (Relation.ofProperty? key p required).toList) := by
  unfold relationField
  cases Relation.ofProperty? key p required <;> rfl

theorem relationEvents_eq (key : String) (p : Property) (required : Option (List String))
    (table : RelationTable) :
    relationEvents key p required table =
      table.recordEvents (Relation.ofProperty? key p required).toList := by
  unfold relationEvents
  cases Relation.ofProperty? key p required with
  | none => rfl
  | some r => exact (List.append_nil _).symm

theorem record_eq_insertAll (table : RelationTable) (relations : List Relation) :
    table.record relations = ⟨OrderedMap.insertAll table.entries
      (relations.map fun r => (r.typeName, r.foreignKey))⟩ := by
  unfold record
  induction relations generalizing table with
  | nil => rfl
  | cons r rest ih => exact ih (table.insert r.typeName r.foreignKey)

theorem record_append (table : RelationTable) (relations others : List Relation) :
    table.record (relations ++ others) = (table.record relations).record others :=
  List.foldl_append

theorem recordEvents_append (table : RelationTable) (relations others : List Relation) :
    table.recordEvents (relations ++ others) =
      table.recordEvents relations ++ (table.record relations).recordEvents others := by
  induction relations generalizing table with
  | nil => rfl
  | cons r rest ih =>
    rw [List.cons_append, recordEvents, ih, recordEvents, List.append_assoc]
    rfl

theorem nodup_keys_record {table : RelationTable} (h : (OrderedMap.keys table.entries).Nodup)
    (relations : List Relation) : (OrderedMap.keys (table.record relations).entries).Nodup := by
  rw [record_eq_insertAll]
  exact OrderedMap.nodup_keys_insertAll h _

theorem merge_record_empty {table : RelationTable} (h : (OrderedMap.keys table.entries).Nodup)
    (relations : List Relation) :
    table.merge (empty.record relations) = table.record relations := by
  rw [record_eq_insertAll, record_eq_insertAll, merge]
  exact congrArg mk (OrderedMap.insertAll_ofEntries h _)

theorem record_record_empty (relations : List Relation) :
    (empty.record relations).record relations = empty.record relations := by
  simp only [record_eq_insertAll]
  rw [OrderedMap.insertAll_insertAll_self]
  exact List.nodup_nil

end RelationTable

end InterfaceGen
