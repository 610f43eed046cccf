import InterfaceGen.Proofs.Json.Pretty
import InterfaceGen.Proofs.Relation.History

/-!
# Tables that are read again

A table is written as an object of texts. Its type names are apart, so no member of the object is
lost when it is read.
-/

namespace InterfaceGen

open Json (Value)

namespace RelationTable

variable {table : RelationTable}

theorem distinctKeys_toJson (h : (OrderedMap.keys table.entries).Nodup) :
    table.toJson.DistinctKeys := by
  have same : OrderedMap.keys (table.entries.map fun e => (e.1, Value.string e.2)) =
      OrderedMap.keys table.entries := by
    rw [OrderedMap.keys, List.map_map]
    rfl
  refine .object (same ▸ h) fun member inside => ?_
  obtain ⟨e, -, rfl⟩ := List.mem_map.mp inside
  exact .string e.2

theorem numberFree_toJson (table : RelationTable) : table.toJson.NumberFree := by
  refine .object fun member inside => ?_
  obtain ⟨e, -, rfl⟩ := List.mem_map.mp inside
  exact .string e.2

theorem depth_toJson_le (table : RelationTable) : table.toJson.depth ≤ 1 := by
  rw [toJson, Value.depth]
  refine Nat.succ_le_succ (Json.membersDepth_le_iff.mpr fun member inside => ?_)
  obtain ⟨e, -, rfl⟩ := List.mem_map.mp inside
  rw [Value.depth]

/-- Whatever was inserted and merged, both texts of the table are read as an object whose members
are the entries of the table, in their order. -/
theorem texts_read_back (history : List Step) :
    Value.ofText (run .empty history).toJson.text =
        .ok (.object ((run .empty history).entries.map fun e => (e.1, .string e.2))) ∧
      Value.ofText (run .empty history).toJson.prettyText =
        .ok (.object ((run .empty history).entries.map fun e => (e.1, .string e.2))) := by
  have distinct : (OrderedMap.keys (run .empty history).entries).Nodup := by
    rw [run_empty]
    exact OrderedMap.nodup_keys_ofEntries _
  have fits := Nat.le_trans (depth_toJson_le (run .empty history)) (by decide : 1 ≤ 127)
  exact Value.ofText_texts (distinctKeys_toJson distinct) (numberFree_toJson _).wholeNumbers fits

example : (run .empty [.insert "A\"" "\\", .insert "" "\n"]).toJson.prettyText =
    "\x7b\n  \"A\\\"\": \"\\\\\",\n  \"\": \"\\n\"\n\x7d" := by
  decide

end RelationTable

end InterfaceGen
