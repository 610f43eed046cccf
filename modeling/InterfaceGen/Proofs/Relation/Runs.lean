import InterfaceGen.Proofs.Interface.Repeated

/-!
# The tables of several runs

A run records the foreign keys of its schema in a table of its own, which lists their type names in
the order of their first occurrence, each with the last key that it belongs to. The tables of
several runs, merged one after the other, hold what a single table would hold that is handed on from
run to run; it makes no difference that keys were overwritten within a run before the merge.
-/

namespace InterfaceGen

/-- The keys of the properties at the top that carry both halves of a foreign key. -/
def Schema.foreignKeys (schema : Schema) : List String :=
  schema.properties.filterMap fun entry => entry.2.foreignKeyHint.map Prod.fst

/-- The last of some foreign keys that belongs to a type name. -/
def lastKey? (foreignKeys : List String) (typeName : String) : Option String :=
  (foreignKeys.filter (relatedTypeName · = typeName)).getLast?

theorem relatedTypeName_of_lastKey? {foreignKeys : List String} {typeName key : String}
    (h : lastKey? foreignKeys typeName = some key) : relatedTypeName key = typeName :=
  of_decide_eq_true (List.mem_filter.mp (List.mem_of_getLast? h)).2

theorem find?_derived (foreignKeys : List String) (typeName : String) :
    OrderedMap.find? (foreignKeys.map fun key => (relatedTypeName key, key)) typeName =
      foreignKeys.find? (relatedTypeName · = typeName) := by
  induction foreignKeys with
  | nil => rfl
  | cons key rest ih =>
    rw [List.map_cons, OrderedMap.find?, List.find?_cons, ih]
    by_cases h : relatedTypeName key = typeName <;> simp [h]

theorem derived_of_mem_relationsOf {required : Option (List String)} {properties : Properties}
    {r : Relation} (member : r ∈ relationsOf required properties) :
    r.typeName = relatedTypeName r.foreignKey := by
  obtain ⟨⟨key, p⟩, -, found⟩ := List.mem_filterMap.mp member
  obtain ⟨hint, -, rfl⟩ := Option.map_eq_some_iff.mp found
  rfl

theorem map_foreignKey_relationsOf (schema : Schema) :
    (relationsOf schema.required schema.properties).map Relation.foreignKey =
      schema.foreignKeys := by
  unfold relationsOf Schema.foreignKeys
  rw [List.map_filterMap]
  refine List.filterMap_congr fun entry _ => ?_
  dsimp only [Relation.ofProperty?]
  rw [Option.map_map]
  rfl

namespace RelationTable

/-- A table after the relations of all properties of a schema were recorded in it in turn. -/
def handOn (table : RelationTable) (schema : Schema) : RelationTable :=
  schema.properties.foldl
    (fun t entry => (relationField (Text.trim entry.1) entry.2 schema.required t).2) table

/-- The type names of some foreign keys in the order of first occurrence, each with the last of its
keys. -/
structure HoldsLast (table : RelationTable) (foreignKeys : List String) : Prop where
  keys_eq : OrderedMap.keys table.entries = (foreignKeys.map relatedTypeName).eraseDups
  get?_eq (typeName : String) : table.get? typeName = lastKey? foreignKeys typeName
  derived : ∀ entry ∈ table.entries, entry.1 = relatedTypeName entry.2

theorem handOn_eq_record (table : RelationTable) (schema : Schema) :
    table.handOn schema = table.record (relationsOf schema.required schema.properties) := by
  unfold handOn relationsOf
  induction schema.properties generalizing table with
  | nil => rfl
  | cons entry rest ih =>
    obtain ⟨key, p⟩ := entry
    rw [List.foldl_cons, relationField_eq, ih, ← record_append, List.filterMap_cons]
    dsimp only
    cases Relation.ofProperty? (Text.trim key) p schema.required <;> rfl

/-- Relations under the type names of their keys are told apart by the keys alone. -/
theorem holdsLast_record {relations : List Relation}
    (derived : ∀ r ∈ relations, r.typeName = relatedTypeName r.foreignKey) :
    (empty.record relations).HoldsLast (relations.map Relation.foreignKey) := by
  have written : relations.map (fun r => (r.typeName, r.foreignKey)) =
      (relations.map Relation.foreignKey).map fun key => (relatedTypeName key, key) := by
    rw [List.map_map]
    exact List.map_congr_left fun r member => Prod.ext (derived r member) rfl
  rw [record_eq_insertAll, written]
  generalize relations.map Relation.foreignKey = foreignKeys
  change HoldsLast ⟨OrderedMap.ofEntries (foreignKeys.map fun key => (relatedTypeName key, key))⟩ _
  have found (typeName : String) :
      get? ⟨OrderedMap.ofEntries (foreignKeys.map fun key => (relatedTypeName key, key))⟩
        typeName = lastKey? foreignKeys typeName := by
    rw [get?, OrderedMap.find?_ofEntries, ← List.map_reverse, find?_derived, lastKey?,
      List.getLast?_filter]
  refine ⟨?_, found, ?_⟩
  · rw [OrderedMap.keys_ofEntries, OrderedMap.keys, List.map_map]
    rfl
  · rintro ⟨typeName, key⟩ member
    have last := found typeName
    rw [get?, OrderedMap.find?_of_mem (OrderedMap.nodup_keys_ofEntries _) member] at last
    exact (relatedTypeName_of_lastKey? last.symm).symm

theorem holdsLast_recorded (schema : Schema) :
    (Emission.recorded schema).HoldsLast schema.foreignKeys := by
  rw [← map_foreignKey_relationsOf]
  exact holdsLast_record fun r => derived_of_mem_relationsOf

theorem foldl_merge_recorded {table : RelationTable}
    (h : (OrderedMap.keys table.entries).Nodup) (schemas : List Schema) :
    schemas.foldl (fun t schema => t.merge (Emission.recorded schema)) table =
      schemas.foldl handOn table := by
  induction schemas generalizing table with
  | nil => rfl
  | cons schema rest ih =>
    rw [List.foldl_cons, List.foldl_cons, Emission.recorded, merge_record_empty h,
      handOn_eq_record, ih (nodup_keys_record h _)]

end RelationTable

theorem generate_relations {name : String} {schema : Schema} {e : Emission}
    (h : generate name schema = .ok e) : e.relations = Emission.recorded schema := by
  obtain ⟨members, -, rfl⟩ := generate_eq_ok_iff.mp h
  rfl

/-- If every schema has a declaration, then each table lists the type names of its schema with their
last keys, and the tables merged are the one table that all schemas would have been recorded in. -/
theorem merged_tables_eq_handOn {runs : List (String × Schema)} {emissions : List Emission}
    (generated : List.Forall₂ (fun run e => generate run.1 run.2 = .ok e) runs emissions) :
    List.Forall₂ (fun run e => e.relations.HoldsLast run.2.foreignKeys) runs emissions ∧
      emissions.foldl (fun t e => t.merge e.relations) RelationTable.empty =
        runs.foldl (fun t run => t.handOn run.2) RelationTable.empty := by
  constructor
  · refine generated.imp fun run e h => ?_
    rw [generate_relations h]
    exact RelationTable.holdsLast_recorded run.2
  · have tables : emissions.map Emission.relations =
        runs.map fun run => Emission.recorded run.2 := by
      rw [← List.forall₂_eq_eq_eq, List.forall₂_map_left_iff, List.forall₂_map_right_iff]
      exact generated.flip.imp fun e run h => generate_relations h
    have merged := @RelationTable.foldl_merge_recorded .empty List.nodup_nil (runs.map Prod.snd)
    rw [List.foldl_map, List.foldl_map] at merged
    rw [← merged, ← List.foldl_map (f := Emission.relations), tables, List.foldl_map]

def referring (foreignKey : String) : Property :=
  { Property.ofType (.ofTag .string) with
    foreignKey := some foreignKey, foreignKeyType := some .manyToOne }

/-- Two schemas with foreign keys in different spellings that belong to one type name. -/
def profileRuns : List (String × Schema) :=
  [("Page", ⟨"object", [("profileId", referring "user-profile"), ("teamId", referring "team")],
      none⟩),
    ("Post", ⟨"object", [("ownerId", referring "userProfile")], none⟩)]

theorem merged_tables_eq_handOn_profiles : ∃ emissions,
    List.Forall₂ (fun run e => generate run.1 run.2 = .ok e) profileRuns emissions ∧
      emissions.foldl (fun t e => t.merge e.relations) RelationTable.empty =
        ⟨[("UserProfile", "userProfile"), ("Team", "team")]⟩ := by
  have generated : ∃ d e, List.Forall₂ (fun run e => generate run.1 run.2 = .ok e) profileRuns
      [d, e] := ⟨_, _, .cons rfl (.cons rfl .nil)⟩
  obtain ⟨d, e, generated⟩ := generated
  refine ⟨[d, e], generated, ?_⟩
  rw [(merged_tables_eq_handOn generated).2]
  rfl

end InterfaceGen
