import Mathlib.Data.Finset.Card
import InterfaceGen.Proofs.Relation.LastWrite

/-!
# Histories of a table

A table comes about by insertions and merges, and what is merged in has a history of its own. All
that was written in a history, one entry after the other, tells what the table holds: the type names
in the order of their first writing, each with the foreign key that was written last. To merge a
table in is therefore to write its history once more, which is where the laws of merging come from.
-/

namespace InterfaceGen

namespace RelationTable

inductive Step
  | insert (typeName foreignKey : String)
  | merge (history : List Step)

mutual

def Step.apply (table : RelationTable) : Step → RelationTable
  | .insert typeName foreignKey => table.insert typeName foreignKey
  | .merge history => table.merge (run .empty history)

def run (table : RelationTable) : List Step → RelationTable
  | [] => table
  | step :: rest => run (step.apply table) rest

end

mutual

def Step.writes : Step → List (String × String)
  | .insert typeName foreignKey => [(typeName, foreignKey)]
  | .merge history => writes history

/-- All entries that a history writes, also those that later ones replace. -/
def writes : List Step → List (String × String)
  | [] => []
  | step :: rest => step.writes ++ writes rest

end

/-- An ordered map in which the last write counts, after some writes. -/
structure LastWriteWins (table : RelationTable) (written : List (String × String)) : Prop where
  nodup : (OrderedMap.keys table.entries).Nodup
  keys_eq : OrderedMap.keys table.entries = (written.map Prod.fst).eraseDups
  get?_eq (typeName : String) :
    table.get? typeName = ((written.filter (·.1 = typeName)).getLast?).map Prod.snd
  size_eq : table.size = (written.map Prod.fst).toFinset.card
  exchange_eq (typeName foreignKey : String) :
    table.exchange typeName foreignKey = (table.get? typeName, table.insert typeName foreignKey)
  others_eq (typeName foreignKey : String) (i : Nat) (entry : String × String) :
    entry.1 ≠ typeName →
      ((table.insert typeName foreignKey).entries[i]? = some entry ↔
        table.entries[i]? = some entry)

/-! ### What a history writes -/

theorem nodup_keys_empty : (OrderedMap.keys empty.entries).Nodup := List.nodup_nil

mutual

theorem Step.entries_apply {table : RelationTable}
    (h : (OrderedMap.keys table.entries).Nodup) : (step : Step) →
    (step.apply table).entries = OrderedMap.insertAll table.entries step.writes
  | .insert typeName foreignKey => by
    rw [Step.apply, Step.writes]
    rfl
  | .merge history => by
    rw [Step.apply, Step.writes, merge, entries_run nodup_keys_empty history]
    exact OrderedMap.insertAll_ofEntries h (writes history)

theorem entries_run {table : RelationTable} (h : (OrderedMap.keys table.entries).Nodup) :
    (history : List Step) →
    (run table history).entries = OrderedMap.insertAll table.entries (writes history)
  | [] => by
    rw [run, writes]
    rfl
  | step :: rest => by
    have here := Step.entries_apply h step
    have kept : (OrderedMap.keys (step.apply table).entries).Nodup := by
      rw [here]
      exact OrderedMap.nodup_keys_insertAll h step.writes
    rw [run, writes, entries_run kept rest, here, OrderedMap.insertAll_append]

end

theorem run_empty (history : List Step) :
    run .empty history = ⟨OrderedMap.ofEntries (writes history)⟩ :=
  congrArg mk (entries_run nodup_keys_empty history)

theorem exchange_fst_snd (table : RelationTable) (typeName foreignKey : String) :
    table.exchange typeName foreignKey =
      (table.get? typeName, table.insert typeName foreignKey) := by
  rw [exchange, OrderedMap.exchange_eq]
  rfl

theorem lastWriteWins_ofEntries (written : List (String × String)) :
    LastWriteWins ⟨OrderedMap.ofEntries written⟩ written where
  nodup := OrderedMap.nodup_keys_ofEntries written
  keys_eq := OrderedMap.keys_ofEntries written
  get?_eq typeName := by
    rw [get?, OrderedMap.find?_ofEntries, OrderedMap.find?_eq_map, List.getLast?_filter]
  size_eq := by
    have names : (OrderedMap.keys (OrderedMap.ofEntries written)).toFinset =
        (written.map Prod.fst).toFinset := by
      ext name
      rw [OrderedMap.keys_ofEntries, List.mem_toFinset, List.mem_toFinset, List.mem_eraseDups]
      rfl
    rw [← names, List.toFinset_card_of_nodup (OrderedMap.nodup_keys_ofEntries written)]
    exact (List.length_map Prod.fst).symm
  exchange_eq := exchange_fst_snd _
  others_eq _ _ i _ other := OrderedMap.getElem?_insert_eq_some_iff other i

/-! ### Merging -/

theorem merge_ofEntries (written others : List (String × String)) :
    merge ⟨OrderedMap.ofEntries written⟩ ⟨OrderedMap.ofEntries others⟩ =
      ⟨OrderedMap.ofEntries (written ++ others)⟩ := by
  have made := OrderedMap.insertAll_ofEntries (OrderedMap.nodup_keys_ofEntries written) others
  rw [merge, made, OrderedMap.ofEntries, OrderedMap.ofEntries, OrderedMap.insertAll_append]

theorem merge_self_ofEntries (written : List (String × String)) :
    merge ⟨OrderedMap.ofEntries written⟩ ⟨OrderedMap.ofEntries written⟩ =
      ⟨OrderedMap.ofEntries written⟩ := by
  have again := OrderedMap.insertAll_insertAll_self (m := []) List.nodup_nil written
  rw [merge_ofEntries, OrderedMap.ofEntries, OrderedMap.insertAll_append, again]
  rfl

theorem get?_merge {table other : RelationTable}
    (h : (OrderedMap.keys other.entries).Nodup) (typeName : String) :
    (table.merge other).get? typeName = (other.get? typeName).or (table.get? typeName) := by
  rw [merge, get?, OrderedMap.find?_insertAll, OrderedMap.find?_reverse_of_nodup h]
  rfl

/-- Whatever was inserted and merged, a table is an ordered map of all that was written in which the
last write counts. To such tables merging is associative, with the empty table as its identity; to
merge a table into itself changes nothing, and of two tables that are merged the second counts. -/
theorem run_lastWriteWins (history second third : List Step) :
    (run .empty history).LastWriteWins (writes history) ∧
    ((run .empty history).merge (run .empty second)).merge (run .empty third) =
      (run .empty history).merge ((run .empty second).merge (run .empty third)) ∧
    empty.merge (run .empty history) = run .empty history ∧
    (run .empty history).merge empty = run .empty history ∧
    (run .empty history).merge (run .empty history) = run .empty history ∧
    ∀ typeName, ((run .empty history).merge (run .empty second)).get? typeName =
      ((run .empty second).get? typeName).or ((run .empty history).get? typeName) := by
  have none : empty = ⟨OrderedMap.ofEntries []⟩ := rfl
  simp only [run_empty]
  refine ⟨lastWriteWins_ofEntries _, ?_, ?_, ?_, merge_self_ofEntries _, ?_⟩
  · simp only [merge_ofEntries, List.append_assoc]
  · rw [none, merge_ofEntries, List.nil_append]
  · rw [none, merge_ofEntries, List.append_nil]
  · exact get?_merge (OrderedMap.nodup_keys_ofEntries _)

example : (run .empty [.insert "User" "user", .insert "Team" "team",
    .merge [.insert "User" "users", .insert "Page" "page", .insert "User" "member"]]).entries =
      [("User", "member"), ("Team", "team"), ("Page", "page")] := by
  decide

end RelationTable

end InterfaceGen
