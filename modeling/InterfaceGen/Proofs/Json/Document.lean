import InterfaceGen.Proofs.Json.Printed

/-!
# Values that are read

A value that is read from a text has each key of an object once, and it nests no deeper than a text
may. Such a value, if its numbers are integers that are read as such, is read again from a text that
it is printed to.
-/

namespace InterfaceGen.Json

namespace Value

theorem distinctKeys_merged (v : Value) : v.merged.DistinctKeys := by
  induction v using nested_induction with
  | null => rw [merged]; exact .null
  | boolean b => rw [merged]; exact .boolean b
  | number n => rw [merged]; exact .number n
  | string s => rw [merged]; exact .string s
  | array items ih =>
    rw [merged_array]
    exact .array (List.forall_mem_map.mpr ih)
  | object members ih =>
    rw [merged_object]
    refine .object (OrderedMap.nodup_keys_ofEntries _) fun member inside => ?_
    obtain ⟨m, original, rfl⟩ := List.mem_map.mp (OrderedMap.mem_of_mem_ofEntries inside)
    exact ih m original

theorem depth_merged_le (v : Value) : v.merged.depth ≤ v.depth := by
  induction v using nested_induction with
  | null => rw [merged]
  | boolean b => rw [merged]
  | number n => rw [merged]
  | string s => rw [merged]
  | array items ih =>
    rw [merged_array, depth, depth]
    refine Nat.succ_le_succ (itemsDepth_le_iff.mpr (List.forall_mem_map.mpr fun v member => ?_))
    exact Nat.le_trans (ih v member) (itemsDepth_le_iff.mp (Nat.le_refl _) v member)
  | object members ih =>
    rw [merged_object, depth, depth]
    refine Nat.succ_le_succ (membersDepth_le_iff.mpr fun member inside => ?_)
    obtain ⟨m, original, rfl⟩ := List.mem_map.mp (OrderedMap.mem_of_mem_ofEntries inside)
    exact Nat.le_trans (ih m original) (membersDepth_le_iff.mp (Nat.le_refl _) m original)

end Value

theorem depth_of_readScalar {s r : List Char} {v : Value} (h : readScalar s = .ok (v, r)) :
    v.depth = 0 := by
  obtain ⟨noArray, noObject⟩ := readScalar_ne_enclosure h
  cases v with
  | array items => exact absurd rfl (noArray items)
  | object members => exact absurd rfl (noObject members)
  | _ => rw [Value.depth]

theorem Items.forall_mem {item : Spelling Value} {P : Value → Prop}
    (h : ∀ {s v r}, item s v r → P v) {i : Nat} {s r : List Char} {vs : List Value}
    (spelled : Items item i s vs r) : ∀ v ∈ vs, P v := by
  induction spelled with
  | closed _ => nofun
  | entry _ here _ ih => exact List.forall_mem_cons.mpr ⟨h here, ih⟩

theorem Members.forall_mem {value : Spelling Value} {P : Value → Prop}
    (h : ∀ {s v r}, value s v r → P v) {first : Bool} {s r : List Char}
    {ms : List (String × Value)} (spelled : Members value first s ms r) : ∀ m ∈ ms, P m.2 := by
  induction spelled with
  | closed _ => nofun
  | entry _ _ _ here _ ih => exact List.forall_mem_cons.mpr ⟨h here, ih⟩

theorem depth_le_of_spells {n : Nat} {s r : List Char} {v : Value} (h : Spells n s v r) :
    v.depth ≤ n := by
  induction n generalizing s v r with
  | zero =>
    cases h with
    | scalar read => exact Nat.le_of_eq (depth_of_readScalar read)
    | array _ none => exact none.elim
    | object _ none => exact none.elim
  | succ n ih =>
    cases h with
    | scalar read => exact depth_of_readScalar read ▸ Nat.zero_le _
    | array _ items =>
      rw [Value.depth]
      exact Nat.succ_le_succ (itemsDepth_le_iff.mpr (items.forall_mem (P := (·.depth ≤ n)) ih))
    | object _ members =>
      rw [Value.depth]
      exact Nat.succ_le_succ (membersDepth_le_iff.mpr (members.forall_mem (P := (·.depth ≤ n)) ih))

theorem Value.distinctKeys_of_ofText {src : String} {v : Value} (h : Value.ofText src = .ok v) :
    v.DistinctKeys := by
  obtain ⟨d, _, _, _, rfl⟩ := Value.ofText_eq_ok_iff.mp h
  exact d.distinctKeys_merged

theorem Value.depth_le_of_ofText {src : String} {v : Value} (h : Value.ofText src = .ok v) :
    v.depth ≤ Reader.greatestDepth := by
  obtain ⟨d, _, spelled, _, rfl⟩ := Value.ofText_eq_ok_iff.mp h
  exact Nat.le_trans d.depth_merged_le (depth_le_of_spells spelled)

/-- A value is read again from its text just if it nests no deeper than a text may. -/
theorem Printing.ofText_eq_ok_iff {text : Value → List Char} {escape : Char → List Char}
    (h : Printing text escape) {v : Value} (distinct : v.DistinctKeys) (whole : v.WholeNumbers) :
    Value.ofText (String.ofList (text v)) = .ok v ↔ v.depth ≤ Reader.greatestDepth := by
  refine ⟨Value.depth_le_of_ofText, fun fits => ?_⟩
  have spelled := h.spells whole fits endsNumber_nil
  rw [List.append_nil] at spelled
  refine Value.ofText_eq_ok_iff.mpr ⟨v, [], ?_, rfl, distinct.merged_eq⟩
  rwa [String.toList_ofList]

end InterfaceGen.Json
