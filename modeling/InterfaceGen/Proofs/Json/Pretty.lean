import InterfaceGen.Proofs.Json.Document

/-!
# Pretty texts

The pretty text of a value differs from the compact one in the blanks between its tokens, and these
are passed over. So it spells the same value, at whatever level of indentation it stands.
-/

namespace InterfaceGen.Json

theorem prettyItems_eq_map (level : Nat) (items : List Value) :
    Value.prettyItems level items = items.map (Value.pretty level) := by
  induction items with
  | nil => rw [Value.prettyItems, List.map_nil]
  | cons v rest ih => rw [Value.prettyItems, ih, List.map_cons]

theorem prettyMembers_eq_map (level : Nat) (members : List (String × Value)) :
    Value.prettyMembers level members =
      members.map (memberBy escapeChar fun v => ' ' :: v.pretty level) := by
  induction members with
  | nil => rw [Value.prettyMembers, List.map_nil]
  | cons m rest ih =>
    rw [Value.prettyMembers, ih, List.map_cons]
    rfl

/-- The beginning of a line. -/
def lineStart (level : Nat) : List Char := '\n' :: indentation level

theorem blanks_lineStart (level : Nat) : Blanks (lineStart level) := by
  refine List.forall_mem_cons.mpr ⟨rfl, fun c member => ?_⟩
  rw [List.eq_of_mem_replicate member]
  rfl

theorem prettyBlock_append (opening closing : Char) (level : Nat) (entries : List (List Char))
    (r : List Char) : ∃ close, Blanks close ∧
      prettyBlock opening closing level entries ++ r =
        opening :: (commaSeparated (entries.map (lineStart (level + 1) ++ ·)) ++
          (close ++ closing :: r)) := by
  cases entries with
  | nil => exact ⟨[], blanks_nil, rfl⟩
  | cons e rest =>
    refine ⟨lineStart level, blanks_lineStart level, ?_⟩
    rw [prettyBlock]
    · simp [lineStart]
    · nofun

namespace Value

theorem startsEntry_pretty {v : Value} (whole : v.WholeNumbers) (level : Nat) :
    StartsEntry (v.pretty level) := by
  cases whole with
  | array below =>
    obtain ⟨close, -, same⟩ := prettyBlock_append '[' ']' level _ []
    rw [List.append_nil] at same
    rw [pretty, same]
    exact ⟨_, _, rfl, by decide, by decide⟩
  | object below =>
    obtain ⟨close, -, same⟩ := prettyBlock_append '{' '}' level _ []
    rw [List.append_nil] at same
    rw [pretty, same]
    exact ⟨_, _, rfl, by decide, by decide⟩
  | null => rw [pretty]; exact printing_compact.startsEntry .null
  | boolean b => rw [pretty]; exact printing_compact.startsEntry (.boolean b)
  | number whole => rw [pretty]; exact printing_compact.startsEntry (.number whole)
  | string s => rw [pretty]; exact printing_compact.startsEntry (.string s)

theorem spells_pretty {v : Value} (whole : v.WholeNumbers) {n : Nat} (fits : v.depth ≤ n)
    (level : Nat) {r : List Char} (ends : EndsNumber r) : Spells n (v.pretty level ++ r) v r := by
  induction whole generalizing n level r with
  | null => rw [pretty]; exact printing_compact.spells .null fits ends
  | boolean b => rw [pretty]; exact printing_compact.spells (.boolean b) fits ends
  | number whole => rw [pretty]; exact printing_compact.spells (.number whole) fits ends
  | string s => rw [pretty]; exact printing_compact.spells (.string s) fits ends
  | @array items below ih =>
    rw [depth] at fits
    obtain ⟨n, rfl⟩ : ∃ m, n = m + 1 := ⟨n - 1, by omega⟩
    have inside := itemsDepth_le_iff.mp (Nat.le_of_succ_le_succ fits)
    obtain ⟨close, blanks, same⟩ :=
      prettyBlock_append '[' ']' level (prettyItems (level + 1) items) r
    rw [prettyItems_eq_map, List.map_map] at same
    rw [pretty, prettyItems_eq_map, same]
    refine .array (skipBlanks_cons (by decide) _) ?_
    exact items_of_printed (blanks_lineStart _) blanks r
      (fun v member => startsEntry_pretty (below v member) _)
      fun v member r ends => ih v member (inside v member) _ ends
  | @object members below ih =>
    rw [depth] at fits
    obtain ⟨n, rfl⟩ : ∃ m, n = m + 1 := ⟨n - 1, by omega⟩
    have inside := membersDepth_le_iff.mp (Nat.le_of_succ_le_succ fits)
    obtain ⟨close, blanks, same⟩ :=
      prettyBlock_append '{' '}' level (prettyMembers (level + 1) members) r
    rw [prettyMembers_eq_map, List.map_map] at same
    rw [pretty, prettyMembers_eq_map, same]
    refine .object (skipBlanks_cons (by decide) _) ?_
    refine members_of_printed (blanks_lineStart _) blanks r escapedAs_escapeChar
      fun m member r ends => ?_
    -- The blank behind the colon is the only one that does not begin a line.
    rw [← spells_skipBlanks_iff]
    show Spells n (skipBlanks (m.2.pretty (level + 1) ++ r)) m.2 r
    exact spells_skipBlanks_iff.mpr (ih m member (inside m member) _ ends)

/-- The two texts of a value are read as the same value. -/
theorem ofText_texts {v : Value} (distinct : v.DistinctKeys) (whole : v.WholeNumbers)
    (fits : v.depth ≤ Reader.greatestDepth) :
    ofText v.text = .ok v ∧ ofText v.prettyText = .ok v := by
  refine ⟨(printing_compact.ofText_eq_ok_iff distinct whole).mpr fits, ?_⟩
  have spelled := spells_pretty whole fits 0 endsNumber_nil
  rw [List.append_nil] at spelled
  refine Value.ofText_eq_ok_iff.mpr ⟨v, [], ?_, rfl, distinct.merged_eq⟩
  rwa [prettyText, String.toList_ofList]

end Value

end InterfaceGen.Json
