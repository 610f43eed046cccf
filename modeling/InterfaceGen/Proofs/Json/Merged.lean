import InterfaceGen.Proofs.Json.Spelling

/-!
# Documents and the values that are read from them

Reading a value from a text keeps of a repeated key the last member, at the place of the first. The
value is thus the document that the text spells with its objects merged, and a document that repeats
no key is its own value.
-/

namespace InterfaceGen.Json

/-- A value has what each value has that inherits it from the items or members directly below. -/
theorem Value.nested_induction {motive : Value → Prop} (null : motive .null)
    (boolean : ∀ b, motive (.boolean b)) (number : ∀ n, motive (.number n))
    (string : ∀ s, motive (.string s))
    (array : ∀ items, (∀ item ∈ items, motive item) → motive (.array items))
    (object : ∀ members, (∀ member ∈ members, motive member.2) → motive (.object members))
    (v : Value) : motive v := by
  refine @Value.rec motive (fun items => ∀ item ∈ items, motive item)
    (fun members => ∀ member ∈ members, motive member.2) (fun member => motive member.2)
    null boolean number string array object ?_ ?_ ?_ ?_ ?_ v
  · intro item member
    cases member
  · intro head tail atHead inTail item member
    rcases List.mem_cons.mp member with rfl | later
    · exact atHead
    · exact inTail item later
  · intro member inside
    cases inside
  · intro head tail atHead inTail member inside
    rcases List.mem_cons.mp inside with rfl | later
    · exact atHead
    · exact inTail member later
  · intro name v h
    exact h

mutual

/-- The document with the last member under each key only, at the place of the first. -/
def Value.merged : Value → Value
  | .null => .null
  | .boolean b => .boolean b
  | .number n => .number n
  | .string s => .string s
  | .array items => .array (mergedItems items)
  | .object members => .object (OrderedMap.ofEntries (mergedMembers members))

def mergedItems : List Value → List Value
  | [] => []
  | v :: rest => v.merged :: mergedItems rest

def mergedMembers : List (String × Value) → List (String × Value)
  | [] => []
  | (name, v) :: rest => (name, v.merged) :: mergedMembers rest

end

theorem mergedItems_eq_map (items : List Value) : mergedItems items = items.map Value.merged := by
  induction items with
  | nil => rw [mergedItems, List.map_nil]
  | cons v rest ih => rw [mergedItems, ih, List.map_cons]

theorem mergedMembers_eq_map (members : List (String × Value)) :
    mergedMembers members = members.map fun m => (m.1, m.2.merged) := by
  induction members with
  | nil => rw [mergedMembers, List.map_nil]
  | cons m rest ih => rw [mergedMembers, ih, List.map_cons]

theorem Value.merged_array (items : List Value) :
    (Value.array items).merged = .array (items.map merged) := by
  rw [merged, mergedItems_eq_map]

theorem Value.merged_object (members : List (String × Value)) :
    (Value.object members).merged =
      .object (OrderedMap.ofEntries (members.map fun m => (m.1, m.2.merged))) := by
  rw [merged, mergedMembers_eq_map]

/-- No object of the document has a key twice. -/
inductive Value.DistinctKeys : Value → Prop
  | null : DistinctKeys .null
  | boolean (b : Bool) : DistinctKeys (.boolean b)
  | number (n : Number) : DistinctKeys (.number n)
  | string (s : String) : DistinctKeys (.string s)
  | array {items : List Value} (below : ∀ item ∈ items, DistinctKeys item) :
      DistinctKeys (.array items)
  | object {members : List (String × Value)} (keys : (OrderedMap.keys members).Nodup)
      (below : ∀ member ∈ members, DistinctKeys member.2) : DistinctKeys (.object members)

attribute [simp] Value.DistinctKeys.null Value.DistinctKeys.boolean Value.DistinctKeys.number
  Value.DistinctKeys.string

@[simp] theorem Value.distinctKeys_array_iff {items : List Value} :
    (Value.array items).DistinctKeys ↔ ∀ v ∈ items, v.DistinctKeys :=
  ⟨fun | .array below => below, .array⟩

@[simp] theorem Value.distinctKeys_object_iff {members : List (String × Value)} :
    (Value.object members).DistinctKeys ↔
      (OrderedMap.keys members).Nodup ∧ ∀ m ∈ members, m.2.DistinctKeys :=
  ⟨fun | .object keys below => ⟨keys, below⟩, fun ⟨keys, below⟩ => .object keys below⟩

theorem Value.DistinctKeys.merged_eq {v : Value} (h : v.DistinctKeys) : v.merged = v := by
  induction h with
  | null => rw [merged]
  | boolean b => rw [merged]
  | number n => rw [merged]
  | string s => rw [merged]
  | array below ih => rw [merged_array, List.map_congr_left ih, List.map_id']
  | @object members keys below ih =>
    have same : members.map (fun m => (m.1, m.2.merged)) = members := by
      rw [List.map_congr_left fun m member => by rw [ih m member], List.map_id']
    rw [merged_object, same, OrderedMap.ofEntries_of_nodup keys]

/-! ### The reader of values -/

theorem Reader.Reads.value (n : Nat) :
    (Reader.value n).Reads (Spells n) fun d v => d.merged = v := by
  have scalars {s r : List Char} {v : Value} (read : readScalar s = .ok (v, r)) (a : Value) :
      (Except.ok v : Except Cause Value) = .ok a ↔ v.merged = a := by
    have ne := readScalar_ne_enclosure read
    cases v with
    | array vs => exact absurd rfl (ne.1 vs)
    | object ms => exact absurd rfl (ne.2 ms)
    | _ => simp [Value.merged]
  induction n with
  | zero => exact dispatch scalars (.nowhere _) (.nowhere _)
  | succ n ih =>
    have items : ((Reader.value n).itemsOf.map Value.array).Reads (Items (Spells n) 0)
        fun vs v => (Value.array vs).merged = v := by
      refine (ih.itemsOf.map Value.array).congr fun vs v => ?_
      simp [← List.forall₂_map_left_iff, List.forall₂_eq_eq_eq, Value.merged_array]
    have members : ((Reader.members [] (fun (m : OrderedMap Value) key =>
        .ok ((Reader.value n).map (m.insert key))) []).map Value.object).Reads
        (Members (Spells n) true) fun ms v => (Value.object ms).merged = v := by
      refine ((ih.entries []).map Value.object).congr fun ms v => ?_
      simp [OrderedMap.entrywise_eq_iff, Value.merged_object]
    exact dispatch scalars items members

/-! ### What a value is read from -/

theorem exists_items_of_readItems {α : Type} {reader : Reader α} {item : Spelling Value}
    (spelled : ∀ {s r : List Char} {a : α}, reader.run s = .ok (a, r) → ∃ d, item s d r)
    {i : Nat} {acc acc' : List α} {s r : List Char}
    (h : readItems (fun _ acc => some (reader.map (· :: acc))) i acc s = .ok (acc', r)) :
    ∃ vs, Items item i s vs r := by
  generalize same : (fun (_ : Nat) (acc : List α) => some (reader.map (· :: acc))) = each at h
  fun_induction readItems each i acc s with
  | case1 => cases h
  | case2 _ _ _ none => subst same; cases none
  | case3 => cases h
  | case4 _ _ _ _ _ _ next =>
    cases h
    exact ⟨[], .closed next⟩
  | case5 => cases h
  | case6 _ _ _ _ some _ next _ _ run ih =>
    subst same
    cases some
    obtain ⟨a, ran, -⟩ := Reader.run_map_eq_ok_iff.mp run
    obtain ⟨d, here⟩ := spelled ran
    obtain ⟨vs, rest⟩ := ih h
    exact ⟨d :: vs, .entry next here rest⟩

theorem exists_members_of_readMembers {α : Type} {reader : Reader α} {value : Spelling Value}
    (spelled : ∀ {s r : List Char} {a : α}, reader.run s = .ok (a, r) → ∃ d, value s d r)
    {keyPlace : Place} {first : Bool} {m m' : OrderedMap α} {s r : List Char}
    (h : readMembers keyPlace (fun m key => .ok (reader.map (OrderedMap.insert m key))) first m s =
      .ok (m', r)) : ∃ ms, Members value first s ms r := by
  generalize same : (fun (m : OrderedMap α) (key : String) =>
    (Except.ok (reader.map (OrderedMap.insert m key)) : Except Cause _)) = each at h
  fun_induction readMembers keyPlace each first m s with
  | case1 => cases h
  | case2 _ _ _ _ next =>
    cases h
    exact ⟨[], .closed next⟩
  | case3 => cases h
  | case4 => cases h
  | case5 => cases h
  | case6 => cases h
  | case7 _ _ _ _ next name _ key _ some _ colon _ _ run ih =>
    subst same
    cases some
    obtain ⟨a, ran, -⟩ := Reader.run_map_eq_ok_iff.mp run
    obtain ⟨d, here⟩ := spelled ran
    obtain ⟨ms, rest⟩ := ih h
    exact ⟨(name, d) :: ms, .entry next key colon here rest⟩

theorem exists_spells_of_run_value {n : Nat} {s r : List Char} {v : Value}
    (h : (Reader.value n).run s = .ok (v, r)) : ∃ d, Spells n s d r := by
  induction n generalizing s r v with
  | zero =>
    rcases Reader.run_dispatch_eq_ok_iff.mp h with
      ⟨d, read, -⟩ | ⟨_, _, _, none, _⟩ | ⟨_, _, _, none, _⟩
    · exact ⟨d, .scalar read⟩
    · cases none
    · cases none
  | succ n ih =>
    rcases Reader.run_dispatch_eq_ok_iff.mp h with
      ⟨d, read, -⟩ | ⟨t, reader, bracket, same, run⟩ | ⟨t, reader, brace, same, run⟩
    · exact ⟨d, .scalar read⟩
    · cases same
      obtain ⟨vs, ran, -⟩ := Reader.run_map_eq_ok_iff.mp run
      obtain ⟨acc, ran, -⟩ := Reader.run_map_eq_ok_iff.mp ran
      obtain ⟨vs, items⟩ := exists_items_of_readItems ih ran
      exact ⟨.array vs, .array bracket items⟩
    · cases same
      obtain ⟨ms, ran, -⟩ := Reader.run_map_eq_ok_iff.mp run
      obtain ⟨ms, members⟩ := exists_members_of_readMembers ih ran
      exact ⟨.object ms, .object brace members⟩

/-- A value is read from a text that spells a document, and nothing but blanks after it. -/
theorem Value.ofText_eq_ok_iff {src : String} {v : Value} :
    Value.ofText src = .ok v ↔ ∃ d r, Spells Reader.greatestDepth src.toList d r ∧
      skipBlanks r = [] ∧ d.merged = v := by
  unfold Value.ofText Reader.runAll
  constructor
  · intro h
    split at h
    next => cases h
    next v' r run =>
      split at h
      next blank =>
        cases h
        obtain ⟨d, spelled⟩ := exists_spells_of_run_value run
        obtain ⟨same, -⟩ := (Reader.Reads.value _ spelled).mp run
        exact ⟨d, _, spelled, blank, same⟩
      next => cases h
  · rintro ⟨d, r, spelled, blank, rfl⟩
    rw [(Reader.Reads.value _ spelled).mpr ⟨rfl, rfl⟩]
    dsimp only
    rw [blank]

end InterfaceGen.Json
