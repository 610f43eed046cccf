import Mathlib.Data.List.Forall2
import InterfaceGen.OrderedMap

/-!
# Maps written entry by entry

A map in which entries are written one after the other has for each key the value written last, at
the place of the first writing. Its keys and what is found under them determine it, so writing the
same entries once more leaves it as it is. Maps whose entries are related one by one stay so when
related entries are written into both.
-/

namespace InterfaceGen

namespace OrderedMap

variable {α : Type}

theorem mem_keys_insert {m : OrderedMap α} {key other : String} {value : α} :
    other ∈ keys (insert m key value) ↔ other = key ∨ other ∈ keys m := by
  rw [keys_insert]
  by_cases h : key ∈ keys m
  · rw [if_pos h]
    constructor
    · exact .inr
    · rintro (rfl | member)
      · exact h
      · exact member
  · rw [if_neg h]
    simp [or_comm]

theorem nodup_keys_insert {m : OrderedMap α} (h : (keys m).Nodup) (key : String) (value : α) :
    (keys (insert m key value)).Nodup := by
  rw [keys_insert]
  by_cases member : key ∈ keys m
  · rwa [if_pos member]
  · rw [if_neg member, List.nodup_append]
    refine ⟨h, by simp, ?_⟩
    rintro other inside _ last rfl
    exact member (List.mem_singleton.mp last ▸ inside)

theorem find?_insert (m : OrderedMap α) (key other : String) (value : α) :
    find? (insert m key value) other = if key = other then some value else find? m other := by
  by_cases h : key = other
  · subst h
    rw [if_pos rfl, find?_insert_self]
  · rw [if_neg h, find?_insert_of_ne m value h]

theorem exchange_eq (m : OrderedMap α) (key : String) (value : α) :
    exchange m key value = (find? m key, insert m key value) := by
  induction m with
  | nil => rfl
  | cons entry rest ih => by_cases h : entry.1 = key <;> simp [exchange, find?, insert, h, ih]

/-- Every entry under another key keeps its value and its place. -/
theorem getElem?_insert_eq_some_iff {m : OrderedMap α} {key : String} {value : α}
    {entry : String × α} (other : entry.1 ≠ key) (i : Nat) :
    (insert m key value)[i]? = some entry ↔ m[i]? = some entry := by
  have apart : (key, value) ≠ entry := fun same => other (congrArg Prod.fst same).symm
  induction m generalizing i with
  | nil => cases i <;> simp [insert, apart]
  | cons first rest ih =>
    by_cases h : first.1 = key
    · have apart' : first ≠ entry := fun same => other (same ▸ h)
      cases i <;> simp [insert, h, apart, apart']
    · cases i <;> simp [insert, h, ih]

@[simp] theorem insertAll_cons (m : OrderedMap α) (entry : String × α)
    (entries : List (String × α)) :
    insertAll m (entry :: entries) = insertAll (insert m entry.1 entry.2) entries := rfl

theorem insertAll_append (m : OrderedMap α) (entries others : List (String × α)) :
    insertAll m (entries ++ others) = insertAll (insertAll m entries) others :=
  List.foldl_append

theorem nodup_keys_insertAll {m : OrderedMap α} (h : (keys m).Nodup)
    (entries : List (String × α)) : (keys (insertAll m entries)).Nodup := by
  induction entries generalizing m with
  | nil => exact h
  | cons entry rest ih => exact ih (nodup_keys_insert h entry.1 entry.2)

theorem mem_keys_insertAll {m : OrderedMap α} {entries : List (String × α)} {key : String} :
    key ∈ keys (insertAll m entries) ↔ key ∈ keys entries ∨ key ∈ keys m := by
  induction entries generalizing m with
  | nil => simp [insertAll, keys]
  | cons entry rest ih =>
    rw [insertAll_cons, ih, mem_keys_insert]
    simp only [keys, List.map_cons, List.mem_cons]
    rw [or_left_comm, or_assoc]

theorem keys_insertAll_of_subset {m : OrderedMap α} {entries : List (String × α)}
    (h : ∀ key ∈ keys entries, key ∈ keys m) : keys (insertAll m entries) = keys m := by
  induction entries generalizing m with
  | nil => rfl
  | cons entry rest ih =>
    have here : keys (insert m entry.1 entry.2) = keys m := by
      rw [keys_insert, if_pos (h entry.1 List.mem_cons_self)]
    rw [insertAll_cons, ih, here]
    intro key later
    rw [here]
    exact h key (List.mem_cons_of_mem _ later)

theorem find?_eq_map (m : OrderedMap α) (key : String) :
    find? m key = (List.find? (fun entry => decide (entry.1 = key)) m).map Prod.snd := by
  induction m with
  | nil => rfl
  | cons entry rest ih =>
    rw [find?, List.find?_cons, ih]
    by_cases h : entry.1 = key <;> simp [h]

theorem find?_append (entries others : List (String × α)) (key : String) :
    find? (entries ++ others) key = (find? entries key).or (find? others key) := by
  induction entries with
  | nil => rfl
  | cons entry rest ih =>
    by_cases h : entry.1 = key <;> simp [find?, h, ih]

/-- What is found after a run of writes was written last in it, or else was there before. -/
theorem find?_insertAll (m : OrderedMap α) (entries : List (String × α)) (key : String) :
    find? (insertAll m entries) key = (find? entries.reverse key).or (find? m key) := by
  induction entries generalizing m with
  | nil => rfl
  | cons entry rest ih =>
    rw [insertAll_cons, ih, find?_insert, List.reverse_cons, find?_append, Option.or_assoc]
    by_cases h : entry.1 = key <;> simp [find?, h]

theorem find?_eq_none_of_not_mem_keys {m : OrderedMap α} {key : String} (h : key ∉ keys m) :
    find? m key = none := by
  induction m with
  | nil => rfl
  | cons entry rest ih =>
    obtain ⟨ne, later⟩ := not_or.mp (mt List.mem_cons.mpr h)
    rw [find?, if_neg (Ne.symm ne), ih later]

/-- A map without repeated keys is determined by its keys in order and by what is found. -/
theorem eq_of_keys_of_find? {m m' : OrderedMap α} (h : (keys m).Nodup)
    (sameKeys : keys m = keys m') (sameValues : ∀ key, find? m key = find? m' key) : m = m' := by
  induction m generalizing m' with
  | nil =>
    cases m' with
    | nil => rfl
    | cons _ _ => cases sameKeys
  | cons entry rest ih =>
    cases m' with
    | nil => cases sameKeys
    | cons entry' rest' =>
      obtain ⟨key, value⟩ := entry
      obtain ⟨key', value'⟩ := entry'
      obtain ⟨rfl, restKeys⟩ := List.cons.inj sameKeys
      obtain ⟨fresh, restNodup⟩ := List.nodup_cons.mp h
      have here := sameValues key
      simp only [find?, if_true] at here
      cases here
      rw [ih restNodup restKeys]
      intro other
      by_cases same : key = other
      · subst same
        have fresh' : key ∉ keys rest' := by
          rw [keys, ← restKeys]
          exact fresh
        rw [find?_eq_none_of_not_mem_keys fresh, find?_eq_none_of_not_mem_keys fresh']
      · simpa [find?, same] using sameValues other

/-- Writing the same entries once more changes neither values nor order. -/
theorem insertAll_insertAll_self {m : OrderedMap α} (h : (keys m).Nodup)
    (entries : List (String × α)) :
    insertAll (insertAll m entries) entries = insertAll m entries := by
  refine eq_of_keys_of_find? (nodup_keys_insertAll (nodup_keys_insertAll h entries) entries) ?_ ?_
  · apply keys_insertAll_of_subset
    intro key member
    exact mem_keys_insertAll.mpr (.inl member)
  · intro key
    rw [find?_insertAll, find?_insertAll m, ← Option.or_assoc, Option.or_self]

theorem insert_of_not_mem_keys {m : OrderedMap α} {key : String} (h : key ∉ keys m) (value : α) :
    insert m key value = m ++ [(key, value)] := by
  induction m with
  | nil => rfl
  | cons entry rest ih =>
    obtain ⟨ne, later⟩ := not_or.mp (mt List.mem_cons.mpr h)
    rw [insert, if_neg (Ne.symm ne), ih later, List.cons_append]

theorem insertAll_of_nodup {m : OrderedMap α} {entries : List (String × α)}
    (h : (keys (m ++ entries)).Nodup) : insertAll m entries = m ++ entries := by
  induction entries generalizing m with
  | nil => exact (List.append_nil m).symm
  | cons entry rest ih =>
    have split : m ++ entry :: rest = (m ++ [entry]) ++ rest := by simp
    have fresh : entry.1 ∉ keys m := by
      intro member
      rw [keys, List.map_append, List.nodup_append] at h
      exact h.2.2 _ member _ List.mem_cons_self rfl
    rw [split] at h
    rw [insertAll_cons, insert_of_not_mem_keys fresh, ih h, split]

theorem ofEntries_of_nodup {entries : List (String × α)} (h : (keys entries).Nodup) :
    ofEntries entries = entries :=
  insertAll_of_nodup (m := []) h

theorem nodup_keys_ofEntries (entries : List (String × α)) : (keys (ofEntries entries)).Nodup :=
  nodup_keys_insertAll (m := []) List.nodup_nil entries

/-- The keys of a map stand where they were first written. -/
theorem keys_insertAll (m : OrderedMap α) (entries : List (String × α)) :
    keys (insertAll m entries) =
      keys m ++ ((keys entries).filter fun key => key ∉ keys m).eraseDups := by
  induction entries generalizing m with
  | nil => exact (List.append_nil _).symm
  | cons entry rest ih =>
    have split : keys (entry :: rest) = entry.1 :: keys rest := rfl
    rw [insertAll_cons, ih, keys_insert, split]
    by_cases h : entry.1 ∈ keys m
    · rw [if_pos h, List.filter_cons_of_neg (by simpa using h)]
    · rw [if_neg h, List.filter_cons_of_pos (by simpa using h), List.eraseDups_cons,
        List.filter_filter, List.append_assoc, List.singleton_append]
      have same (key : String) : decide (key ∉ keys m ++ [entry.1]) =
          (!(key == entry.1) && decide (key ∉ keys m)) := by
        rw [Bool.eq_iff_iff]
        simp [and_comm]
      simp only [same]

theorem keys_ofEntries (entries : List (String × α)) :
    keys (ofEntries entries) = (keys entries).eraseDups := by
  rw [ofEntries, keys_insertAll]
  simp [keys]

theorem find?_ofEntries (entries : List (String × α)) (key : String) :
    find? (ofEntries entries) key = find? entries.reverse key := by
  rw [ofEntries, find?_insertAll, find?, Option.or_none]

theorem find?_reverse_of_nodup {m : OrderedMap α} (h : (keys m).Nodup) (key : String) :
    find? m.reverse key = find? m key := by
  rw [← find?_ofEntries, ofEntries_of_nodup h]

theorem find?_of_mem {m : OrderedMap α} (h : (keys m).Nodup) {key : String} {value : α}
    (member : (key, value) ∈ m) : find? m key = some value := by
  obtain ⟨before, after, rfl⟩ := List.append_of_mem member
  have fresh : key ∉ keys before := by
    intro earlier
    rw [keys, List.map_append, List.nodup_append] at h
    exact h.2.2 _ earlier _ List.mem_cons_self rfl
  rw [find?_append, find?_eq_none_of_not_mem_keys fresh, Option.none_or, find?, if_pos rfl]

theorem mem_of_find? {m : OrderedMap α} {key : String} {value : α}
    (h : find? m key = some value) : (key, value) ∈ m := by
  rw [find?_eq_map] at h
  obtain ⟨entry, found, rfl⟩ := Option.map_eq_some_iff.mp h
  have same := List.find?_some found
  rw [decide_eq_true_eq] at same
  exact same ▸ List.mem_of_find?_eq_some found

theorem mem_of_mem_ofEntries {entries : List (String × α)} {entry : String × α}
    (h : entry ∈ ofEntries entries) : entry ∈ entries := by
  have found := find?_of_mem (nodup_keys_ofEntries entries) h
  rw [find?_ofEntries] at found
  exact List.mem_reverse.mp (mem_of_find? found)

theorem filter_keys (p : String → Bool) (m : OrderedMap α) :
    (keys m).filter p = keys (m.filter (p ·.1)) :=
  List.filter_map

theorem find?_map {β : Type} (f : α → β) (m : OrderedMap α) (key : String) :
    find? (m.map fun entry => (entry.1, f entry.2)) key = (find? m key).map f := by
  induction m with
  | nil => rfl
  | cons entry rest ih =>
    by_cases h : entry.1 = key <;> simp [find?, h, ih]

/-! ### Some of the keys -/

theorem filter_insert (p : String → Bool) (m : OrderedMap α) (key : String) (value : α) :
    (insert m key value).filter (p ·.1) =
      if p key then insert (m.filter (p ·.1)) key value else m.filter (p ·.1) := by
  induction m with
  | nil => by_cases h : p key <;> simp [insert, h]
  | cons entry rest ih =>
    by_cases same : entry.1 = key
    · subst same
      by_cases h : p entry.1 <;> simp [insert, h]
    · by_cases h : p entry.1 <;> by_cases h' : p key <;> simp [insert, same, h, h', ih]

theorem filter_insertAll (p : String → Bool) (m : OrderedMap α) (entries : List (String × α)) :
    (insertAll m entries).filter (p ·.1) =
      insertAll (m.filter (p ·.1)) (entries.filter (p ·.1)) := by
  induction entries generalizing m with
  | nil => rfl
  | cons entry rest ih =>
    rw [insertAll_cons, ih, filter_insert]
    by_cases h : p entry.1 <;> simp [h]

theorem filter_ofEntries (p : String → Bool) (entries : List (String × α)) :
    (ofEntries entries).filter (p ·.1) = ofEntries (entries.filter (p ·.1)) :=
  filter_insertAll p [] entries

/-- A map may be made of the entries first, and its entries written over another map then. -/
theorem insertAll_ofEntries {m : OrderedMap α} (h : (keys m).Nodup)
    (entries : List (String × α)) : insertAll m (ofEntries entries) = insertAll m entries := by
  refine eq_of_keys_of_find? (nodup_keys_insertAll h _) ?_ fun key => ?_
  · rw [keys_insertAll, keys_insertAll, filter_keys, filter_keys,
      filter_ofEntries (fun key => decide (key ∉ keys m)), ← keys_ofEntries, ← keys_ofEntries,
      ofEntries_of_nodup (nodup_keys_ofEntries _)]
  · rw [find?_insertAll, find?_insertAll, find?_reverse_of_nodup (nodup_keys_ofEntries entries),
      find?_ofEntries]

/-! ### Related entries -/

variable {β : Type} {R : α → β → Prop} {m : OrderedMap α} {m' : OrderedMap β}

/-- The same keys in the same order, over values that are related. -/
abbrev Entrywise (R : α → β → Prop) (m : List (String × α)) (m' : List (String × β)) : Prop :=
  List.Forall₂ (fun entry entry' => entry.1 = entry'.1 ∧ R entry.2 entry'.2) m m'

theorem entrywise_eq_iff {f : α → β} :
    Entrywise (fun a b => f a = b) m m' ↔ m.map (fun entry => (entry.1, f entry.2)) = m' := by
  rw [← List.forall₂_eq_eq_eq, List.forall₂_map_left_iff]
  constructor <;> intro h <;> refine h.imp ?_
  · rintro ⟨_, a⟩ ⟨_, b⟩ ⟨rfl, rfl⟩
    rfl
  · rintro ⟨_, a⟩ ⟨_, b⟩ ⟨⟩
    exact ⟨rfl, rfl⟩

theorem entrywise_and_iff {P : α → Prop} :
    Entrywise (fun a b => P a ∧ R a b) m m' ↔ (∀ entry ∈ m, P entry.2) ∧ Entrywise R m m' := by
  refine Iff.trans ?_ (List.forall₂_and_left m m')
  constructor <;> exact List.Forall₂.imp fun _ _ => and_left_comm.mp

theorem Entrywise.insert (h : Entrywise R m m') (key : String) {a : α} {b : β} (related : R a b) :
    Entrywise R (insert m key a) (insert m' key b) := by
  induction h with
  | nil => exact .cons ⟨rfl, related⟩ .nil
  | @cons entry entry' _ _ head tail ih =>
    rw [OrderedMap.insert, OrderedMap.insert, ← head.1]
    by_cases same : entry.1 = key
    · rw [if_pos same, if_pos same]
      exact .cons ⟨rfl, related⟩ tail
    · rw [if_neg same, if_neg same]
      exact .cons ⟨rfl, head.2⟩ ih

theorem Entrywise.insertAll {entries : List (String × α)} {entries' : List (String × β)}
    (h : Entrywise R m m') (written : Entrywise R entries entries') :
    Entrywise R (insertAll m entries) (insertAll m' entries') := by
  induction written generalizing m m' with
  | nil => exact h
  | @cons entry entry' _ _ head _ ih =>
    rw [insertAll_cons, insertAll_cons, ← head.1]
    exact ih (h.insert entry.1 head.2)

theorem Entrywise.ofEntries {entries : List (String × α)} {entries' : List (String × β)}
    (h : Entrywise R entries entries') : Entrywise R (ofEntries entries) (ofEntries entries') :=
  Entrywise.insertAll .nil h

end OrderedMap

end InterfaceGen
