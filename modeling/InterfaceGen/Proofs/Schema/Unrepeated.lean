import Mathlib.Data.List.Nodup
import InterfaceGen.Proofs.Json.Merged
import InterfaceGen.Proofs.Schema.Format

/-!
# Descriptions that give each field once

A text is read member by member, and a field that comes a second time is refused; a finished value
has no member twice. Where every structure of a document gives each of its fields once, the document
and the value that is read from it describe the same, whatever else of it occurs twice: the names
of properties may, and the last property counts.
-/

namespace InterfaceGen

open Json (Value Fault)

section structures

variable {φ δ : Type} {ofKey? : String → Option φ} {read : φ → δ → Value → Except Fault δ}
  {members : List (String × Value)} {d d' : δ}

theorem nodup_keys_of_nodup_fieldsOf (h : (fieldsOf ofKey? members).Nodup) :
    (OrderedMap.keys (members.filter fun m => (ofKey? m.1).isSome)).Nodup := by
  induction members with
  | nil => exact List.nodup_nil
  | cons m rest ih =>
    cases known : ofKey? m.1 with
    | none =>
      rw [fieldsOf_cons_of_none known] at h
      simpa [known] using ih h
    | some f =>
      rw [fieldsOf_cons_of_some known, List.nodup_cons] at h
      have fresh : m.1 ∉ OrderedMap.keys (rest.filter fun m => (ofKey? m.1).isSome) := by
        intro again
        obtain ⟨other, inside, same⟩ := List.mem_map.mp again
        refine h.1 (List.mem_filterMap.mpr ⟨other, (List.mem_filter.mp inside).1, ?_⟩)
        rw [same, known]
      rw [List.filter_cons_of_pos (by rw [known, Option.isSome_some])]
      exact List.nodup_cons.mpr ⟨fresh, ih h.2⟩

theorem nodup_fieldsOf (functional : ∀ {a b : String} {f : φ},
      ofKey? a = some f → ofKey? b = some f → a = b)
    (h : (OrderedMap.keys members).Nodup) : (fieldsOf ofKey? members).Nodup := by
  have same : fieldsOf ofKey? members = (OrderedMap.keys members).filterMap ofKey? :=
    List.filterMap_map.symm
  rw [same]
  exact List.Nodup.filterMap (fun a b f here there => functional here there) h

/-- Merging a structure that has no field twice keeps what its fields say. -/
theorem readByKey_merged (once : (fieldsOf ofKey? members).Nodup)
    (kept : ∀ m ∈ members, ∀ f, ofKey? m.1 = some f → ∀ d d',
      read f d m.2 = .ok d' → read f d m.2.merged = .ok d')
    (run : readByKey ofKey? read d members = .ok d') :
    readByKey ofKey? read d (OrderedMap.ofEntries (members.map fun m => (m.1, m.2.merged))) =
      .ok d' := by
  have below : readByKey ofKey? read d (members.map fun m => (m.1, m.2.merged)) = .ok d' := by
    clear once
    induction members generalizing d with
    | nil => exact run
    | cons m rest ih =>
      obtain ⟨here, later⟩ := List.forall_mem_cons.mp kept
      rw [List.map_cons]
      cases known : ofKey? m.1 with
      | none =>
        rw [readByKey_cons_of_none known] at run
        rw [readByKey_cons_of_none (m := (m.1, m.2.merged)) known]
        exact ih later run
      | some f =>
        obtain ⟨d₁, head, tail⟩ := readByKey_cons_eq_ok known run
        rw [readByKey_cons_of_ok (m := (m.1, m.2.merged)) known (here f known _ _ head)]
        exact ih later tail
  have distinct : (OrderedMap.keys ((members.map fun m => (m.1, m.2.merged)).filter
      fun m => (ofKey? m.1).isSome)).Nodup := by
    have same := nodup_keys_of_nodup_fieldsOf once
    simpa [OrderedMap.keys, List.filter_map, Function.comp_def] using same
  -- Keys that come twice name no field, and members under such keys may drop out.
  rw [← readByKey_filter, OrderedMap.filter_ofEntries fun key => (ofKey? key).isSome,
    OrderedMap.ofEntries_of_nodup distinct, readByKey_filter, below]

theorem readInOrder_merged {fields : List φ} {items : List Value} {i : Nat}
    (kept : ∀ {k : Nat} {v : Value} {f : φ}, items[k]? = some v → fields[i + k]? = some f →
      ∀ d d', read f d v = .ok d' → read f d v.merged = .ok d')
    (run : readInOrder fields read i d items = .ok d') :
    readInOrder fields read i d (items.map Value.merged) = .ok d' := by
  induction items generalizing i d with
  | nil => exact run
  | cons v rest ih =>
    rw [readInOrder] at run
    rw [List.map_cons, readInOrder]
    split at run
    next out => exact run
    next f known =>
      split at run
      next => cases run
      next here =>
        obtain ⟨first, later⟩ := (forall_getElem?_cons_iff known).mp kept
        rw [first _ _ here]
        exact ih later run

end structures

/-! ### Structures that give each field once -/

namespace Format

variable {φ δ α : Type} {F : Format φ δ α} {fine : φ → Value → Prop} {v : Value} {a : α}

/-- An object does not give a field twice, and what the fields hold is fine. -/
structure Once (F : Format φ δ α) (fine : φ → Value → Prop) (v : Value) : Prop where
  once : ∀ {members}, v = .object members → (fieldsOf F.ofKey? members).Nodup
  below : ∀ {f w}, F.HasField v f w → fine f w

theorem once_array_iff {items : List Value} : F.Once fine (.array items) ↔
    ∀ {i : Nat} {v : Value} {f : φ}, items[i]? = some v → F.fields[i]? = some f → fine f v := by
  rw [← F.forall_hasField_array_iff]
  exact ⟨fun h => h.below, fun below => ⟨nofun, below⟩⟩

theorem once_object_iff {members : List (String × Value)} : F.Once fine (.object members) ↔
    (fieldsOf F.ofKey? members).Nodup ∧ ∀ m ∈ members, ∀ f, F.ofKey? m.1 = some f → fine f m.2 := by
  rw [← F.forall_hasField_object_iff]
  refine ⟨fun h => ⟨h.once rfl, h.below⟩, fun ⟨once, below⟩ => ⟨fun same => ?_, below⟩⟩
  cases same
  exact once

/-- Merging keeps what a structure describes, if it keeps what is read of the fields. -/
theorem Once.ofValue_merged (h : F.Once fine v)
    (kept : ∀ f w, fine f w → ∀ d d', F.read f d w = .ok d' → F.read f d w.merged = .ok d')
    (read : F.ofValue v = .ok a) : F.ofValue v.merged = .ok a := by
  obtain ⟨members, rfl⟩ | ⟨items, rfl⟩ := F.exists_enclosure_of_ofValue read
  · obtain ⟨once, below⟩ := once_object_iff.mp h
    obtain ⟨d, run, finished⟩ := F.ofValue_object_eq_ok_iff.mp read
    rw [Value.merged_object, ofValue_object_eq_ok_iff]
    exact ⟨d, readByKey_merged once (fun m inside f known => kept f _ (below m inside f known)) run,
      finished⟩
  · obtain ⟨fits, d, run, finished⟩ := F.ofValue_array_eq_ok_iff.mp read
    rw [Value.merged_array, ofValue_array_eq_ok_iff, List.length_map]
    refine ⟨fits, d, readInOrder_merged (fun {k v f} item known => ?_) run, finished⟩
    exact kept f v (once_array_iff.mp h item (by simpa using known))

theorem HasField.distinctKeys {f : φ} {w : Value} (field : F.HasField v f w)
    (h : v.DistinctKeys) : w.DistinctKeys := by
  cases field with
  | byKey member known =>
    cases h with
    | object keys below => exact below _ member
  | inOrder item known =>
    cases h with
    | array below => exact below _ (List.mem_of_getElem? item)

theorem once_of_distinctKeys (h : v.DistinctKeys) (below : ∀ {f w}, F.HasField v f w → fine f w) :
    F.Once fine v := by
  refine ⟨fun same => ?_, below⟩
  subst same
  cases h with
  | object keys _ => exact nodup_fieldsOf F.eq_of_ofKey? keys

end Format

/-! ### Values with nothing to merge -/

theorem merged_namesToJson (names : List String) :
    (namesToJson names).merged = namesToJson names := by
  simp [namesToJson, Value.merged_array, Value.merged, Function.comp_def]

theorem TypeDecl.merged_toJson (decl : TypeDecl) : decl.toJson.merged = decl.toJson := by
  cases decl with
  | single tag => rw [toJson, Value.merged]
  | alternatives tags => exact merged_namesToJson tags

theorem EnumValues.merged_toJson (values : EnumValues) :
    (EnumValues.toJson values).merged = EnumValues.toJson values := by
  rw [toJson, Value.merged_array, List.map_map]
  refine congrArg Value.array (List.map_congr_left fun o _ => ?_)
  cases o <;> simp [Value.merged]

theorem merged_eq_of_toOption {α : Type} {read : Value → Except Fault α} {v : Value} {o : Option α}
    (h : Value.toOption read v = .ok o) (kept : ∀ a, read v = .ok a → v.merged = v) :
    v.merged = v := by
  obtain ⟨rfl, -⟩ | ⟨-, a, here, -⟩ := Value.toOption_eq_ok_iff.mp h
  · rw [Value.merged]
  · exact kept a here

theorem merged_eq_of_toText {v : Value} {s : String} (h : v.toText = .ok s) : v.merged = v := by
  rw [Value.toText_eq_ok_iff.mp h, Value.merged]

theorem merged_eq_of_toNames {v : Value} {names : List String} (h : v.toNames = .ok names) :
    v.merged = v := by
  rw [Value.toNames_eq_ok_iff.mp h, merged_namesToJson]

theorem merged_eq_of_toEnumValues {v : Value} {values : EnumValues}
    (h : v.toEnumValues = .ok values) : v.merged = v := by
  rw [Value.toEnumValues_eq_ok_iff.mp h, EnumValues.merged_toJson]

theorem merged_eq_of_toTypeDecl {v : Value} {decl : TypeDecl} (h : v.toTypeDecl = .ok decl) :
    v.merged = v := by
  rw [Value.toTypeDecl_eq_ok_iff.mp h, TypeDecl.merged_toJson]

theorem merged_eq_of_toCardinality {v : Value} {kind : Cardinality}
    (h : v.toCardinality = .ok kind) : v.merged = v := by
  obtain rfl | rfl := Value.toCardinality_eq_ok_iff.mp h
  · rw [Value.merged]
  · rw [Value.merged_object, List.map_singleton, Value.merged]
    rfl

namespace Property

/-- No property of the description has a field twice. -/
inductive Unrepeated : Value → Prop
  | intro {v : Value}
      (once : ∀ {members}, v = .object members → (fieldsOf Field.ofKey? members).Nodup)
      (below : ∀ {entries}, format.HasField v .properties (.object entries) →
        ∀ entry ∈ entries, Unrepeated entry.2) : Unrepeated v

def EntriesUnrepeated (v : Value) : Prop :=
  ∀ ⦃entries⦄, v = .object entries → ∀ entry ∈ entries, Unrepeated entry.2

theorem unrepeated_iff {v : Value} :
    Unrepeated v ↔ format.Once (fun f w => f = .properties → EntriesUnrepeated w) v := by
  constructor
  · rintro ⟨once, below⟩
    refine ⟨once, fun field same entries object => ?_⟩
    subst same object
    exact below field
  · rintro ⟨once, below⟩
    exact .intro once fun field => below field rfl rfl

/-- What is read as a field other than the properties has no two members to merge. -/
theorem merged_eq_of_readField {f : Field} (ne : f ≠ .properties) {d d' : Draft} {v : Value}
    (h : readField f d v = .ok d') : v.merged = v := by
  cases f with
  | properties => exact absurd rfl ne
  | title =>
    rw [readField, except_map_eq_ok_iff] at h
    obtain ⟨_, read, -⟩ := h
    exact merged_eq_of_toOption read fun _ => merged_eq_of_toText
  | type =>
    rw [readField, except_map_eq_ok_iff] at h
    obtain ⟨_, read, -⟩ := h
    exact merged_eq_of_toTypeDecl read
  | enumValues =>
    rw [readField, except_map_eq_ok_iff] at h
    obtain ⟨_, read, -⟩ := h
    exact merged_eq_of_toOption read fun _ => merged_eq_of_toEnumValues
  | required =>
    rw [readField, except_map_eq_ok_iff] at h
    obtain ⟨_, read, -⟩ := h
    exact merged_eq_of_toOption read fun _ => merged_eq_of_toNames
  | foreignKey =>
    rw [readField, except_map_eq_ok_iff] at h
    obtain ⟨_, read, -⟩ := h
    exact merged_eq_of_toOption read fun _ => merged_eq_of_toText
  | foreignKeyType =>
    rw [readField, except_map_eq_ok_iff] at h
    obtain ⟨_, read, -⟩ := h
    exact merged_eq_of_toOption read fun _ => merged_eq_of_toCardinality

theorem readEntries_merged {entries : List (String × Value)} {m : Properties}
    (kept : ∀ entry ∈ entries, ∀ p, ofValue entry.2 = .ok p → ofValue entry.2.merged = .ok p)
    (h : readEntries [] entries = .ok m) :
    readEntries [] (OrderedMap.ofEntries (entries.map fun m => (m.1, m.2.merged))) = .ok m := by
  obtain ⟨ps, all, rfl⟩ := readEntries_eq_ok_iff.mp h
  have below : OrderedMap.Entrywise (fun v p => ofValue v = .ok p)
      (entries.map fun m => (m.1, m.2.merged)) ps := by
    rw [OrderedMap.Entrywise, List.forall₂_map_left_iff]
    refine (List.forall₂_iff_zip.mpr ⟨all.length_eq, fun {entry p} inside => ?_⟩)
    have here := List.forall₂_iff_zip.mp all |>.2 inside
    exact ⟨here.1, kept entry (List.of_mem_zip inside).1 _ here.2⟩
  refine readEntries_eq_ok_iff.mpr ⟨_, below.ofEntries, ?_⟩
  exact (OrderedMap.ofEntries_of_nodup (OrderedMap.nodup_keys_ofEntries ps)).symm

theorem readField_merged {f : Field} {d d' : Draft} {v : Value}
    (kept : ∀ entries, f = .properties → v = .object entries → ∀ entry ∈ entries, ∀ p,
      ofValue entry.2 = .ok p → ofValue entry.2.merged = .ok p)
    (h : readField f d v = .ok d') : readField f d v.merged = .ok d' := by
  by_cases same : f = .properties
  · subst same
    obtain ⟨rfl, rfl⟩ | ⟨entries, m, rfl, read, rfl⟩ := readField_properties_eq_ok_iff.mp h
    · rw [Value.merged, h]
    · rw [Value.merged_object, readField_properties_eq_ok_iff]
      exact .inr ⟨_, m, rfl, readEntries_merged (kept entries rfl rfl) read, rfl⟩
  · rw [merged_eq_of_readField same h, h]

/-- Where no field comes twice, merging the document keeps the property it describes. -/
theorem Unrepeated.ofValue_merged {v : Value} (h : Unrepeated v) {p : Property}
    (read : ofValue v = .ok p) : ofValue v.merged = .ok p := by
  induction h generalizing p with
  | @intro v once below ih =>
    have fine : format.Once (fun f w => ∀ entries, f = .properties → w = .object entries →
        ∀ entry ∈ entries, ∀ p, ofValue entry.2 = .ok p → ofValue entry.2.merged = .ok p) v := by
      refine ⟨once, fun field entries same object entry inside p => ?_⟩
      subst same object
      exact ih field entry inside
    rw [ofValue_eq] at read ⊢
    exact fine.ofValue_merged (fun f w kept _ _ => readField_merged kept) read

/-- A document without repeated keys has no repeated field. -/
theorem unrepeated_of_distinctKeys {v : Value} (h : v.DistinctKeys) :
    Unrepeated v ∧ EntriesUnrepeated v := by
  induction h with
  | @array items below ih =>
    refine ⟨unrepeated_iff.mpr ?_, nofun⟩
    refine Format.once_of_distinctKeys (.array below) fun field _ => ?_
    cases field with
    | inOrder item known => exact (ih _ (List.mem_of_getElem? item)).2
  | @object members keys below ih =>
    constructor
    · refine unrepeated_iff.mpr (Format.once_of_distinctKeys (.object keys below) fun field _ => ?_)
      cases field with
      | byKey member known => exact (ih _ member).2
    · rintro _ ⟨⟩ entry inside
      exact (ih entry inside).1
  | _ => exact ⟨.intro nofun nofun, nofun⟩

end Property

namespace Schema

/-- Neither the schema nor a property in it has a field twice. -/
def Unrepeated : Value → Prop :=
  format.Once fun f w => f = .properties → Property.EntriesUnrepeated w

theorem readField_merged {f : Field} {d d' : Draft} {v : Value}
    (kept : f = .properties → Property.EntriesUnrepeated v)
    (h : readField f d v = .ok d') : readField f d v.merged = .ok d' := by
  cases f with
  | type =>
    obtain ⟨s, read, -⟩ := except_map_eq_ok_iff.mp h
    rw [merged_eq_of_toText read, h]
  | properties =>
    obtain ⟨entries, m, rfl, read, rfl⟩ := readField_properties_eq_ok_iff.mp h
    rw [Value.merged_object, readField_properties_eq_ok_iff]
    refine ⟨_, m, rfl, Property.readEntries_merged (fun entry inside => ?_) read, rfl⟩
    exact fun _ => (kept rfl rfl entry inside).ofValue_merged
  | required =>
    obtain ⟨names, read, -⟩ := except_map_eq_ok_iff.mp h
    rw [merged_eq_of_toOption read fun _ => merged_eq_of_toNames, h]

theorem Unrepeated.ofValue_merged {v : Value} (h : Unrepeated v) {s : Schema}
    (read : ofValue v = .ok s) : ofValue v.merged = .ok s := by
  rw [ofValue_eq] at read ⊢
  exact Format.Once.ofValue_merged h (fun f w kept _ _ => readField_merged kept) read

theorem unrepeated_of_distinctKeys {v : Value} (h : v.DistinctKeys) : Unrepeated v :=
  Format.once_of_distinctKeys h fun field _ =>
    (Property.unrepeated_of_distinctKeys (field.distinctKeys h)).2

end Schema

end InterfaceGen
