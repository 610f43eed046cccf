import InterfaceGen.Proofs.Schema.RoundTrip

/-!
# Names in schemas that are read

Properties are read into maps, so a schema that is read from a value has no name twice among its
properties, at any depth, however often the value has a key.
-/

namespace InterfaceGen

open Json (Value Fault)

section structures

variable {φ δ : Type} {ofKey? : String → Option φ} {fields : List φ}
  {read : φ → δ → Value → Except Fault δ} {good : δ → Prop} {d d' : δ}

theorem readByKey_preserves {members : List (String × Value)}
    (kept : ∀ m ∈ members, ∀ f, ofKey? m.1 = some f → ∀ d d', read f d m.2 = .ok d' → good d →
      good d')
    (run : readByKey ofKey? read d members = .ok d') (h : good d) : good d' := by
  induction members generalizing d with
  | nil =>
    cases run
    exact h
  | cons m rest ih =>
    obtain ⟨here, later⟩ := List.forall_mem_cons.mp kept
    cases known : ofKey? m.1 with
    | none =>
      rw [readByKey_cons_of_none known] at run
      exact ih later run h
    | some f =>
      obtain ⟨d₁, first, others⟩ := readByKey_cons_eq_ok known run
      exact ih later others (here f known d d₁ first h)

theorem readInOrder_preserves {i : Nat} {items : List Value}
    (kept : ∀ {k : Nat} {v : Value} {f : φ}, items[k]? = some v → fields[i + k]? = some f →
      ∀ d d', read f d v = .ok d' → good d → good d')
    (run : readInOrder fields read i d items = .ok d') (h : good d) : good d' := by
  induction items generalizing i d with
  | nil =>
    cases run
    exact h
  | cons v rest ih =>
    rw [readInOrder] at run
    split at run
    next =>
      cases run
      exact h
    next f known =>
      split at run
      next => cases run
      next d₁ here =>
        obtain ⟨first, later⟩ := (forall_getElem?_cons_iff known).mp kept
        exact ih later run (first d d₁ here h)

end structures

/-- What holds of the first draft and is kept field by field holds of the last. -/
theorem Format.exists_draft_of_ofValue {φ δ α : Type} (F : Format φ δ α) {good : δ → Prop}
    {v : Value} {a : α} (start : good F.start)
    (kept : ∀ f w, F.HasField v f w → ∀ d d', F.read f d w = .ok d' → good d → good d')
    (h : F.ofValue v = .ok a) :
    ∃ d, good d ∧ (F.finishByKey d = .ok a ∨ F.finishInOrder d = .ok a) := by
  obtain ⟨members, rfl⟩ | ⟨items, rfl⟩ := F.exists_enclosure_of_ofValue h
  · obtain ⟨d, run, finished⟩ := F.ofValue_object_eq_ok_iff.mp h
    have kept := F.forall_hasField_object_iff.mp fun {f w} field => kept f w field
    exact ⟨d, readByKey_preserves kept run start, .inl finished⟩
  · obtain ⟨-, d, run, finished⟩ := F.ofValue_array_eq_ok_iff.mp h
    refine ⟨d, readInOrder_preserves (fun item known => ?_) run start, .inr finished⟩
    exact kept _ _ (.inOrder item (by rwa [Nat.zero_add] at known))

namespace Property

/-- No name stands twice in a map of properties, at any depth. -/
structure DistinctEntries (m : Properties) : Prop where
  distinct : (OrderedMap.keys m).Nodup
  below : ∀ entry ∈ m, entry.2.DistinctNames

theorem distinctEntries_of_readEntries {members : List (String × Value)} {m : Properties}
    (below : ∀ entry ∈ members, ∀ {p}, ofValue entry.2 = .ok p → p.DistinctNames)
    (h : readEntries [] members = .ok m) : DistinctEntries m := by
  obtain ⟨ps, read, rfl⟩ := readEntries_eq_ok_iff.mp h
  refine ⟨OrderedMap.nodup_keys_ofEntries ps, ?_⟩
  intro entry listed
  have written := OrderedMap.mem_of_mem_ofEntries listed
  obtain ⟨i, bound, rfl⟩ := List.getElem_of_mem written
  have fits : i < members.length := by rwa [read.length_eq]
  exact below _ (List.getElem_mem fits) (read.get fits bound).2

/-- What has been read of the properties so far has no name twice. -/
def Draft.Distinct (d : Draft) : Prop := ∀ m ∈ d.properties.join, DistinctEntries m

theorem distinct_readField {f : Field} {d d' : Draft} {v : Value}
    (below : ∀ {members}, v = .object members → ∀ entry ∈ members, ∀ {p},
      ofValue entry.2 = .ok p → p.DistinctNames)
    (h : readField f d v = .ok d') (distinct : d.Distinct) : d'.Distinct := by
  cases f with
  | properties =>
    obtain ⟨-, rfl⟩ | ⟨members, m, object, read, rfl⟩ := readField_properties_eq_ok_iff.mp h
    · nofun
    · rintro _ ⟨⟩
      exact distinctEntries_of_readEntries (below object) read
  | _ =>
    rw [readField, except_map_eq_ok_iff] at h
    obtain ⟨_, -, rfl⟩ := h
    exact distinct

theorem distinctNames_of_finish {missing : Json.Cause} {d : Draft} {p : Property}
    (distinct : d.Distinct) (h : d.finish missing = .ok p) : p.DistinctNames := by
  unfold Draft.finish at h
  split at h
  next => cases h
  next =>
    cases h
    exact .intro (fun {m} here => (distinct m here).distinct) fun {m} here =>
      (distinct m here).below

theorem distinctNames_of_fields {v : Value} {p : Property}
    (kept : ∀ f w, format.HasField v f w → ∀ d d', readField f d w = .ok d' → d.Distinct →
      d'.Distinct)
    (h : ofValue v = .ok p) : p.DistinctNames := by
  rw [ofValue_eq] at h
  obtain ⟨d, distinct, finished | finished⟩ := format.exists_draft_of_ofValue (by nofun) kept h <;>
    exact distinctNames_of_finish distinct finished

/-- A property that is read has no name twice, and reading a field gives none to what has been read
before. -/
theorem distinctNames_of_ofValue (v : Value) :
    (∀ {p}, ofValue v = .ok p → p.DistinctNames) ∧
      ∀ f d d', readField f d v = .ok d' → d.Distinct → d'.Distinct := by
  induction v using Value.nested_induction with
  | array items ih =>
    refine ⟨distinctNames_of_fields fun f w field => ?_, fun f d d' => distinct_readField nofun⟩
    cases field with
    | inOrder item known => exact (ih w (List.mem_of_getElem? item)).2 f
  | object members ih =>
    refine ⟨distinctNames_of_fields fun f w field => ?_, fun f d d' => distinct_readField ?_⟩
    · cases field with
      | byKey member known => exact (ih _ member).2 f
    · rintro _ ⟨⟩ entry inside p read
      exact (ih entry inside).1 read
  | _ => exact ⟨nofun, fun f d d' => distinct_readField nofun⟩

end Property

namespace Schema

theorem distinct_readField {f : Field} {d d' : Draft} {v : Value} (h : readField f d v = .ok d')
    (distinct : ∀ m ∈ d.properties, Property.DistinctEntries m) :
    ∀ m ∈ d'.properties, Property.DistinctEntries m := by
  cases f with
  | properties =>
    obtain ⟨members, m, rfl, read, rfl⟩ := readField_properties_eq_ok_iff.mp h
    rintro _ ⟨⟩
    exact Property.distinctEntries_of_readEntries
      (fun entry _ => (Property.distinctNames_of_ofValue entry.2).1) read
  | _ =>
    rw [readField, except_map_eq_ok_iff] at h
    obtain ⟨_, -, rfl⟩ := h
    exact distinct

theorem distinctNames_of_finish {d : Draft}
    (distinct : ∀ m ∈ d.properties, Property.DistinctEntries m) : d.finish.DistinctNames := by
  cases properties : d.properties with
  | none =>
    rw [Draft.finish, properties]
    exact ⟨List.nodup_nil, List.forall_mem_nil _⟩
  | some m =>
    obtain ⟨here, below⟩ := distinct m properties
    rw [Draft.finish, properties]
    exact ⟨here, below⟩

/-- A schema that is read has no name twice, at any depth. -/
theorem distinctNames_of_ofValue {v : Value} {s : Schema} (h : ofValue v = .ok s) :
    s.DistinctNames := by
  rw [ofValue_eq] at h
  have empty : ∀ m ∈ ({} : Draft).properties, Property.DistinctEntries m := nofun
  obtain ⟨d, distinct, finished | finished⟩ :=
    format.exists_draft_of_ofValue empty (fun f w _ d d' => distinct_readField) h
  all_goals
    cases finished
    exact distinctNames_of_finish distinct

end Schema

end InterfaceGen
