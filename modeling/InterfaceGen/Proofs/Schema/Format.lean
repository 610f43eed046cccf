import InterfaceGen.Proofs.Schema.Fields

/-!
# Formats

Properties and schemas are described alike: by an object with fields under keys, or by an array with
the fields in order. A format says which fields these are, how each is read into a draft and what a
draft comes to in the end. What holds of the reading of every format is shown here once.
-/

namespace InterfaceGen

open Json (Value Cause Fault)

structure Format (φ δ α : Type) where
  fields : List φ
  key : φ → String
  ofKey? : String → Option φ
  has : δ → φ → Bool
  read : φ → δ → Value → Except Fault δ
  start : δ
  finishByKey : δ → Except Cause α
  finishInOrder : δ → Except Cause α
  wanted : String
  nodup : fields.Nodup
  mem_fields : ∀ f, f ∈ fields
  ofKey?_key : ∀ f, ofKey? (key f) = some f
  key_of_ofKey? : ∀ {name f}, ofKey? name = some f → key f = name
  has_start : ∀ f, has start f = false
  marks : Marks has read

namespace Format

variable {φ δ α : Type} (F : Format φ δ α) {v : Value} {a : α}

theorem eq_of_ofKey? {name name' : String} {f : φ} (here : F.ofKey? name = some f)
    (there : F.ofKey? name' = some f) : name = name' :=
  (F.key_of_ofKey? here).symm.trans (F.key_of_ofKey? there)

/-- What a value of either spelling describes. -/
def ofValue : Value → Except Fault α
  | .object members => do
    let d ← readByKey F.ofKey? F.read F.start members
    (F.finishByKey d).mapError Fault.here
  | .array items => do
    let d ← readInOrder F.fields F.read 0 F.start items
    let a ← (F.finishInOrder d).mapError Fault.here
    if items.length ≤ F.fields.length then .ok a
    else .error (.here (.tooManyItems items.length))
  | v => v.mismatch F.wanted

theorem ofValue_object_eq_ok_iff {members : List (String × Value)} :
    F.ofValue (.object members) = .ok a ↔
      ∃ d, readByKey F.ofKey? F.read F.start members = .ok d ∧ F.finishByKey d = .ok a := by
  simp only [ofValue, except_bind_eq_ok_iff, mapError_eq_ok_iff]

theorem ofValue_array_eq_ok_iff {items : List Value} :
    F.ofValue (.array items) = .ok a ↔ items.length ≤ F.fields.length ∧
      ∃ d, readInOrder F.fields F.read 0 F.start items = .ok d ∧ F.finishInOrder d = .ok a := by
  simp only [ofValue, except_bind_eq_ok_iff, mapError_eq_ok_iff]
  constructor
  · rintro ⟨d, run, b, finished, h⟩
    split at h
    next fits =>
      cases h
      exact ⟨fits, d, run, finished⟩
    next => cases h
  · rintro ⟨fits, d, run, finished⟩
    exact ⟨d, run, a, finished, if_pos fits⟩

theorem exists_enclosure_of_ofValue (h : F.ofValue v = .ok a) :
    (∃ members, v = .object members) ∨ ∃ items, v = .array items := by
  cases v with
  | array items => exact .inr ⟨items, rfl⟩
  | object members => exact .inl ⟨members, rfl⟩
  | _ => cases h

/-- The value of a field in a description of either spelling. -/
inductive HasField : Value → φ → Value → Prop
  | byKey {members : List (String × Value)} {name : String} {f : φ} {v : Value}
      (member : (name, v) ∈ members) (known : F.ofKey? name = some f) :
      HasField (.object members) f v
  | inOrder {items : List Value} {i : Nat} {f : φ} {v : Value} (item : items[i]? = some v)
      (known : F.fields[i]? = some f) : HasField (.array items) f v

theorem forall_hasField_object_iff {members : List (String × Value)} {fine : φ → Value → Prop} :
    (∀ {f v}, F.HasField (.object members) f v → fine f v) ↔
      ∀ m ∈ members, ∀ f, F.ofKey? m.1 = some f → fine f m.2 := by
  constructor
  · intro h m inside f known
    exact h (.byKey inside known)
  · rintro h f v ⟨inside, known⟩
    exact h _ inside f known

theorem forall_hasField_array_iff {items : List Value} {fine : φ → Value → Prop} :
    (∀ {f v}, F.HasField (.array items) f v → fine f v) ↔
      ∀ {i : Nat} {v : Value} {f : φ}, items[i]? = some v → F.fields[i]? = some f → fine f v := by
  constructor
  · intro h i v f item known
    exact h (.inOrder item known)
  · rintro h f v (_ | ⟨item, known⟩)
    exact h item known

end Format

/-! ### Properties -/

namespace Property

theorem readMembers_eq_readByKey (d : Draft) (members : List (String × Value)) :
    readMembers d members = readByKey Field.ofKey? readField d members := by
  induction members generalizing d with
  | nil => rw [readMembers, readByKey]
  | cons m rest ih =>
    rw [readMembers, readByKey]
    cases Field.ofKey? m.1 with
    | none => exact ih d
    | some f =>
      dsimp only
      cases readField f d m.2 with
      | error fault => rfl
      | ok d' => exact ih d'

theorem readItems_eq_readInOrder (i : Nat) (d : Draft) (items : List Value) :
    readItems i d items = readInOrder Field.all readField i d items := by
  induction items generalizing i d with
  | nil => rw [readItems, readInOrder]
  | cons v rest ih =>
    rw [readItems, readInOrder, Field.ofIndex?]
    cases Field.all[i]? with
    | none => rfl
    | some f =>
      dsimp only
      cases readField f d v with
      | error fault => rfl
      | ok d' => exact ih (i + 1) d'

theorem readEntries_eq_ok_iff {m m' : Properties} {members : List (String × Value)} :
    readEntries m members = .ok m' ↔
      ∃ ps, OrderedMap.Entrywise (fun v p => ofValue v = .ok p) members ps ∧
        m' = OrderedMap.insertAll m ps := by
  induction members generalizing m with
  | nil =>
    rw [readEntries]
    constructor
    · rintro ⟨⟩
      exact ⟨[], .nil, rfl⟩
    · rintro ⟨_, ⟨⟩, rfl⟩
      rfl
  | cons member rest ih =>
    rw [readEntries]
    constructor
    · intro h
      split at h
      next => cases h
      next p here =>
        obtain ⟨ps, later, rfl⟩ := ih.mp h
        exact ⟨(member.1, p) :: ps, .cons ⟨rfl, here⟩ later, rfl⟩
    · rintro ⟨_, all, rfl⟩
      cases all with
      | cons here later =>
        rw [here.2]
        exact ih.mpr ⟨_, later, by rw [OrderedMap.insertAll_cons, here.1]⟩

theorem readField_properties_eq_ok_iff {d d' : Draft} {v : Value} :
    readField .properties d v = .ok d' ↔
      (v = .null ∧ d' = { d with properties := some none }) ∨ ∃ members entries,
        v = .object members ∧ readEntries [] members = .ok entries ∧
          d' = { d with properties := some (some entries) } := by
  cases v with
  | object members =>
    rw [readField, except_map_eq_ok_iff]
    simp [eq_comm]
  | _ => simp [readField, Value.mismatch, eq_comm]

theorem marks_readField : Marks Draft.has readField := by
  intro f d d' v h g
  cases f with
  | properties =>
    obtain ⟨-, rfl⟩ | ⟨_, _, -, -, rfl⟩ := readField_properties_eq_ok_iff.mp h <;>
      cases g <;> simp [Draft.has]
  | _ =>
    rw [readField, except_map_eq_ok_iff] at h
    obtain ⟨_, -, rfl⟩ := h
    cases g <;> simp [Draft.has]

abbrev format : Format Field Draft Property where
  fields := Field.all
  key := Field.key
  ofKey? := Field.ofKey?
  has := Draft.has
  read := readField
  start := {}
  finishByKey := Draft.finish missingType
  finishInOrder := Draft.finish tooShort
  wanted := wanted
  nodup := by decide
  mem_fields f := by cases f <;> decide
  ofKey?_key f := by cases f <;> rfl
  key_of_ofKey? := name_of_find?
  has_start f := by cases f <;> rfl
  marks := marks_readField

theorem ofValue_eq : ofValue = format.ofValue := by
  funext v
  cases v with
  | object members =>
    rw [ofValue, readMembers_eq_readByKey, Format.ofValue]
    cases readByKey Field.ofKey? readField {} members <;> rfl
  | array items =>
    rw [ofValue, readItems_eq_readInOrder, Format.ofValue]
    cases readInOrder Field.all readField 0 {} items with
    | error fault => rfl
    | ok d =>
      cases finished : d.finish tooShort <;>
        simp [finished, bind, Except.bind, Except.mapError]
  | _ => rfl

end Property

/-! ### Schemas -/

namespace Schema

theorem readField_properties_eq_ok_iff {d d' : Draft} {v : Value} :
    readField .properties d v = .ok d' ↔ ∃ members entries,
      v = .object members ∧ Property.readEntries [] members = .ok entries ∧
        d' = { d with properties := some entries } := by
  cases v with
  | object members =>
    rw [readField, except_map_eq_ok_iff]
    simp [eq_comm]
  | _ => simp [readField, Value.mismatch, eq_comm]

theorem marks_readField : Marks Draft.has readField := by
  intro f d d' v h g
  cases f with
  | properties =>
    obtain ⟨_, _, -, -, rfl⟩ := readField_properties_eq_ok_iff.mp h
    cases g <;> simp [Draft.has]
  | _ =>
    rw [readField, except_map_eq_ok_iff] at h
    obtain ⟨_, -, rfl⟩ := h
    cases g <;> simp [Draft.has]

/-- A schema has no field that has to be given. -/
abbrev format : Format Field Draft Schema where
  fields := Field.all
  key := Field.key
  ofKey? := Field.ofKey?
  has := Draft.has
  read := readField
  start := {}
  finishByKey d := .ok d.finish
  finishInOrder d := .ok d.finish
  wanted := wanted
  nodup := by decide
  mem_fields f := by cases f <;> decide
  ofKey?_key f := by cases f <;> rfl
  key_of_ofKey? := name_of_find?
  has_start f := by cases f <;> rfl
  marks := marks_readField

theorem ofValue_eq : ofValue = format.ofValue := by
  funext v
  cases v with
  | object members =>
    rw [ofValue, Format.ofValue]
    cases readByKey Field.ofKey? readField {} members <;> rfl
  | array items =>
    rw [ofValue, Format.ofValue]
    cases readInOrder Field.all readField 0 {} items <;> rfl
  | _ => rfl

end Schema

end InterfaceGen
