import Mathlib.Logic.Relation
import InterfaceGen.Proofs.Schema.Format

/-!
# Members that say nothing

Members under keys that name no field, and nulls for fields that may be absent and are, can be added
to the structures of a value without a trace: the value describes the same, or it is at fault in the
same place for the same cause.
-/

namespace InterfaceGen

open Json (Value Fault)

/-! ### One member more -/

section structures

variable {φ δ : Type}

/-- A member more in a structure: under a key that names no field, or a null for a field that may be
null and is not given. -/
inductive AddsMember (ofKey? : String → Option φ) (nullable : φ → Prop) : Value → Value → Prop
  | unknown {before after : List (String × Value)} {key : String} (x : Value)
      (unknown : ofKey? key = none) :
      AddsMember ofKey? nullable (.object (before ++ after)) (.object (before ++ (key, x) :: after))
  | null {before after : List (String × Value)} {key : String} {f : φ} (known : ofKey? key = some f)
      (optional : nullable f) (absent : key ∉ OrderedMap.keys (before ++ after)) :
      AddsMember ofKey? nullable (.object (before ++ after))
        (.object (before ++ (key, .null) :: after))

/-- A change to the value of one field of a structure, in either spelling. -/
inductive InField (ofKey? : String → Option φ) (fields : List φ) (f : φ)
    (change : Value → Value → Prop) : Value → Value → Prop
  | byKey {before after : List (String × Value)} {key : String} {v v' : Value}
      (known : ofKey? key = some f) (changed : change v v') :
      InField ofKey? fields f change (.object (before ++ (key, v) :: after))
        (.object (before ++ (key, v') :: after))
  | inOrder {before after : List Value} {v v' : Value} (known : fields[before.length]? = some f)
      (changed : change v v') :
      InField ofKey? fields f change (.array (before ++ v :: after))
        (.array (before ++ v' :: after))

/-- A change to the value under one of the names of an object. -/
inductive InEntry (change : Value → Value → Prop) : Value → Value → Prop
  | entry {before after : List (String × Value)} {name : String} {v v' : Value}
      (changed : change v v') :
      InEntry change (.object (before ++ (name, v) :: after))
        (.object (before ++ (name, v') :: after))

end structures

/-- A member more that says nothing in a property, or in one that is so many levels below it. -/
def Property.AddsAt : Nat → Value → Value → Prop
  | 0 => AddsMember Field.ofKey? (· ≠ .type)
  | depth + 1 => InField Field.ofKey? Field.all .properties (InEntry (AddsAt depth))

/-- A member more that says nothing in a schema or in a property anywhere below it. -/
inductive Schema.Adds (v v' : Value) : Prop
  | here (h : AddsMember Field.ofKey? (· = .required) v v')
  | below (depth : Nat)
      (h : InField Field.ofKey? Field.all .properties (InEntry (Property.AddsAt depth)) v v')

/-! ### What a structure makes of it -/

section structures

variable {φ δ : Type} {ofKey? : String → Option φ} {read : φ → δ → Value → Except Fault δ}
  {before after : List (String × Value)} {key : String} {f : φ} {d : δ}

theorem readByKey_of_unknown (unknown : ofKey? key = none) (x : Value) :
    readByKey ofKey? read d (before ++ (key, x) :: after) =
      readByKey ofKey? read d (before ++ after) := by
  simp only [readByKey_append, readByKey_cons_of_none (m := (key, x)) unknown]

theorem readByKey_congr {v v' : Value} (known : ofKey? key = some f)
    (same : ∀ d, read f d v' = read f d v) :
    readByKey ofKey? read d (before ++ (key, v') :: after) =
      readByKey ofKey? read d (before ++ (key, v) :: after) := by
  simp only [readByKey_append, readByKey, known, same]

theorem readInOrder_congr {fields : List φ} {i : Nat} {before after : List Value} {v v' : Value}
    (known : fields[i + before.length]? = some f) (same : ∀ d, read f d v' = read f d v) :
    readInOrder fields read i d (before ++ v' :: after) =
      readInOrder fields read i d (before ++ v :: after) := by
  induction before generalizing i d with
  | nil =>
    have here : fields[i]? = some f := known
    simp only [List.nil_append, readInOrder, here, same]
  | cons u rest ih =>
    have later : fields[i + 1 + rest.length]? = some f := by
      rwa [Nat.add_right_comm, Nat.add_assoc]
    simp only [List.cons_append, readInOrder, ih later]

theorem InField.reads_alike {fields : List φ} {change : Value → Value → Prop} {v v' : Value}
    (h : InField ofKey? fields f change v v')
    (same : ∀ {v v'}, change v v' → ∀ d, read f d v' = read f d v) :
    (∃ members members', v = .object members ∧ v' = .object members' ∧
        ∀ d, readByKey ofKey? read d members' = readByKey ofKey? read d members) ∨
      ∃ items items', v = .array items ∧ v' = .array items' ∧ items'.length = items.length ∧
        ∀ d, readInOrder fields read 0 d items' = readInOrder fields read 0 d items := by
  cases h with
  | byKey known changed =>
    exact .inl ⟨_, _, rfl, rfl, fun d => readByKey_congr known (same changed)⟩
  | inOrder known changed =>
    rw [← Nat.zero_add (List.length _)] at known
    exact .inr ⟨_, _, rfl, rfl, by simp, fun d => readInOrder_congr known (same changed)⟩

/-- A field may be marked as read before the others are, if their readings keep the mark. -/
theorem readByKey_mark {mark : δ → δ}
    (keeps : ∀ g ≠ f, ∀ d v, read g (mark d) v = (read g d v).map mark)
    (absent : f ∉ fieldsOf ofKey? after) :
    readByKey ofKey? read (mark d) after = (readByKey ofKey? read d after).map mark := by
  induction after generalizing d with
  | nil => rfl
  | cons m rest ih =>
    cases known : ofKey? m.1 with
    | none =>
      rw [fieldsOf_cons_of_none known] at absent
      rw [readByKey_cons_of_none known, readByKey_cons_of_none known, ih absent]
    | some g =>
      rw [fieldsOf_cons_of_some known, List.mem_cons, not_or] at absent
      rw [readByKey, readByKey, known]
      dsimp only
      rw [keeps g (Ne.symm absent.1)]
      cases read g d m.2 with
      | error fault => rfl
      | ok d' => exact ih absent.2

theorem readByKey_of_null {mark : δ → δ} (known : ofKey? key = some f)
    (null : ∀ d, read f d .null = .ok (mark d))
    (keeps : ∀ g ≠ f, ∀ d v, read g (mark d) v = (read g d v).map mark)
    (absent : f ∉ fieldsOf ofKey? after) :
    readByKey ofKey? read d (before ++ (key, .null) :: after) =
      (readByKey ofKey? read d (before ++ after)).map mark := by
  rw [readByKey_append, readByKey_append]
  cases readByKey ofKey? read d before with
  | error fault => rfl
  | ok d' =>
    change readByKey ofKey? read d' ((key, .null) :: after) = _
    rw [readByKey_cons_of_ok (m := (key, .null)) known (null d')]
    exact readByKey_mark keeps absent

theorem AddsMember.exists_objects {nullable : φ → Prop} {v v' : Value}
    (h : AddsMember ofKey? nullable v v') :
    ∃ members members', v = .object members ∧ v' = .object members' := by
  cases h <;> exact ⟨_, _, rfl, rfl⟩

end structures

namespace Format

variable {φ δ α : Type} {F : Format φ δ α} {nullable : φ → Prop} {mark : φ → δ → δ} {v v' : Value}

/-- A null at a field leaves a mark there that no other field depends on, and that is not seen in
the end if there was none before. -/
structure NullsVanish (F : Format φ δ α) (nullable : φ → Prop) (mark : φ → δ → δ) : Prop where
  null : ∀ {f}, nullable f → ∀ d, F.read f d .null = .ok (mark f d)
  keeps : ∀ {f}, nullable f → ∀ g ≠ f, ∀ d v, F.read g (mark f d) v = (F.read g d v).map (mark f)
  finish_mark : ∀ {f}, nullable f → ∀ {d}, F.has d f = false →
    F.finishByKey (mark f d) = F.finishByKey d

theorem map_finish_readByKey (vanish : F.NullsVanish nullable mark)
    {members members' : List (String × Value)}
    (h : AddsMember F.ofKey? nullable (.object members) (.object members')) :
    (readByKey F.ofKey? F.read F.start members').map F.finishByKey =
      (readByKey F.ofKey? F.read F.start members).map F.finishByKey := by
  cases h with
  | unknown x unknown => rw [readByKey_of_unknown unknown]
  | @null before after key f known optional absent =>
    have unread : f ∉ fieldsOf F.ofKey? (before ++ after) := by
      intro given
      obtain ⟨m, member, same⟩ := List.mem_filterMap.mp given
      exact absent (List.mem_map.mpr ⟨m, member, F.eq_of_ofKey? same known⟩)
    have unreadAfter : f ∉ fieldsOf F.ofKey? after := by
      rw [fieldsOf_append, List.mem_append, not_or] at unread
      exact unread.2
    rw [readByKey_of_null known (vanish.null optional) (vanish.keeps optional) unreadAfter,
      except_map_map]
    cases run : readByKey F.ofKey? F.read F.start (before ++ after) with
    | error fault => rfl
    | ok d' =>
      have untouched : F.has d' f = false := by
        rw [← Bool.not_eq_true, F.marks.readByKey run, F.has_start f]
        simp [unread]
      exact congrArg Except.ok (vanish.finish_mark optional untouched)

theorem ofValue_of_addsMember (vanish : F.NullsVanish nullable mark)
    (h : AddsMember F.ofKey? nullable v v') : F.ofValue v' = F.ofValue v := by
  have object (members : List (String × Value)) : F.ofValue (.object members) =
      ((readByKey F.ofKey? F.read F.start members).map F.finishByKey >>=
        Except.mapError Fault.here) := by
    rw [ofValue]
    cases readByKey F.ofKey? F.read F.start members <;> rfl
  obtain ⟨members, members', rfl, rfl⟩ := h.exists_objects
  rw [object, object, map_finish_readByKey vanish h]

theorem ofValue_of_inField {f : φ} {change : Value → Value → Prop}
    (h : InField F.ofKey? F.fields f change v v')
    (same : ∀ {v v'}, change v v' → ∀ d, F.read f d v' = F.read f d v) :
    F.ofValue v' = F.ofValue v := by
  obtain ⟨members, members', rfl, rfl, read⟩ | ⟨items, items', rfl, rfl, length, read⟩ :=
    h.reads_alike same
  · rw [ofValue, ofValue, read]
  · rw [ofValue, ofValue, read, length]

end Format

namespace Property

/-- The draft after a null at a field that may be null. -/
def Draft.blank : Field → Draft → Draft
  | .title, d => { d with title := some none }
  | .type, d => d
  | .enumValues, d => { d with enumValues := some none }
  | .properties, d => { d with properties := some none }
  | .required, d => { d with required := some none }
  | .foreignKey, d => { d with foreignKey := some none }
  | .foreignKeyType, d => { d with foreignKeyType := some none }

theorem readField_blank {f g : Field} (ne : g ≠ f) (d : Draft) (v : Value) :
    readField g (d.blank f) v = (readField g d v).map (Draft.blank f) := by
  cases g with
  | properties =>
    cases v with
    | null => cases f <;> first | exact absurd rfl ne | rfl
    | object members =>
      rw [readField, readField, except_map_map]
      cases f <;> first | exact absurd rfl ne | rfl
    | _ => rw [readField, readField] <;> first | rfl | simp
  | _ =>
    rw [readField, readField, except_map_map]
    cases f <;> first | exact absurd rfl ne | rfl

theorem nullsVanish : format.NullsVanish (· ≠ .type) Draft.blank where
  null {f} optional d := by
    cases f with
    | type => exact absurd rfl optional
    | properties =>
      change readField _ _ _ = _
      rw [readField, Draft.blank]
    | _ => rfl
  keeps _ g ne d v := readField_blank ne d v
  finish_mark {f} _ d untouched := by
    cases f <;> simp_all [Draft.has, Draft.blank, Draft.finish]

theorem readEntries_congr {before after : List (String × Value)} {name : String} {v v' : Value}
    (same : ofValue v' = ofValue v) (m : Properties) :
    readEntries m (before ++ (name, v') :: after) =
      readEntries m (before ++ (name, v) :: after) := by
  induction before generalizing m with
  | nil => simp only [List.nil_append, readEntries, same]
  | cons entry rest ih => simp only [List.cons_append, readEntries, ih]

theorem exists_readEntries_of_inEntry {change : Value → Value → Prop} {v v' : Value}
    (h : InEntry change v v') (same : ∀ {v v'}, change v v' → ofValue v' = ofValue v) :
    ∃ members members', v = .object members ∧ v' = .object members' ∧
      ∀ m, readEntries m members' = readEntries m members := by
  obtain ⟨changed⟩ := h
  exact ⟨_, _, rfl, rfl, readEntries_congr (same changed)⟩

theorem ofValue_of_addsAt {depth : Nat} {v v' : Value} (h : AddsAt depth v v') :
    ofValue v' = ofValue v := by
  -- Level by level down to the property that has a member more.
  induction depth generalizing v v' with
  | zero =>
    rw [ofValue_eq]
    exact Format.ofValue_of_addsMember nullsVanish h
  | succ depth ih =>
    have same {v v' : Value} (below : InEntry (AddsAt depth) v v') (d : Draft) :
        readField .properties d v' = readField .properties d v := by
      obtain ⟨members, members', rfl, rfl, entries⟩ := exists_readEntries_of_inEntry below ih
      rw [readField, readField, entries]
    rw [ofValue_eq]
    exact Format.ofValue_of_inField (F := format) h same

end Property

namespace Schema

theorem nullsVanish :
    format.NullsVanish (· = .required) fun _ d => { d with required := some none } where
  null := by
    rintro _ rfl d
    rfl
  keeps := by
    rintro _ rfl g ne d v
    change readField g _ v = (readField g d v).map _
    cases g with
    | required => exact absurd rfl ne
    | properties =>
      cases v with
      | object members =>
        rw [readField, readField, except_map_map]
        rfl
      | _ => rfl
    | type =>
      rw [readField, readField, except_map_map]
      rfl
  finish_mark := by
    rintro _ rfl d untouched
    simp_all [Draft.has, Draft.finish]

theorem ofValue_of_adds {v v' : Value} (h : Adds v v') : ofValue v' = ofValue v := by
  rw [ofValue_eq]
  cases h with
  | here h => exact Format.ofValue_of_addsMember nullsVanish h
  | below depth h =>
    have same {v v' : Value} (below : InEntry (Property.AddsAt depth) v v') (d : Draft) :
        readField .properties d v' = readField .properties d v := by
      obtain ⟨members, members', rfl, rfl, entries⟩ :=
        Property.exists_readEntries_of_inEntry below Property.ofValue_of_addsAt
      rw [readField, readField, entries]
    exact Format.ofValue_of_inField (F := format) h same

/-- However many members are added that say nothing, the value loads as it did, or fails to load in
the same place for the same cause. -/
theorem ofValue_ignores_additions {v v' : Value} (h : Relation.ReflTransGen Adds v v') :
    ofValue v' = ofValue v := by
  induction h with
  | refl => rfl
  | tail _ added ih => rw [ofValue_of_adds added, ih]

/-- A keyword next to the properties and a null in one of them, which has no type either way. -/
theorem ofValue_ignores_additions_untyped :
    ofValue (.object [("$id", .boolean true),
        ("properties", .object [("name", .object [("title", .null)])])]) =
      .error ⟨[.key "properties", .key "name"], .missingField "type"⟩ := by
  have keyword : Adds (.object [("properties", .object [("name", .object [])])])
      (.object [("$id", .boolean true), ("properties", .object [("name", .object [])])]) :=
    .here (@AddsMember.unknown _ _ _ [] _ "$id" _ (by decide))
  have title : Property.AddsAt 0 (.object []) (.object [("title", .null)]) :=
    @AddsMember.null _ _ _ [] [] "title" .title (by decide) (by decide) (by decide)
  have null : Adds
      (.object [("$id", .boolean true), ("properties", .object [("name", .object [])])])
      (.object [("$id", .boolean true),
        ("properties", .object [("name", .object [("title", .null)])])]) :=
    .below 0 (@InField.byKey _ _ _ _ _ [("$id", .boolean true)] [] "properties" _ _ (by decide)
      (@InEntry.entry _ [] [] "name" _ _ title))
  exact (ofValue_ignores_additions (.tail (.single keyword) null)).trans (by rfl)

end Schema

end InterfaceGen
