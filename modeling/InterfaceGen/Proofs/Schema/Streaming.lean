import InterfaceGen.Proofs.Json.Skipping
import InterfaceGen.Proofs.Schema.Unrepeated
import InterfaceGen.Schema.OfText

/-!
# Descriptions read as the text goes by

A text that spells a document is read into what the document describes, and read without fault just
if the document describes something and gives no field twice.
-/

namespace InterfaceGen

open Json (Value Cause Fault Reader Spelling Spelled Spells Items Members Step)
open Json.Reader (Reads)

/-! ### Leaves -/

theorem Value.merged_eq_string_iff {v : Value} {s : String} :
    v.merged = .string s ↔ v = .string s := by
  cases v <;> simp [Value.merged]

theorem merged_eq_namesToJson_iff {v : Value} {names : List String} :
    v.merged = namesToJson names ↔ v = namesToJson names := by
  cases v with
  | array items =>
    simp only [Value.merged_array, namesToJson, Value.array.injEq, ← List.forall₂_eq_eq_eq,
      List.forall₂_map_left_iff, List.forall₂_map_right_iff, Value.merged_eq_string_iff]
  | _ => simp [namesToJson, Value.merged]

theorem TypeDecl.merged_eq_toJson_iff {v : Value} {decl : TypeDecl} :
    v.merged = decl.toJson ↔ v = decl.toJson := by
  cases decl with
  | single tag => exact Value.merged_eq_string_iff
  | alternatives tags => exact merged_eq_namesToJson_iff

/-- What is judged after it has been read is judged as it stands in the document. -/
theorem TypeDecl.reader_reads (n : Nat) :
    (TypeDecl.reader n).Reads (Spells n) fun v decl => v.toTypeDecl = .ok decl := by
  refine ((Reads.value n).check _).congr fun v decl => ?_
  simp [mapError_eq_ok_iff, Value.toTypeDecl_eq_ok_iff, TypeDecl.merged_eq_toJson_iff]

theorem namesReader_reads (n : Nat) :
    (namesReader n).Reads (Spells n) fun v names => v.toNames = .ok names := by
  refine (Reads.list (Reads.spells fun {_ _} => Reads.string) n).congr fun v names => ?_
  simp only [Value.toNames, Value.toList_eq_ok_iff, Value.toText_eq_ok_iff]

theorem Reads.optionalSpells {α : Type} {reader : Reader α} {means : Value → α → Prop} {n : Nat}
    (h : reader.Reads (Spells n) means) :
    reader.optional.Reads (Spells n) fun v o =>
      (v = .null ∧ o = none) ∨ v ≠ .null ∧ ∃ a, means v a ∧ o = some a := by
  cases n <;> exact Reads.optional h

theorem Reads.toOption {α : Type} {reader : Reader α} {read : Value → Except Fault α} {n : Nat}
    (h : reader.Reads (Spells n) fun v a => read v = .ok a) :
    reader.optional.Reads (Spells n) fun v o => Value.toOption read v = .ok o :=
  (Reads.optionalSpells h).congr fun _ _ => Value.toOption_eq_ok_iff.symm

theorem textReader_reads (n : Nat) :
    Reader.string.Reads (Spells n) fun v s => v.toText = .ok s :=
  (Reads.spells (fun {_ _} => Reads.string) n).congr fun _ _ => Value.toText_eq_ok_iff.symm

theorem enumReader_reads (n : Nat) :
    (enumReader n).Reads (Spells n) fun v values => v.toEnumValues = .ok values := by
  refine (Reads.list (fun n => Reads.toOption (textReader_reads n)) n).congr fun v values => ?_
  simp only [Value.toEnumValues, Value.toList_eq_ok_iff]

namespace Cardinality

theorem closeRecord_eq_ok_iff (first : Bool) {s r : List Char} :
    closeRecord s = .ok r ↔ Json.nextMember first s = .ok (.closed r) := by
  constructor
  · intro h
    unfold closeRecord at h
    split at h
    next => cases h
    next brace =>
      cases h
      rw [Json.nextMember, brace]
      rfl
    next => cases h
  · intro h
    rw [closeRecord, Json.nextMember_eq_closed_iff.mp h]
    rfl

theorem readKey_of_entry {s t : List Char} (h : Json.nextMember true s = .ok (.entry t)) :
    readKey s = (Json.readText [] t).mapError fun e => Fault.here (.malformed e) := by
  obtain ⟨-, quote⟩ | ⟨first, -⟩ := Json.nextMember_eq_entry_iff.mp h
  · rw [readKey, quote]
    rfl
  · cases first

theorem readRecord_eq_ok_iff {n : Nat} {s r rest : List Char} {members : List (String × Value)}
    {kind : Cardinality} (spelled : Members (Spells n) true s members r) :
    readRecord s = .ok (kind, rest) ↔ members = [(kind.name, .null)] ∧ rest = r := by
  unfold readRecord
  cases spelled with
  | closed next =>
    rw [readKey, Json.nextMember_eq_closed_iff.mp next]
    simp
  | @entry _ _ _ _ afterColon afterValue _ name x later next key colon here others =>
    rw [readKey_of_entry next, key]
    dsimp only [Except.mapError]
    have unit {after : List Char} :
        Reader.unit.run afterColon = .ok ((), after) ↔ x = .null ∧ after = afterValue :=
      Reads.spells (fun {_ _} => Reads.unit) n here
    have closing {after : List Char} :
        closeRecord afterValue = .ok after ↔ later = [] ∧ after = r := by
      rw [closeRecord_eq_ok_iff false]
      cases others with
      | closed next => simp [next, eq_comm]
      | entry next => simp [next]
    constructor
    · intro run
      split at run
      next => cases run
      next named =>
        cases Value.ofName_eq_ok_iff.mp named
        rw [colon] at run
        dsimp only at run
        split at run
        next => cases run
        next read =>
          obtain ⟨rfl, rfl⟩ := unit.mp read
          obtain ⟨closed, rfl⟩ := Json.map_word_eq_ok_iff.mp run
          obtain ⟨rfl, rfl⟩ := closing.mp closed
          exact ⟨rfl, rfl⟩
    · rintro ⟨⟨⟩, rfl⟩
      rw [Value.ofName_eq_ok_iff.mpr rfl, colon]
      dsimp only
      rw [unit.mpr ⟨rfl, rfl⟩]
      dsimp only
      rw [closing.mpr ⟨rfl, rfl⟩]
      rfl

theorem read_scalar_eq_ok_iff {n : Nat} {s r rest : List Char} {v : Value} {kind : Cardinality}
    (h : Json.readScalar (Json.skipBlanks s) = .ok (v, r)) :
    read n s = .ok (kind, rest) ↔ v = .string kind.name ∧ rest = r := by
  unfold read
  split
  next blank =>
    rw [blank] at h
    cases h
  next t quote =>
    rw [quote, Json.readScalar] at h
    obtain ⟨name, text, rfl⟩ := Json.map_pair_eq_ok_iff.mp h
    rw [text]
    dsimp only
    rw [Value.string.injEq, ← Value.ofName_eq_ok_iff]
    cases ofName name <;> simp [eq_comm]
  next brace =>
    rw [brace] at h
    cases h
  next noQuote _ =>
    simp only [reduceCtorEq, false_iff, not_and]
    rintro rfl
    obtain ⟨t, quote, -⟩ := Json.readScalar_string_iff.mp h
    exact absurd quote (noQuote t)

theorem reader_reads (n : Nat) :
    (Cardinality.reader n).Reads (Spells n) fun v kind => v.toCardinality = .ok kind := by
  intro s v r spelled kind rest
  show read n s = .ok (kind, rest) ↔ v.toCardinality = .ok kind ∧ rest = r
  rw [Value.toCardinality_eq_ok_iff]
  cases n with
  | zero =>
    cases spelled with
    | scalar h =>
      have ne := (Json.readScalar_ne_enclosure h).2
      simpa only [ne, or_false] using read_scalar_eq_ok_iff h
    | array _ read => exact read.elim
    | object _ read => exact read.elim
  | succ n =>
    cases spelled with
    | scalar h =>
      have ne := (Json.readScalar_ne_enclosure h).2
      simpa only [ne, or_false] using read_scalar_eq_ok_iff h
    | array bracket =>
      rw [read, bracket]
      simp
    | object brace members =>
      rw [read, brace]
      simpa using readRecord_eq_ok_iff members

end Cardinality

/-! ### Structures -/

section structures

variable {φ δ : Type} {ofKey? : String → Option φ} {fields : List φ} {has : δ → φ → Bool}
  {field : φ → δ → Reader δ} {read : φ → δ → Value → Except Fault δ} {fine : φ → Value → Prop}
  {value : Spelling Value}

theorem closeArray_iff_closed {i : Nat} {s r : List Char} :
    Json.closeArray s = .ok r ↔ Json.nextItem i s = .ok (.closed r) := by
  rw [Json.closeArray_eq_ok_iff, Json.nextItem_eq_closed_iff]

theorem readItems_fields_eq_ok_iff
    (h : ∀ f d, (field f d).Reads value fun v d' => fine f v ∧ read f d v = .ok d') {i : Nat}
    {d d' : δ} {s r rest : List Char} {items : List Value} (spelled : Items value i s items r) :
    Json.readItems (fun i d => fields[i]?.map fun f => field f d) i d s = .ok (d', rest) ↔
      (items.length ≤ fields.length - i ∧
        (∀ {k : Nat} {v : Value} {f : φ}, items[k]? = some v → fields[i + k]? = some f → fine f v) ∧
          readInOrder fields read i d items = .ok d') ∧ rest = r := by
  induction spelled generalizing d with
  | @closed i s r next =>
    cases known : fields[i]? with
    | none =>
      -- The fields have run out, so all that is looked for is the bracket, which is there.
      rw [Json.readItems_of_none (by rw [known]; rfl), closeArray_iff_closed.mpr next]
      simp [readInOrder, eq_comm (a := r)]
    | some f =>
      rw [Json.readItems_of_closed (by rw [known]; rfl) next]
      simp [readInOrder, eq_comm]
  | @entry i s t u r v items next here _ ih =>
    cases known : fields[i]? with
    | none =>
      -- The fields have run out before the items have.
      have out : fields.length - i = 0 := Nat.sub_eq_zero_of_le (List.getElem?_eq_none_iff.mp known)
      rw [Json.readItems_of_none (by rw [known]; rfl)]
      have open' : ∀ r', Json.closeArray s ≠ .ok r' := by
        intro r' closed
        rw [closeArray_iff_closed.mp closed] at next
        cases next
      cases closed : Json.closeArray s with
      | error e => simp [out]
      | ok r' => exact absurd closed (open' r')
    | some f =>
      have bound : i < fields.length := (List.getElem?_eq_some_iff.mp known).1
      have fits : (v :: items).length ≤ fields.length - i ↔
          items.length ≤ fields.length - (i + 1) := by
        rw [List.length_cons]
        omega
      rw [Json.readItems_of_entry (by rw [known]; rfl) next, readInOrder, known, fits,
        forall_getElem?_cons_iff known]
      dsimp only
      constructor
      · intro run
        split at run
        next => cases run
        next read =>
          obtain ⟨⟨good, read⟩, rfl⟩ := (h f d here).mp read
          obtain ⟨⟨fits, rest, later⟩, rfl⟩ := ih.mp run
          rw [read]
          exact ⟨⟨fits, ⟨good, rest⟩, later⟩, rfl⟩
      · rintro ⟨⟨fits, ⟨good, rest⟩, run⟩, rfl⟩
        split at run
        next => cases run
        next read =>
          rw [(h f d here).mpr ⟨⟨good, read⟩, rfl⟩]
          exact ih.mpr ⟨⟨fits, rest, run⟩, rfl⟩

/-- The items of an array are the values of the fields in order, and there is a field for each. -/
theorem Reads.inOrder
    (h : ∀ f d, (field f d).Reads value fun v d' => fine f v ∧ read f d v = .ok d') (d : δ) :
    (Reader.items (fun i d => fields[i]?.map fun f => field f d) d).Reads (Items value 0)
      fun items d' => items.length ≤ fields.length ∧
        (∀ {i : Nat} {v : Value} {f : φ}, items[i]? = some v → fields[i]? = some f → fine f v) ∧
          readInOrder fields read 0 d items = .ok d' := by
  intro s items r spelled d' rest
  refine (readItems_fields_eq_ok_iff h spelled).trans ?_
  rw [Nat.sub_zero]
  simp only [Nat.zero_add]

/-- After it has been read a field has its mark, so those after it must not name it again. -/
theorem Marks.fresh_cons_iff (marks : Marks has read) {f : φ} {d d' : δ} {v : Value}
    (readField : read f d v = .ok d') (there : has d f = false) {others : List φ} :
    ((f :: others).Nodup ∧ ∀ g ∈ f :: others, has d g = false) ↔
      others.Nodup ∧ ∀ g ∈ others, has d' g = false := by
  simp only [marks.eq_false_iff readField, List.nodup_cons, List.forall_mem_cons, there, true_and]
  constructor
  · rintro ⟨⟨new, distinct⟩, fresh⟩
    exact ⟨distinct, fun g inside => ⟨fresh g inside, fun same => new (same ▸ inside)⟩⟩
  · rintro ⟨distinct, fresh⟩
    exact ⟨⟨fun inside => (fresh f inside).2 rfl, distinct⟩, fun g inside => (fresh g inside).1⟩

theorem forall_mem_cons_of_ofKey? {f : φ} {name : String} {v : Value}
    {members : List (String × Value)} (known : ofKey? name = some f) :
    (∀ m ∈ (name, v) :: members, ∀ g, ofKey? m.1 = some g → fine g m.2) ↔
      fine f v ∧ ∀ m ∈ members, ∀ g, ofKey? m.1 = some g → fine g m.2 := by
  rw [List.forall_mem_cons]
  simp only [known, Option.some.injEq, forall_eq']

theorem readMembers_fields_eq_ok_iff (marks : Marks has read)
    (skip : Reader.skip.Reads value fun _ _ => True)
    (h : ∀ f d, (field f d).Reads value fun v d' => fine f v ∧ read f d v = .ok d')
    {keyPlace : Json.Place} {first : Bool} {d d' : δ} {s r rest : List Char}
    {members : List (String × Value)} (spelled : Members value first s members r) :
    Json.readMembers keyPlace (fieldMembers ofKey? has field) first d s = .ok (d', rest) ↔
      (((fieldsOf ofKey? members).Nodup ∧ ∀ f ∈ fieldsOf ofKey? members, has d f = false) ∧
        (∀ m ∈ members, ∀ f, ofKey? m.1 = some f → fine f m.2) ∧
          readByKey ofKey? read d members = .ok d') ∧ rest = r := by
  induction spelled generalizing d with
  | closed next =>
    rw [Json.readMembers_of_closed next]
    simp [readByKey, fieldsOf, eq_comm (a := rest)]
  | @entry first s t u v w r name x members next key colon here _ ih =>
    rw [Json.readMembers_of_entry next key colon, fieldMembers, readByKey]
    cases known : ofKey? name with
    | none =>
      rw [fieldsOf_cons_of_none known]
      have passed : (Reader.skip.map fun _ => d).run v = .ok (d, w) :=
        Reader.run_map_eq_ok_iff.mpr ⟨(), (skip here).mpr ⟨trivial, rfl⟩, rfl⟩
      dsimp only
      rw [passed]
      dsimp only
      rw [ih]
      simp [known]
    | some f =>
      rw [fieldsOf_cons_of_some known]
      dsimp only
      cases there : has d f with
      -- A field that has its mark has been read before, and the key is refused.
      | true => simp [there]
      | false =>
        rw [if_neg (by decide), forall_mem_cons_of_ofKey? known]
        dsimp only
        constructor
        · intro run
          split at run
          next => cases run
          next read =>
            obtain ⟨⟨good, read⟩, rfl⟩ := (h f d here).mp read
            obtain ⟨⟨fresh, rest, later⟩, rfl⟩ := ih.mp run
            rw [read]
            exact ⟨⟨(marks.fresh_cons_iff read there).mpr fresh, ⟨good, rest⟩, later⟩, rfl⟩
        · rintro ⟨⟨fresh, ⟨good, rest⟩, run⟩, rfl⟩
          split at run
          next => cases run
          next read =>
            rw [(h f d here).mpr ⟨⟨good, read⟩, rfl⟩]
            exact ih.mpr ⟨⟨(marks.fresh_cons_iff read there).mp fresh, rest, run⟩, rfl⟩

/-- The members of an object are the values of fields, none of which comes twice; the others may be
anything. -/
theorem Reads.byKey (marks : Marks has read) (skip : Reader.skip.Reads value fun _ _ => True)
    (h : ∀ f d, (field f d).Reads value fun v d' => fine f v ∧ read f d v = .ok d')
    (keyPlace : Json.Place) (d : δ) (fresh : ∀ f, has d f = false) :
    (Reader.members keyPlace (fieldMembers ofKey? has field) d).Reads (Members value true)
      fun members d' => (fieldsOf ofKey? members).Nodup ∧
        (∀ m ∈ members, ∀ f, ofKey? m.1 = some f → fine f m.2) ∧
          readByKey ofKey? read d members = .ok d' := by
  intro s members r spelled d' rest
  refine (readMembers_fields_eq_ok_iff marks skip h spelled).trans ?_
  simp only [fresh, implies_true, and_true]

end structures

namespace Format

variable {φ δ α : Type} {F : Format φ δ α} {field : φ → δ → Reader δ} {fine : φ → Value → Prop}

/-- The items of an array as the fields of a format, given their readers. -/
def itemsReader (F : Format φ δ α) (field : φ → δ → Reader δ) : Reader α :=
  (Reader.items (fun i d => F.fields[i]?.map fun f => field f d) F.start).check F.finishInOrder

def membersReader (F : Format φ δ α) (field : φ → δ → Reader δ) : Reader α :=
  (Reader.members [Step.unnamed] (fieldMembers F.ofKey? F.has field) F.start).check F.finishByKey

theorem itemsReader_reads {value : Spelling Value}
    (h : ∀ f d, (field f d).Reads value fun v d' => fine f v ∧ F.read f d v = .ok d') :
    (F.itemsReader field).Reads (Items value 0)
      fun items a => F.Once fine (.array items) ∧ F.ofValue (.array items) = .ok a := by
  refine ((Reads.inOrder h F.start).check _).congr fun items a => ?_
  rw [once_array_iff, F.ofValue_array_eq_ok_iff]
  constructor
  · rintro ⟨d, ⟨fits, below, run⟩, finished⟩
    exact ⟨below, fits, d, run, finished⟩
  · rintro ⟨below, fits, d, run, finished⟩
    exact ⟨d, ⟨fits, below, run⟩, finished⟩

theorem membersReader_reads {n : Nat}
    (h : ∀ f d, (field f d).Reads (Spells n) fun v d' => fine f v ∧ F.read f d v = .ok d') :
    (F.membersReader field).Reads (Members (Spells n) true)
      fun members a => F.Once fine (.object members) ∧ F.ofValue (.object members) = .ok a := by
  refine ((Reads.byKey F.marks (Reads.skip n) h _ F.start F.has_start).check
    _).congr fun members a => ?_
  rw [once_object_iff, F.ofValue_object_eq_ok_iff]
  constructor
  · rintro ⟨d, ⟨once, below, run⟩, finished⟩
    exact ⟨⟨once, below⟩, d, run, finished⟩
  · rintro ⟨⟨once, below⟩, d, run, finished⟩
    exact ⟨d, ⟨once, below, run⟩, finished⟩

/-- Behind a bracket that nests too deep nothing is read. -/
theorem nowhere_reads (F : Format φ δ α) {c c' : Cause} :
    (Reader.dispatch (Reader.refuse F.wanted) (.error c) (.error c')).Reads (Spells 0)
      fun v a => F.Once fine v ∧ F.ofValue v = .ok a :=
  Reads.enclosure (fun _ _ h => F.exists_enclosure_of_ofValue h.2) (.nowhere _) (.nowhere _)

/-- A structure is read from what gives no field twice, field by field as from a value. -/
theorem reader_reads (F : Format φ δ α) {n : Nat}
    (h : ∀ f d, (field f d).Reads (Spells n) fun v d' => fine f v ∧ F.read f d v = .ok d') :
    (Reader.dispatch (Reader.refuse F.wanted) (.ok (F.itemsReader field))
      (.ok (F.membersReader field))).Reads (Spells (n + 1))
        fun v a => F.Once fine v ∧ F.ofValue v = .ok a :=
  Reads.enclosure (fun _ _ h => F.exists_enclosure_of_ofValue h.2) (itemsReader_reads h)
    (membersReader_reads h)

end Format

namespace Property

theorem fieldReader_reads {n : Nat} {entries : Reader Properties}
    (h : entries.Reads (Spells n) fun v m => EntriesUnrepeated v ∧
      ∃ members, v = .object members ∧ readEntries [] members = .ok m) (f : Field) (d : Draft) :
    (fieldReader n entries f d).Reads (Spells n) fun v d' =>
      (f = .properties → EntriesUnrepeated v) ∧ readField f d v = .ok d' := by
  cases f with
  | properties =>
    refine ((Reads.optionalSpells h).map _).congr fun v d' => ?_
    rw [readField_properties_eq_ok_iff]
    constructor
    · rintro ⟨_, ⟨rfl, rfl⟩ | ⟨-, m, ⟨fine, members, rfl, read⟩, rfl⟩, rfl⟩
      · exact ⟨fun _ => nofun, .inl ⟨rfl, rfl⟩⟩
      · exact ⟨fun _ => fine, .inr ⟨members, m, rfl, read, rfl⟩⟩
    · rintro ⟨fine, ⟨rfl, rfl⟩ | ⟨members, m, rfl, read, rfl⟩⟩
      · exact ⟨none, .inl ⟨rfl, rfl⟩, rfl⟩
      · exact ⟨some m, .inr ⟨nofun, m, ⟨fine rfl, members, rfl, read⟩, rfl⟩, rfl⟩
  | title =>
    refine ((Reads.toOption (textReader_reads n)).map _).congr fun v d' => ?_
    simp [readField, except_map_eq_ok_iff]
  | type =>
    refine ((TypeDecl.reader_reads n).map _).congr fun v d' => ?_
    simp [readField, except_map_eq_ok_iff]
  | enumValues =>
    refine ((Reads.toOption (enumReader_reads n)).map _).congr fun v d' => ?_
    simp [readField, except_map_eq_ok_iff]
  | required =>
    refine ((Reads.toOption (namesReader_reads n)).map _).congr fun v d' => ?_
    simp [readField, except_map_eq_ok_iff]
  | foreignKey =>
    refine ((Reads.toOption (textReader_reads n)).map _).congr fun v d' => ?_
    simp [readField, except_map_eq_ok_iff]
  | foreignKeyType =>
    refine ((Reads.toOption (Cardinality.reader_reads n)).map _).congr fun v d' => ?_
    simp [readField, except_map_eq_ok_iff]

theorem entriesMembers_reads {value : Spelling Value} {reader : Reader Property}
    (h : reader.Reads value fun v p => Unrepeated v ∧ ofValue v = .ok p) :
    (Reader.members [Step.unnamed]
        (fun (m : Properties) name => .ok (reader.map (m.insert name))) []).Reads
      (Members value true) fun entries m => EntriesUnrepeated (.object entries) ∧
        ∃ members, Value.object entries = .object members ∧ readEntries [] members = .ok m := by
  refine (h.entries [Step.unnamed]).congr fun entries m => ?_
  simp only [OrderedMap.entrywise_and_iff]
  constructor
  · rintro ⟨ps, ⟨below, all⟩, rfl⟩
    refine ⟨fun _ same => ?_, entries, rfl, readEntries_eq_ok_iff.mpr ⟨ps, all, rfl⟩⟩
    cases same
    exact below
  · rintro ⟨below, _, ⟨⟩, read⟩
    obtain ⟨ps, all, rfl⟩ := readEntries_eq_ok_iff.mp read
    exact ⟨ps, ⟨below rfl, all⟩, rfl⟩

/-- Properties are read from what describes them and gives no field twice, in either reading. -/
theorem reader_reads (n : Nat) :
    ((reader n).Reads (Spells n) fun v p => Unrepeated v ∧ ofValue v = .ok p) ∧
      (entriesReader n).Reads (Spells n) fun v m => EntriesUnrepeated v ∧
        ∃ members, v = .object members ∧ readEntries [] members = .ok m := by
  have entries (v : Value) (m : Properties) (h : EntriesUnrepeated v ∧
      ∃ members, v = .object members ∧ readEntries [] members = .ok m) :
      (∃ members, v = .object members) ∨ ∃ items, v = .array items :=
    let ⟨_, members, same, _⟩ := h
    .inl ⟨members, same⟩
  induction n with
  | zero =>
    simp only [unrepeated_iff, ofValue_eq]
    rw [reader, entriesReader]
    exact ⟨format.nowhere_reads, Reads.enclosure entries (.nowhere _) (.nowhere _)⟩
  | succ n ih =>
    have property := format.reader_reads (fieldReader_reads ih.2)
    simp only [← unrepeated_iff, ← ofValue_eq] at property
    rw [reader, entriesReader]
    exact ⟨property, Reads.enclosure entries (.refused (by simp)) (entriesMembers_reads ih.1)⟩

end Property

namespace Schema

theorem fieldReader_reads {n : Nat} (f : Field) (d : Draft) :
    (fieldReader n f d).Reads (Spells n) fun v d' =>
      (f = .properties → Property.EntriesUnrepeated v) ∧ readField f d v = .ok d' := by
  cases f with
  | type =>
    refine ((textReader_reads n).map _).congr fun v d' => ?_
    simp [readField, except_map_eq_ok_iff]
  | properties =>
    refine ((Property.reader_reads n).2.map _).congr fun v d' => ?_
    rw [readField_properties_eq_ok_iff]
    constructor
    · rintro ⟨m, ⟨fine, members, rfl, read⟩, rfl⟩
      exact ⟨fun _ => fine, members, m, rfl, read, rfl⟩
    · rintro ⟨fine, members, m, rfl, read, rfl⟩
      exact ⟨m, ⟨fine rfl, members, rfl, read⟩, rfl⟩
  | required =>
    refine ((Reads.toOption (namesReader_reads n)).map _).congr fun v d' => ?_
    simp [readField, except_map_eq_ok_iff]

theorem reader_reads (n : Nat) :
    (reader n).Reads (Spells n) fun v s => Unrepeated v ∧ ofValue v = .ok s := by
  rw [ofValue_eq]
  cases n with
  | zero =>
    rw [reader]
    exact format.nowhere_reads
  | succ n => exact format.reader_reads fieldReader_reads

/-- The schema in front of a text is what the spelled document describes, field by field once. -/
theorem ofText_eq_ok_iff {src : String} {v : Value} {r : List Char}
    (spelled : Spells Reader.greatestDepth src.toList v r) {s : Schema} :
    ofText src = .ok s ↔ Unrepeated v ∧ ofValue v = .ok s := by
  have reads {s' : Schema} {rest : List Char} :
      (reader Reader.greatestDepth).run src.toList = .ok (s', rest) ↔
        (Unrepeated v ∧ ofValue v = .ok s') ∧ rest = r :=
    reader_reads _ spelled
  unfold ofText Reader.runFront
  constructor
  · intro h
    split at h
    next => cases h
    next run =>
      cases h
      exact (reads.mp run).1
  · intro h
    rw [reads.mpr ⟨h, rfl⟩]

end Schema

end InterfaceGen
