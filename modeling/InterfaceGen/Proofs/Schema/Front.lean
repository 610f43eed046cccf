import InterfaceGen.Proofs.Json.Extension
import InterfaceGen.Proofs.Schema.Agreement

/-!
# A schema in front of any text

A schema is read from the front of a text whatever follows it: the bracket that closes the document
is the last character that is looked at.
-/

namespace InterfaceGen

open Json (Cause Reader Spells Step)
open Json.Reader (Delimited SelfDelimiting Steady)

namespace Cardinality

theorem readKey_append {s r : List Char} {name : String} (h : readKey s = .ok (name, r))
    (t : List Char) : readKey (s ++ t) = .ok (name, r ++ t) := by
  unfold readKey at h
  split at h
  next => cases h
  next quote =>
    rw [mapError_eq_ok_iff] at h
    rw [readKey, Json.skipBlanks_append_of_cons quote]
    exact mapError_eq_ok_iff.mpr (Json.readText_append h t)
  next => cases h
  next => cases h

theorem closeRecord_append {s r : List Char} (h : closeRecord s = .ok r) (t : List Char) :
    closeRecord (s ++ t) = .ok (r ++ t) := by
  rw [closeRecord_eq_ok_iff false] at h ⊢
  exact Json.nextMember_append h t

theorem readRecord_append {s r : List Char} {kind : Cardinality}
    (h : readRecord s = .ok (kind, r)) (t : List Char) :
    readRecord (s ++ t) = .ok (kind, r ++ t) := by
  unfold readRecord at h
  split at h
  next => cases h
  next key =>
    split at h
    next => cases h
    next named =>
      split at h
      next => cases h
      next colon =>
        split at h
        next => cases h
        next afterValue null =>
          obtain ⟨close, rfl⟩ := Json.map_word_eq_ok_iff.mp h
          have more : afterValue ≠ [] :=
            List.ne_nil_of_length_pos (Nat.zero_lt_of_lt (length_closeRecord_lt close))
          have unit : Reader.unit.Delimited := Delimited.scalar _ _
          simp only [readRecord, readKey_append key, named, Json.readColon_append colon,
            unit null more t]
          exact Json.map_word_eq_ok_iff.mpr ⟨closeRecord_append close t, rfl⟩

theorem selfDelimiting_reader (room : Nat) : (reader room).SelfDelimiting := by
  intro s kind r run _ t
  have read : Cardinality.read room s = .ok (kind, r) := run
  change Cardinality.read room (s ++ t) = .ok (kind, r ++ t)
  unfold Cardinality.read at read
  split at read
  next => cases read
  next quote =>
    split at read
    next => cases read
    next text =>
      split at read
      next => cases read
      next named =>
        cases read
        simp only [Cardinality.read, Json.skipBlanks_append_of_cons quote,
          Json.readText_append text, named]
  next brace =>
    split at read
    next => cases read
    next deeper =>
      simp only [Cardinality.read, Json.skipBlanks_append_of_cons brace, if_neg deeper]
      exact readRecord_append read t
  next => cases read

end Cardinality

theorem delimited_namesReader (room : Nat) : (namesReader room).Delimited :=
  (Delimited.scalar _ _).list room

theorem delimited_enumReader (room : Nat) : (enumReader room).Delimited :=
  (Delimited.scalar _ _).optional.list room

section structures

variable {φ δ : Type} {field : φ → δ → Reader δ}

theorem delimited_fieldMembers {ofKey? : String → Option φ} {has : δ → φ → Bool}
    (h : ∀ f d, (field f d).Delimited) {d : δ} {key : String} {reader : Reader δ}
    (known : fieldMembers ofKey? has field d key = .ok reader) : reader.Delimited := by
  unfold fieldMembers at known
  split at known
  next =>
    cases known
    exact Delimited.skip.map _
  next f _ =>
    split at known
    next => cases known
    next =>
      cases known
      exact h f d

theorem delimited_fieldItems {ofIndex? : Nat → Option φ} (h : ∀ f d, (field f d).Delimited)
    {i : Nat} {d : δ} {reader : Reader δ}
    (known : ((ofIndex? i).map fun f => field f d) = some reader) : reader.Delimited := by
  obtain ⟨f, -, rfl⟩ := Option.map_eq_some_iff.mp known
  exact h f d

theorem Format.selfDelimiting_reader {α : Type} (F : Format φ δ α)
    (h : ∀ f d, (field f d).Delimited) :
    (Reader.dispatch (Reader.refuse F.wanted) (.ok (F.itemsReader field))
      (.ok (F.membersReader field))).SelfDelimiting :=
  .enclosure ((Reader.selfDelimiting_items (fun _ _ _ => delimited_fieldItems h) F.start).check _)
    ((Reader.selfDelimiting_members (fun _ _ _ => delimited_fieldMembers h) _ F.start).check _)

end structures

namespace Property

theorem delimited_fieldReader {entries : Reader Properties} (h : entries.SelfDelimiting)
    (room : Nat) (f : Field) (d : Draft) : (fieldReader room entries f d).Delimited := by
  cases f with
  | title => exact (Delimited.scalar _ _).optional.map _
  | type => exact ((Delimited.value room).check _).map _
  | enumValues => exact (delimited_enumReader room).optional.map _
  | properties => exact (Delimited.optional h.steady).map _
  | required => exact (delimited_namesReader room).optional.map _
  | foreignKey => exact (Delimited.scalar _ _).optional.map _
  | foreignKeyType =>
    exact (Delimited.optional (Cardinality.selfDelimiting_reader room).steady).map _

theorem selfDelimiting_reader (room : Nat) :
    (reader room).SelfDelimiting ∧ (entriesReader room).SelfDelimiting := by
  induction room with
  | zero =>
    rw [reader, entriesReader]
    exact ⟨.enclosure trivial trivial, .enclosure trivial trivial⟩
  | succ room ih =>
    have property := format.selfDelimiting_reader (delimited_fieldReader ih.2 room)
    rw [reader, entriesReader]
    refine ⟨property, .enclosure trivial ?_⟩
    refine Reader.selfDelimiting_members ?_ _ _
    rintro m name _ ⟨⟩
    exact Steady.map ih.1.steady _

end Property

namespace Schema

theorem delimited_fieldReader (room : Nat) (f : Field) (d : Draft) :
    (fieldReader room f d).Delimited := by
  cases f with
  | type => exact (Delimited.scalar _ _).map _
  | properties => exact Steady.map (Property.selfDelimiting_reader room).2.steady _
  | required => exact (delimited_namesReader room).optional.map _

theorem selfDelimiting_reader (room : Nat) : (reader room).SelfDelimiting := by
  cases room with
  | zero =>
    rw [reader]
    exact .enclosure trivial trivial
  | succ room => exact format.selfDelimiting_reader (delimited_fieldReader room)

theorem ofText_append {src : String} {s : Schema} (h : ofText src = .ok s) (t : String) :
    ofText (src ++ t) = .ok s := by
  unfold ofText Reader.runFront at h ⊢
  split at h
  next => cases h
  next run =>
    cases h
    rw [String.toList_append, selfDelimiting_reader _ run trivial]

/-- A closing brace and digits behind a document. -/
theorem ofText_append_digits : ofText (annotatedOrder.text ++ "\x7d 23") = .ok order := by
  have loaded : ofText annotatedOrder.text = .ok order :=
    (ofText_eq_ok_iff spells_annotatedOrder).mpr
      ⟨unrepeated_of_distinctKeys distinctKeys_annotatedOrder, rfl⟩
  exact ofText_append loaded "\x7d 23"

end Schema

end InterfaceGen
