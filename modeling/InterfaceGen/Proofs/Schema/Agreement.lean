import InterfaceGen.Proofs.Json.Printed
import InterfaceGen.Proofs.Schema.Streaming

/-!
# The two ways to load a schema

A schema is read from a text as the text goes by, or from the value that was made of the text. What
the first way yields, the second does; and where no object of the text repeats a key, the first way
yields a schema just if the second does.
-/

namespace InterfaceGen

open Json (Value Reader Spells)

/-- No object of the document that the text spells has a key twice, as keys are read. -/
def RepeatsNoKey (src : String) : Prop :=
  ∃ d r, Spells Reader.greatestDepth src.toList d r ∧ d.DistinctKeys

/-- The value of a text is made of each document that the text spells, so of the only one. -/
theorem merged_eq_of_ofText {src : String} {v d : Value} {r : List Char}
    (read : Value.ofText src = .ok v) (spelled : Spells Reader.greatestDepth src.toList d r) :
    d.merged = v := by
  obtain ⟨d', r', spelled', -, rfl⟩ := Value.ofText_eq_ok_iff.mp read
  have run := (Reader.Reads.value _ spelled).mpr ⟨rfl, rfl⟩
  exact ((Reader.Reads.value _ spelled').mp run).1.symm

namespace Schema

theorem ofValue_of_ofText {src : String} {v : Value} (read : Value.ofText src = .ok v) {s : Schema}
    (loaded : ofText src = .ok s) : ofValue v = .ok s := by
  obtain ⟨d, r, spelled, -, rfl⟩ := Value.ofText_eq_ok_iff.mp read
  obtain ⟨once, describes⟩ := (ofText_eq_ok_iff spelled).mp loaded
  exact once.ofValue_merged describes

theorem ofText_of_ofValue {src : String} {v : Value} (read : Value.ofText src = .ok v)
    (distinct : RepeatsNoKey src) {s : Schema} (loaded : ofValue v = .ok s) :
    ofText src = .ok s := by
  obtain ⟨d, r, spelled, keys⟩ := distinct
  have same : d = v := keys.merged_eq.symm.trans (merged_eq_of_ofText read spelled)
  subst same
  exact (ofText_eq_ok_iff spelled).mpr ⟨unrepeated_of_distinctKeys keys, loaded⟩

/-- What is loaded from a text is loaded from its value, and only a repeated key can make a text
fail to load whose value loads. -/
theorem ofText_agrees_ofValue {src : String} {v : Value} (read : Value.ofText src = .ok v) :
    (∀ s, ofText src = .ok s → ofValue v = .ok s) ∧
      (RepeatsNoKey src → ((∃ s, ofText src = .ok s) ↔ ∃ s, ofValue v = .ok s)) := by
  refine ⟨fun s => ofValue_of_ofText read, fun distinct => ⟨?_, ?_⟩⟩
  · rintro ⟨s, loaded⟩
    exact ⟨s, ofValue_of_ofText read loaded⟩
  · rintro ⟨s, loaded⟩
    exact ⟨s, ofText_of_ofValue read distinct loaded⟩

/-- A schema with nested properties, with members that no field has, and with a name that its text
spells by escapes. -/
def annotatedOrder : Value :=
  .object [("$id", .array [.number (.integer (-7)), .object []]), ("type", .string "object"),
    ("properties", .object [
      ("\"\x01Id", .object [("type", .string "string"), ("foreignKey", .string "buyer"),
        ("foreignKeyType", .string "many-to-one")]),
      ("lines", .object [("$comment", .object [("type", .null)]),
        ("type", .array [.string "object", .string "null"]),
        ("properties", .object [("unit", .object [("type", .string "string"),
          ("enum", .array [.string "kg", .null])])]), ("required", .array [.string "unit"])])]),
    ("required", .array [.string "lines"])]

def order : Schema where
  type := "object"
  properties := [
    ("\"\x01Id", { Property.ofType (.ofTag .string) with
      foreignKey := some "buyer", foreignKeyType := some .manyToOne }),
    ("lines", { Property.ofType (.ofPair .object .null) with
      properties := some [("unit", (Property.ofType (.ofTag .string)).withEnum [some "kg", none])]
      required := some ["unit"] })]
  required := some ["lines"]

theorem distinctKeys_annotatedOrder : annotatedOrder.DistinctKeys := by
  simp [annotatedOrder, OrderedMap.keys]

theorem wholeNumbers_annotatedOrder : annotatedOrder.WholeNumbers := by
  simp [annotatedOrder, Json.Number.Whole]

theorem spells_annotatedOrder :
    Spells Reader.greatestDepth annotatedOrder.text.toList annotatedOrder [] := by
  have spells := Json.printing_compact.spells wholeNumbers_annotatedOrder
    (n := Reader.greatestDepth) (by decide) Json.endsNumber_nil
  rwa [List.append_nil, ← String.toList_ofList (l := annotatedOrder.compact)] at spells

theorem ofText_agrees_ofValue_annotatedOrder :
    ofText annotatedOrder.text = .ok order ∧ ofValue annotatedOrder = .ok order := by
  have read : Value.ofText annotatedOrder.text = .ok annotatedOrder :=
    Value.ofText_eq_ok_iff.mpr
      ⟨_, [], spells_annotatedOrder, rfl, distinctKeys_annotatedOrder.merged_eq⟩
  have loaded : ofValue annotatedOrder = .ok order := by rfl
  obtain ⟨same, both⟩ := ofText_agrees_ofValue read
  obtain ⟨s, streamed⟩ :=
    (both ⟨_, _, spells_annotatedOrder, distinctKeys_annotatedOrder⟩).mpr ⟨order, loaded⟩
  cases loaded.symm.trans (same s streamed)
  exact ⟨streamed, loaded⟩

end Schema

end InterfaceGen
