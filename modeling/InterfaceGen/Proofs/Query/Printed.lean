import InterfaceGen.Proofs.Except
import InterfaceGen.Proofs.Json.Document
import InterfaceGen.Query.Run

/-!
# Results that are read again

A query writes down a part of a document as this part spells itself, though with escapes of its own,
so that it is read again as what it was.
-/

namespace InterfaceGen.Query

namespace Value

theorem escapedAs_escapeChar (c : Char) : Json.EscapedAs c (escapeChar c) := by
  unfold escapeChar
  split
  next control =>
    rw [Bool.or_eq_true, decide_eq_true_eq, decide_eq_true_eq] at control
    rcases control with rfl | rfl <;> exact .numeric (by decide)
  next => exact Json.escapedAs_escapeChar c

theorem ofJsonItems_eq_map (items : List Json.Value) : ofJsonItems items = items.map ofJson := by
  induction items with
  | nil => rw [ofJsonItems, List.map_nil]
  | cons v rest ih => rw [ofJsonItems, ih, List.map_cons]

theorem ofJsonMembers_eq_map (members : List (String × Json.Value)) :
    ofJsonMembers members = members.map fun m => (m.1, ofJson m.2) := by
  induction members with
  | nil => rw [ofJsonMembers, List.map_nil]
  | cons m rest ih => rw [ofJsonMembers, ih, List.map_cons]

theorem itemTexts_eq_map (items : List Value) : itemTexts items = items.map text := by
  induction items with
  | nil => rw [itemTexts, List.map_nil]
  | cons v rest ih => rw [itemTexts, ih, List.map_cons]

theorem memberTexts_eq_map (members : List (String × Value)) :
    memberTexts members = members.map fun m => stringText m.1 ++ ':' :: m.2.text := by
  induction members with
  | nil => rw [memberTexts, List.map_nil]
  | cons m rest ih => rw [memberTexts, ih, List.map_cons]

theorem printing_ofJson : Json.Printing (fun v => (ofJson v).text) escapeChar where
  escaped := escapedAs_escapeChar
  null := by rw [ofJson, text]
  boolean b := by rw [ofJson, text]
  number n := by rw [ofJson, text, Number.text_ofJson]
  string s := by rw [ofJson, text]; rfl
  array items := by
    rw [ofJson, text, ofJsonItems_eq_map, itemTexts_eq_map, List.map_map]
    rfl
  object members := by
    rw [ofJson, text, ofJsonMembers_eq_map, memberTexts_eq_map, List.map_map]
    rfl

end Value

theorem readBack_ofJson {v : Json.Value} (distinct : v.DistinctKeys) (whole : v.WholeNumbers) :
    readBack (String.ofList (Value.ofJson v).text) = .ok v ↔
      v.depth ≤ Json.Reader.greatestDepth := by
  rw [readBack, mapError_eq_ok_iff]
  exact Value.printing_ofJson.ofText_eq_ok_iff distinct whole

theorem readAll_last {v : Json.Value} (distinct : v.DistinctKeys) (whole : v.WholeNumbers) :
    readAll [] (.last (String.ofList (Value.ofJson v).text)) = .ok [v] ↔
      v.depth ≤ Json.Reader.greatestDepth := by
  rw [readAll, except_map_eq_ok_iff, ← readBack_ofJson distinct whole]
  simp

end InterfaceGen.Query
