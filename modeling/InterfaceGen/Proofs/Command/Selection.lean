import InterfaceGen.Command.Load
import InterfaceGen.Proofs.Query.KeyPath

/-!
# Two ways to select a schema

A part of a document that is reached by keys can be named by a pointer or by a query. The pointer
looks the keys up; the query is parsed and run, and its result is written down and read again. Both
give the part as it is, so that the same schema is loaded or the same error is met.
-/

namespace InterfaceGen.Command

open Json (pointerTo)
open Query (keyPath)

theorem applyQuery_of_run {query : String} {v w : Json.Value} (h : Query.run query v = .ok [w]) :
    applyQuery Query.interpreter (some query) v = .ok w := by
  rw [Query.run] at h
  rw [applyQuery, h]

theorem schemaOfFile_of_ofText {engine : Query.Engine} {source : String} {v : Json.Value}
    (read : Json.Value.ofText source = .ok v) (pointer query : Option String) :
    schemaOfFile engine pointer query (.ok source) = (do
      let part ← selectPart pointer v
      let x ← applyQuery engine query part
      (Schema.ofValue x).mapError .refused) := by
  rw [schemaOfFile, schemaOfSource, read]
  rfl

theorem run_keyPath_iff {v w : Json.Value} {keys : List String} (distinct : v.DistinctKeys)
    (whole : v.WholeNumbers) (h : v.Reaches keys w) :
    Query.run (keyPath keys) v = .ok [w] ↔ w.depth ≤ Json.Reader.greatestDepth := by
  rw [Query.run_keyPath h,
    Query.readAll_last (distinct.of_select? h.select?_eq) (whole.of_select? h.select?_eq)]

theorem exists_select?_of_selectPart {pointer : Option String} {v u : Json.Value}
    (h : selectPart pointer v = .ok u) : ∃ p, v.select? p = some u := by
  cases pointer with
  | none =>
    cases h
    exact ⟨"", rfl⟩
  | some p =>
    rw [selectPart] at h
    split at h
    next found => exact ⟨p, found.trans (congrArg some (Except.ok.inj h))⟩
    next => cases h

/-- The query that is a point leaves every part of a document as it is. -/
theorem schemaOfFile_point {source : String} {v : Json.Value}
    (read : Json.Value.ofText source = .ok v) (whole : v.WholeNumbers) (pointer : Option String) :
    schemaOfFile Query.interpreter pointer (some ".") (.ok source) =
      schemaOfFile Query.interpreter pointer none (.ok source) := by
  rw [schemaOfFile_of_ofText read, schemaOfFile_of_ofText read]
  cases selected : selectPart pointer v with
  | error e => rfl
  | ok u =>
    obtain ⟨p, found⟩ := exists_select?_of_selectPart selected
    have distinct := (Json.Value.distinctKeys_of_ofText read).of_select? found
    have fits : u.depth ≤ Json.Reader.greatestDepth :=
      Nat.le_trans (Json.Value.depth_le_of_select? found) (Json.Value.depth_le_of_ofText read)
    have same : Query.run "." u = .ok [u] :=
      (run_keyPath_iff distinct (whole.of_select? found) (.here u)).mpr fits
    change (applyQuery _ (some ".") u >>= _) = _
    rw [applyQuery_of_run same]
    rfl

/-- What is reached by keys is named by the pointer made of them. The query made of them gives it
alone, unless it nests deeper than a text may, which no part of a text does. So the same comes of
loading it in either way; and a query without keys changes nothing. -/
theorem selections_agree {v w : Json.Value} {keys : List String} (distinct : v.DistinctKeys)
    (whole : v.WholeNumbers) (reached : v.Reaches keys w) :
    v.select? (pointerTo keys) = some w ∧
    (Query.run (keyPath keys) v = .ok [w] ↔ w.depth ≤ Json.Reader.greatestDepth) ∧
    ∀ source, Json.Value.ofText source = .ok v →
      Query.run (keyPath keys) v = .ok [w] ∧
      schemaOfFile Query.interpreter (some (pointerTo keys)) none (.ok source) =
        (Schema.ofValue w).mapError .refused ∧
      schemaOfFile Query.interpreter none (some (keyPath keys)) (.ok source) =
        (Schema.ofValue w).mapError .refused ∧
      ∀ pointer, schemaOfFile Query.interpreter pointer (some ".") (.ok source) =
        schemaOfFile Query.interpreter pointer none (.ok source) := by
  have found := reached.select?_eq
  have results := run_keyPath_iff distinct whole reached
  refine ⟨found, results, fun source read => ?_⟩
  have fits : w.depth ≤ Json.Reader.greatestDepth :=
    Nat.le_trans (Json.Value.depth_le_of_select? found) (Json.Value.depth_le_of_ofText read)
  have alone := results.mpr fits
  refine ⟨alone, ?_, ?_, schemaOfFile_point read whole⟩
  · rw [schemaOfFile_of_ofText read, selectPart, found]
    rfl
  · rw [schemaOfFile_of_ofText read]
    change (applyQuery _ (some (keyPath keys)) v >>= _) = _
    rw [applyQuery_of_run alone]
    rfl

def bundleKeys : List String := ["a/b~", "\"\\\n\x01é"]

/-- A schema under keys that both ways spell in their own manner. -/
def bundle : Json.Value :=
  .object [("a/b~", .object [("\"\\\n\x01é", .object [("type", .string "object"),
    ("x", .number (.integer (-9223372036854775808)))])])]

theorem distinctKeys_bundle : bundle.DistinctKeys := by
  simp [bundle, OrderedMap.keys]

theorem wholeNumbers_bundle : bundle.WholeNumbers := by
  simp [bundle, Json.Number.Whole]

theorem selections_agree_bundle :
    pointerTo bundleKeys = "/a~1b~0/\"\\\n\x01é" ∧
    keyPath bundleKeys = ".[\"a/b~\"][\"\\\"\\\\\\n\\u0001é\"]" ∧
    (∃ w, bundle.select? (pointerTo bundleKeys) = some w ∧
      Query.run (keyPath bundleKeys) bundle = .ok [w]) ∧
    schemaOfFile Query.interpreter (some (pointerTo bundleKeys)) none (.ok bundle.text) =
      .ok ⟨"object", [], none⟩ ∧
    schemaOfFile Query.interpreter none (some (keyPath bundleKeys)) (.ok bundle.text) =
      .ok ⟨"object", [], none⟩ := by
  have reached : bundle.Reaches bundleKeys _ := .child rfl (.child rfl (.here _))
  have read : Json.Value.ofText bundle.text = .ok bundle :=
    (Json.printing_compact.ofText_eq_ok_iff distinctKeys_bundle wholeNumbers_bundle).mpr (by decide)
  obtain ⟨named, -, loads⟩ := selections_agree distinctKeys_bundle wholeNumbers_bundle reached
  obtain ⟨alone, byPointer, byQuery, -⟩ := loads bundle.text read
  exact ⟨by decide, by decide, ⟨_, named, alone⟩, byPointer, byQuery⟩

end InterfaceGen.Command
