import InterfaceGen.Json.Pointer
import InterfaceGen.Proofs.Json.Document

/-!
# Pointers made of keys

The pointer that is made of some keys names what lies under these keys, one inside the other,
whatever characters the keys have.
-/

namespace InterfaceGen.Json

def pointerTo (keys : List String) : String :=
  String.ofList (keys.flatMap fun key => '/' :: escapeReference key.toList)

theorem slash_not_mem_escapeReference (s : List Char) : '/' ∉ escapeReference s := by
  induction s with
  | nil => exact List.not_mem_nil
  | cons c rest ih =>
    rw [escapeReference]
    split
    next => simp [ih]
    next =>
      split
      next => simp [ih]
      next other => simp [ih, Ne.symm other]

theorem split_escaped (piece : List Char) (pieces : List (List Char)) :
    Text.split '/' (escapeReference piece ++ pieces.flatMap ('/' :: escapeReference ·)) =
      (piece :: pieces).map escapeReference := by
  induction pieces generalizing piece with
  | nil =>
    rw [List.flatMap_nil, List.append_nil,
      Text.split_of_not_mem (slash_not_mem_escapeReference piece)]
    rfl
  | cons next rest ih =>
    rw [List.flatMap_cons, List.cons_append,
      Text.split_append (slash_not_mem_escapeReference piece), ih next]
    rfl

theorem references?_pointerTo (keys : List String) : references? (pointerTo keys) = some keys := by
  rw [references?, pointerTo, String.toList_ofList]
  cases keys with
  | nil => rfl
  | cons key rest =>
    have pieces : Text.split '/' (escapeReference key.toList ++
        rest.flatMap fun key => '/' :: escapeReference key.toList) =
          ((key :: rest).map String.toList).map escapeReference := by
      rw [List.map_cons, ← split_escaped, List.flatMap_map]
    have unescaped (key : String) :
        String.ofList (unescapeReference (escapeReference key.toList)) = key := by
      rw [unescapeReference_escapeReference, String.ofList_toList]
    rw [List.flatMap_cons, List.cons_append]
    change some ((Text.split '/' _).map _) = _
    rw [pieces, List.map_map, List.map_map]
    exact congrArg some ((List.map_congr_left fun key _ => unescaped key).trans (List.map_id _))

namespace Value

/-- Following the keys from a value leads through objects to another. -/
inductive Reaches : Value → List String → Value → Prop
  | here (v : Value) : Reaches v [] v
  | child {members : List (String × Value)} {key : String} {keys : List String} {v w : Value}
      (found : OrderedMap.find? members key = some v) (rest : Reaches v keys w) :
      Reaches (.object members) (key :: keys) w

theorem Reaches.follow?_eq {v w : Value} {keys : List String} (h : v.Reaches keys w) :
    v.follow? keys = some w := by
  induction h with
  | here v => rw [follow?]
  | child found _ ih => rw [follow?, child?, found, Option.bind_some, ih]

theorem Reaches.select?_eq {v w : Value} {keys : List String} (h : v.Reaches keys w) :
    v.select? (pointerTo keys) = some w := by
  rw [select?, references?_pointerTo, Option.bind_some, h.follow?_eq]

theorem mem_of_child? {v w : Value} {reference : String} (h : v.child? reference = some w) :
    (∃ items, v = .array items ∧ w ∈ items) ∨
      ∃ members, v = .object members ∧ (reference, w) ∈ members := by
  cases v with
  | array items =>
    obtain ⟨i, -, found⟩ := Option.bind_eq_some_iff.mp h
    exact .inl ⟨items, rfl, List.mem_of_getElem? found⟩
  | object members => exact .inr ⟨members, rfl, OrderedMap.mem_of_find? h⟩
  | _ => cases h

/-- What a value hands down to its items and members is true of all that a pointer names in it. -/
theorem of_select? {P : Value → Prop} (array : ∀ {items}, P (.array items) → ∀ v ∈ items, P v)
    (object : ∀ {members}, P (.object members) → ∀ m ∈ members, P m.2) {v w : Value}
    {pointer : String} (h : v.select? pointer = some w) (whole : P v) : P w := by
  have followed {references : List String} {v : Value} (h : v.follow? references = some w)
      (whole : P v) : P w := by
    induction references generalizing v with
    | nil =>
      cases h
      exact whole
    | cons reference rest ih =>
      obtain ⟨u, child, later⟩ := Option.bind_eq_some_iff.mp h
      rcases mem_of_child? child with ⟨items, rfl, member⟩ | ⟨members, rfl, member⟩
      · exact ih later (array whole u member)
      · exact ih later (object whole _ member)
  obtain ⟨references, -, h⟩ := Option.bind_eq_some_iff.mp h
  exact followed h whole

section

variable {v w : Value} {pointer : String} (h : v.select? pointer = some w)

include h

theorem DistinctKeys.of_select? (distinct : v.DistinctKeys) : w.DistinctKeys :=
  Value.of_select? (fun | .array below => below) (fun | .object _ below => below) h distinct

theorem WholeNumbers.of_select? (whole : v.WholeNumbers) : w.WholeNumbers :=
  Value.of_select? (fun | .array below => below) (fun | .object below => below) h whole

theorem depth_le_of_select? : w.depth ≤ v.depth := by
  refine Value.of_select? (P := (·.depth ≤ v.depth)) (fun fits => ?_) (fun fits => ?_) h
    (Nat.le_refl _)
  · rw [depth] at fits
    exact itemsDepth_le_iff.mp (Nat.le_of_succ_le fits)
  · rw [depth] at fits
    exact membersDepth_le_iff.mp (Nat.le_of_succ_le fits)

end

end Value

end InterfaceGen.Json
