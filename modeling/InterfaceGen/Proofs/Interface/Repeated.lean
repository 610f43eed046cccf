import InterfaceGen.Proofs.Interface.Outcome
import InterfaceGen.Proofs.Relation.LastWrite

/-!
# Repeated emissions

Several declarations of one schema, one after the other. Whether an emission succeeds is decided by
the schema alone, and nothing is written or recorded by one that fails. Each that succeeds adds its
declaration after a blank line and leaves the relations as the first one left them.
-/

namespace InterfaceGen

theorem interfaceDeclaration_ne_empty (name : String) (members : List String) :
    interfaceDeclaration name members ≠ "" := by
  unfold interfaceDeclaration
  simp

namespace Emission

/-- A text is empty only before the first declaration, so that just then no blank line is put in. -/
theorem append_intercalate {texts : List String} (h : ∀ text ∈ texts, text ≠ "") (text : String) :
    append (declarationSeparator.intercalate texts) text =
      declarationSeparator.intercalate (texts ++ [text]) := by
  cases texts with
  | nil => simp [append]
  | cons first rest =>
    have started : (declarationSeparator.intercalate (first :: rest)).isEmpty = false := by
      have ne := h first List.mem_cons_self
      rw [Bool.eq_false_iff, ne_eq, String.isEmpty_iff]
      intro blank
      cases rest with
      | nil => exact ne (by simpa using blank)
      | cons second others =>
        rw [String.intercalate_cons_cons] at blank
        simp [declarationSeparator] at blank
    rw [append, started, String.intercalate_append_of_ne_nil (by simp) (by simp),
      String.intercalate_singleton]
    rfl

/-- The emission after declarations under some names. Relations are recorded by the first. -/
def after (text : String → String) (table : RelationTable) (names : List String) : Emission :=
  ⟨declarationSeparator.intercalate (names.map text), if names = [] then .empty else table⟩

section Success

variable {schema : Schema} {members : List String}

def declarationUnder (schema : Schema) (members : List String) (name : String) : String :=
  interfaceDeclaration name (allMembers schema members)

def recorded (schema : Schema) : RelationTable :=
  RelationTable.empty.record (relationsOf schema.required schema.properties)

theorem emit_after
    (written : (propertyMembers schema.required schema.properties).outcome = .ok members)
    (done : List String) (name : String) :
    ∃ events, emit schema name (after (declarationUnder schema members) (recorded schema) done) =
      (⟨events, .ok ()⟩,
        after (declarationUnder schema members) (recorded schema) (done ++ [name])) := by
  have texts : ∀ text ∈ done.map (declarationUnder schema members), text ≠ "" := by
    intro text member
    obtain ⟨other, -, rfl⟩ := List.mem_map.mp member
    exact interfaceDeclaration_ne_empty _ _
  have source := append_intercalate texts (declarationUnder schema members name)
  have relations : (if done = [] then .empty else recorded schema : RelationTable).record
      (relationsOf schema.required schema.properties) = recorded schema := by
    by_cases first : done = []
    · rw [if_pos first]
      rfl
    · rw [if_neg first]
      exact RelationTable.record_record_empty _
  refine ⟨_, (emit_of_ok written name _).trans (congrArg (Prod.mk _) ?_)⟩
  dsimp only [after]
  rw [relations, if_neg (by simp), List.map_append]
  exact congrArg (fun source => Emission.mk source (recorded schema)) source

theorem emitAll_after
    (written : (propertyMembers schema.required schema.properties).outcome = .ok members)
    (done names : List String) :
    emitAll schema names (after (declarationUnder schema members) (recorded schema) done) =
      (List.range names.length).map fun i =>
        (.ok (), after (declarationUnder schema members) (recorded schema)
          (done ++ names.take (i + 1))) := by
  induction names generalizing done with
  | nil => rfl
  | cons name rest ih =>
    obtain ⟨events, emitted⟩ := emit_after written done name
    rw [emitAll, emitted]
    dsimp only
    rw [ih, List.length_cons, List.range_succ_eq_map, List.map_cons, List.map_map]
    simp [Function.comp_def]

end Success

/-- An emission that fails has written nothing, so each one after it fails in the same way. -/
theorem emitAll_of_error {schema : Schema} {error : GenerationError}
    (failed : (propertyMembers schema.required schema.properties).outcome = .error error)
    (names : List String) (e : Emission) :
    emitAll schema names e = names.map fun _ => (.error error, e) := by
  induction names with
  | nil => rfl
  | cons name rest ih =>
    rw [emitAll, emit_of_error failed]
    dsimp only
    rw [ih, List.map_cons]

end Emission

theorem generate_eq_map (name : String) (schema : Schema) :
    generate name schema = (propertyMembers schema.required schema.properties).outcome.map
      fun members => ⟨Emission.declarationUnder schema members name, Emission.recorded schema⟩ := by
  unfold generate generateTraced
  cases written : (propertyMembers schema.required schema.properties).outcome with
  | error error => rw [Emission.emit_of_error written]; rfl
  | ok members => rw [Emission.emit_of_ok written]; rfl

theorem generate_eq_ok_iff {name : String} {schema : Schema} {e : Emission} :
    generate name schema = .ok e ↔
      ∃ members, (propertyMembers schema.required schema.properties).outcome = .ok members ∧
        ⟨Emission.declarationUnder schema members name, Emission.recorded schema⟩ = e := by
  rw [generate_eq_map, except_map_eq_ok_iff]

theorem generate_eq_error_iff_propertyMembers {name : String} {schema : Schema}
    {error : GenerationError} : generate name schema = .error error ↔
      (propertyMembers schema.required schema.properties).outcome = .error error := by
  rw [generate_eq_map]
  cases (propertyMembers schema.required schema.properties).outcome <;> simp [Except.map]

/-- Emissions of one schema under any names, one after the other, all succeed or all fail alike.
If they succeed, the text is that of the single declarations with blank lines between, and the
relations are those of each of them. If they fail, nothing is ever written or recorded. -/
theorem emitAll_all_or_nothing (schema : Schema) (names : List String) :
    (∃ (text : String → String) (table : RelationTable),
      (∀ name, generate name schema = .ok ⟨text name, table⟩) ∧
      Emission.emitAll schema names .empty = (List.range names.length).map fun i =>
        (.ok (), ⟨"\n\n".intercalate ((names.take (i + 1)).map text), table⟩)) ∨
    ∃ error, (∀ name, generate name schema = .error error) ∧
      Emission.emitAll schema names .empty = names.map fun _ => (.error error, .empty) := by
  cases written : (propertyMembers schema.required schema.properties).outcome with
  | error error =>
    refine .inr ⟨error, ?_, Emission.emitAll_of_error written names .empty⟩
    intro name
    rw [generate_eq_map, written]
    rfl
  | ok members =>
    refine .inl ⟨Emission.declarationUnder schema members, Emission.recorded schema, ?_, ?_⟩
    · intro name
      rw [generate_eq_map, written]
      rfl
    · have run := Emission.emitAll_after written [] names
      refine run.trans (List.map_congr_left ?_)
      intro i member
      have started : names.take (i + 1) ≠ [] := by
        cases names with
        | nil => cases member
        | cons _ _ => simp
      rw [List.nil_append, Emission.after, if_neg started]
      rfl

end InterfaceGen
