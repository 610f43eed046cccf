import InterfaceGen.Proofs.Interface.Expression
import InterfaceGen.Proofs.Interface.Offence
import InterfaceGen.Proofs.Interface.Repeated

/-!
# Question marks

Each member of a declaration is written with a question mark or without. Below a property those are
without that its own list of required names has. At the top a name is looked for as it is written in
the declaration, that is without the blanks around it, both for the property and for its relation;
a name that is listed with its blanks does not count.
-/

namespace InterfaceGen

/-- Which members stand without a question mark: the properties at the top and their relations, by
the name in the document, and what is below a property. -/
structure QuestionMarks where
  property : String → Bool
  relation : String → Bool
  below : Property → String → Bool

namespace QuestionMarks

def propertyTexts (marks : QuestionMarks) (text : Property → String) (schema : Schema) :
    List String :=
  schema.properties.map fun entry =>
    memberDeclaration (Text.trim entry.1) (marks.property entry.1) (text entry.2)

def relationTexts (marks : QuestionMarks) (schema : Schema) : List String :=
  schema.properties.filterMap fun entry =>
    (Relation.ofProperty? (Text.trim entry.1) entry.2 none).map fun r =>
      memberDeclaration r.fieldName (marks.relation entry.1) r.expression

def objectText (marks : QuestionMarks) (text : Property → String) (p : Property)
    (entries : List (String × Property)) : String :=
  bracedMembers (entries.map fun entry =>
      memberDeclaration entry.1 (marks.below p entry.1) (text entry.2)) ++
    if Tag.null.name ∈ p.type.tags then unionSeparator ++ nullText else ""

/-- A text is the declaration of a schema with some marks, where each property that is reached has
the expression that is given for it. -/
structure Written (marks : QuestionMarks) (schema : Schema) (name source : String)
    (text : Property → String) : Prop where
  expression {path : PropertyPath} {p : Property} : schema.Reaches path p →
    (p.expression path).outcome = .ok (text p)
  object {path : PropertyPath} {p : Property} {entries : List (String × Property)} :
    schema.Reaches path p → p.type.IsObject → p.properties = some entries →
      text p = marks.objectText text p entries
  source_eq : source = interfaceDeclaration name
    (marks.propertyTexts text schema ++ marks.relationTexts schema ++ [indexSignature])

/-- A name that is listed as it stands in the document is without a question mark, and one that is
listed neither so nor as it is written in the declaration has one. -/
def Gates (required : Option (List String)) (name written : String) (isRequired : Bool) : Prop :=
  (isListed required name = true → isRequired = true) ∧
    (isListed required name = false → isListed required written = false → isRequired = false)

structure Gated (marks : QuestionMarks) (schema : Schema) : Prop where
  property : ∀ entry ∈ schema.properties,
    Gates schema.required entry.1 (Text.trim entry.1) (marks.property entry.1)
  relation : ∀ entry ∈ schema.properties, entry.2.foreignKeyHint.isSome = true →
    Gates schema.required entry.1 (Text.trim entry.1) (marks.relation entry.1)
  below {path : PropertyPath} {p : Property} {entries : List (String × Property)} :
    schema.Reaches path p → p.type.IsObject → p.properties = some entries →
      ∀ entry ∈ entries, Gates p.required entry.1 entry.1 (marks.below p entry.1)

/-- The marks by the names that are written in the declaration. -/
def ofWrittenNames (schema : Schema) : QuestionMarks where
  property key := isListed schema.required (Text.trim key)
  relation key := isListed schema.required (Text.trim key)
  below p name := isListed p.required name

end QuestionMarks

/-! ### Expressions of what is reached -/

/-- The text of a property, if it has an expression. -/
def Property.text (p : Property) : String := String.ofList (NormalForm.text p.normalForm)

theorem Property.expression_eq_text {p : Property} {path : PropertyPath} {text : String}
    (h : (p.expression path).outcome = .ok text) : text = p.text := by
  rw [Property.text, ← toList_expression h, String.ofList_toList]

theorem outcome_expression_of_reaches {name : String} {schema : Schema} {e : Emission}
    (h : generate name schema = .ok e) {path : PropertyPath} {p : Property}
    (reached : schema.Reaches path p) : (p.expression path).outcome = .ok p.text := by
  cases outcome : (p.expression path).outcome with
  | ok text => rw [Property.expression_eq_text outcome]
  | error error =>
    have stops := Traced.error?_eq_some_iff.mpr outcome
    rw [Property.error?_expression] at stops
    obtain ⟨⟨path', q⟩, visited, offence⟩ := List.exists_of_findSome?_eq_some stops
    have offends := TypeDecl.offence?_eq_some_iff.mp offence
    obtain ⟨e', failed⟩ : ∃ e', generate name schema = .error e' := exists_generate_eq_error_iff.mpr
      ⟨path', q, error, Schema.reaches_of_mem_visits reached visited, offends⟩
    rw [h] at failed
    cases failed

theorem Property.outcome_nestedMembers_of_text {entries : List (String × Property)}
    {path : PropertyPath}
    (h : ∀ entry ∈ entries, (entry.2.expression (path.child entry.1)).outcome = .ok entry.2.text)
    (required : Option (List String)) :
    (nestedMembers required path entries).outcome = .ok (entries.map fun entry =>
      memberDeclaration entry.1 (isListed required entry.1) entry.2.text) := by
  rw [outcome_nestedMembers, mapM_eq_ok_iff, List.forall₂_map_right_iff, List.forall₂_same]
  intro entry member
  rw [outcome_member, h entry member]
  rfl

theorem TypeDecl.null_mem_tags_iff {decl : TypeDecl} {nullable : Bool}
    (h : decl.rendering = .object nullable) :
    Tag.null.name ∈ decl.tags ↔ nullable = true := by
  unfold rendering at h
  split at h
  next => cases h
  next shape read =>
    rcases Shape.rendering_eq_object_iff.mp h with ⟨rfl, rfl⟩ | ⟨rfl | rfl, rfl⟩
    · rw [Shape.ofDecl?_eq_single_iff.mp read]
      decide
    · rw [Shape.ofDecl?_eq_pair_iff.mp read]
      decide
    · rw [Shape.ofDecl?_eq_pair_iff.mp read]
      decide

theorem Property.outcome_expression_of_objectText {p : Property} {path : PropertyPath}
    {object : String} (isObject : p.type.IsObject) (apart : object ≠ nullText)
    (h : (p.objectText path).outcome = .ok object) :
    (p.expression path).outcome =
      .ok (object ++ if Tag.null.name ∈ p.type.tags then unionSeparator ++ nullText else "") := by
  obtain ⟨nullable, read⟩ := TypeDecl.isObject_iff_rendering.mp isObject
  have nulls := TypeDecl.null_mem_tags_iff read
  rw [expression_eq_render, read]
  cases nullable with
  | false =>
    rw [if_neg (by rw [nulls]; decide), String.append_empty]
    exact h
  | true =>
    rw [if_pos (nulls.mpr rfl), ← union_some_none apart]
    exact Traced.outcome_bind_eq_ok_iff.mpr ⟨object, h, rfl⟩

/-! ### The marks of a declaration -/

namespace QuestionMarks

theorem text_eq_objectText {name : String} {schema : Schema} {e : Emission}
    (h : generate name schema = .ok e) {path : PropertyPath} {p : Property}
    {entries : List (String × Property)} (reached : schema.Reaches path p)
    (isObject : p.type.IsObject) (properties : p.properties = some entries) :
    p.text = (ofWrittenNames schema).objectText Property.text p entries := by
  have below (entry : String × Property) (member : entry ∈ entries) :
      (entry.2.expression (path.child entry.1)).outcome = .ok entry.2.text :=
    outcome_expression_of_reaches h (.nested reached isObject properties member)
  have object : (p.objectText path).outcome = .ok (bracedMembers (entries.map fun entry =>
      memberDeclaration entry.1 (isListed p.required entry.1) entry.2.text)) := by
    rw [Property.objectText_of_some properties]
    exact Traced.outcome_map_eq_ok_iff.mpr
      ⟨_, Property.outcome_nestedMembers_of_text below p.required, rfl⟩
  exact (Property.expression_eq_text (Property.outcome_expression_of_objectText isObject
    (bracedMembers_ne_nullText _) object)).symm

theorem outcome_propertyMembers_of_generate {name : String} {schema : Schema} {e : Emission}
    (h : generate name schema = .ok e) :
    (propertyMembers schema.required schema.properties).outcome =
      .ok ((ofWrittenNames schema).propertyTexts Property.text schema) := by
  rw [propertyMembers_eq_nestedMembers, Property.outcome_nestedMembers_of_text, List.map_map]
  · rfl
  · rintro _ trimmed
    obtain ⟨entry, member, rfl⟩ := List.mem_map.mp trimmed
    exact outcome_expression_of_reaches h (.top member)

theorem map_declaration_relationsOf (schema : Schema) :
    (relationsOf schema.required schema.properties).map Relation.declaration =
      (ofWrittenNames schema).relationTexts schema := by
  unfold relationsOf relationTexts
  rw [List.map_filterMap]
  refine List.filterMap_congr fun entry _ => ?_
  unfold Relation.ofProperty?
  rw [Option.map_map, Option.map_map]
  rfl

theorem written_ofWrittenNames {name : String} {schema : Schema} {e : Emission}
    (h : generate name schema = .ok e) :
    (ofWrittenNames schema).Written schema name e.source Property.text where
  expression reached := outcome_expression_of_reaches h reached
  object := text_eq_objectText h
  source_eq := by
    have texts := outcome_propertyMembers_of_generate h
    obtain ⟨members, written, rfl⟩ := generate_eq_ok_iff.mp h
    rw [texts] at written
    cases written
    dsimp only [Emission.declarationUnder, Emission.allMembers]
    rw [map_declaration_relationsOf]

theorem memberText_mark_inj {name : String} {expression r s : List Char} {a b : Bool}
    (h : memberText name a expression ++ r = memberText name b expression ++ s) :
    a = b ∧ r = s := by
  simp only [memberText, List.append_assoc] at h
  have rest := List.append_cancel_left h
  cases a <;> cases b <;>
    simp only [if_true, Bool.false_eq_true, if_false, List.cons_append, List.nil_append,
      List.cons.injEq, List.append_cancel_left_eq, true_and] at rest
  case false.false => exact ⟨rfl, rest⟩
  case true.true => exact ⟨rfl, rest⟩
  case false.true => exact absurd rest.1 (by decide)
  case true.false => exact absurd rest.1 (by decide)

theorem mark_eq_of_texts_eq {entries : Properties} {text : String × Property → List Char}
    {f g : String × Property → Bool} {r s : List Char}
    (h : (entries.flatMap fun entry =>
        memberText (Text.trim entry.1) (f entry) (text entry) ++ ['\n']) ++ r =
      (entries.flatMap fun entry =>
        memberText (Text.trim entry.1) (g entry) (text entry) ++ ['\n']) ++ s) :
    ∀ entry ∈ entries, f entry = g entry := by
  -- The names and the expressions are known, so the marks can be read off from left to right.
  induction entries with
  | nil => nofun
  | cons entry rest ih =>
    simp only [List.flatMap_cons, List.append_assoc] at h
    obtain ⟨same, others⟩ := memberText_mark_inj h
    exact List.forall_mem_cons.mpr ⟨same, ih (List.append_cancel_left others)⟩

/-- A text has at most one choice of marks at the top that it is written with. -/
theorem Written.property_eq {marks marks' : QuestionMarks} {schema : Schema} {name source : String}
    {text text' : Property → String} (h : marks.Written schema name source text)
    (h' : marks'.Written schema name source text') :
    ∀ entry ∈ schema.properties, marks.property entry.1 = marks'.property entry.1 := by
  have texts : ∀ entry ∈ schema.properties, text' entry.2 = text entry.2 := by
    intro entry member
    have first := h.expression (.top member)
    rw [h'.expression (.top member)] at first
    exact Except.ok.inj first
  have same : marks.propertyTexts text schema = schema.properties.map fun entry =>
      memberDeclaration (Text.trim entry.1) (marks.property entry.1) (text entry.2) := rfl
  have same' : marks'.propertyTexts text' schema = schema.properties.map fun entry =>
      memberDeclaration (Text.trim entry.1) (marks'.property entry.1) (text entry.2) :=
    List.map_congr_left fun entry member => by rw [texts entry member]
  have sources := congrArg String.toList (h.source_eq.symm.trans h'.source_eq)
  rw [same, same', toList_interfaceDeclaration, toList_interfaceDeclaration] at sources
  -- What stands after the properties is left as it is: it does not matter for their marks.
  simp only [List.map_append, List.map_map, List.flatMap_append, List.flatMap_map,
    List.append_assoc, Function.comp_apply, toList_memberDeclaration, List.append_cancel_left_eq,
    List.cons.injEq, true_and] at sources
  exact mark_eq_of_texts_eq sources

theorem gated_ofWrittenNames {schema : Schema}
    (h : ∀ entry ∈ schema.properties, isListed schema.required entry.1 = true →
      isListed schema.required (Text.trim entry.1) = true) :
    (ofWrittenNames schema).Gated schema where
  property entry member := ⟨h entry member, fun _ unlisted => unlisted⟩
  relation entry member _ := ⟨h entry member, fun _ unlisted => unlisted⟩
  below _ _ _ _ _ := ⟨id, fun unlisted _ => unlisted⟩

theorem exists_gated_iff {name : String} {schema : Schema} {e : Emission}
    (h : generate name schema = .ok e) :
    (∃ marks text, Written marks schema name e.source text ∧ marks.Gated schema) ↔
      ∀ entry ∈ schema.properties, isListed schema.required entry.1 = true →
        isListed schema.required (Text.trim entry.1) = true := by
  constructor
  · rintro ⟨marks, text, written, gated⟩ entry member listed
    rw [← (gated.property entry member).1 listed]
    exact ((written.property_eq (written_ofWrittenNames h)) entry member).symm
  · intro kept
    exact ⟨ofWrittenNames schema, Property.text, written_ofWrittenNames h,
      gated_ofWrittenNames kept⟩

end QuestionMarks

/-- Below a property the names in its own list of required names are those without a question mark.
At the top, for the properties and for their relations, the names without blanks around them count.
So each name that is listed is without a question mark just if a name at the top that is listed with
its blanks is also listed without them. -/
theorem generate_marks_by_written_name (name : String) (schema : Schema) (e : Emission)
    (h : generate name schema = .ok e) :
    (QuestionMarks.ofWrittenNames schema).Written schema name e.source Property.text ∧
    ((∃ marks text, QuestionMarks.Written marks schema name e.source text ∧ marks.Gated schema) ↔
      ∀ entry ∈ schema.properties, isListed schema.required entry.1 = true →
        isListed schema.required (Text.trim entry.1) = true) :=
  ⟨QuestionMarks.written_ofWrittenNames h, QuestionMarks.exists_gated_iff h⟩

/-- A property at the top and one below another, both with blanks around their names. -/
def paddedUser (required : List String) : Schema :=
  ⟨"object", [(" userId ", { Property.ofType (.ofTag .string) with
      foreignKey := some "user", foreignKeyType := some .manyToOne }),
    ("profile", { Property.ofType (.ofTag .object) with
      properties := some [(" id ", Property.ofType (.ofTag .string))],
      required := some [" id "] })],
    some required⟩

def paddedUserText (mark : String) : String :=
  "export interface User \x7b userId" ++ mark ++ ": string;\n" ++
    "profile?: \x7b  id : string; \x7d;\nuser" ++ mark ++ ": User;\n" ++
    "[key: string]: unknown; \x7d"

theorem generate_marks_by_written_name_bothSpellings : ∃ e,
    generate "User" (paddedUser [" userId ", "userId"]) = .ok e ∧ e.source = paddedUserText "" ∧
      ∃ marks text,
        QuestionMarks.Written marks (paddedUser [" userId ", "userId"]) "User" e.source text ∧
        marks.Gated (paddedUser [" userId ", "userId"]) := by
  obtain ⟨e, generated, source⟩ : ∃ e,
      generate "User" (paddedUser [" userId ", "userId"]) = .ok e ∧
        e.source = paddedUserText "" := ⟨_, rfl, by decide⟩
  exact ⟨e, generated, source,
    (generate_marks_by_written_name _ _ e generated).2.mpr (by decide)⟩

/-- At the top a name that is listed with its blanks is not found, below a property it is. -/
theorem paddedUser_not_gated : ∃ e,
    generate "User" (paddedUser [" userId "]) = .ok e ∧ e.source = paddedUserText "?" ∧
      ¬ ∃ marks text, QuestionMarks.Written marks (paddedUser [" userId "]) "User" e.source text ∧
        marks.Gated (paddedUser [" userId "]) := by
  obtain ⟨e, generated, source⟩ : ∃ e,
      generate "User" (paddedUser [" userId "]) = .ok e ∧
        e.source = paddedUserText "?" := ⟨_, rfl, by decide⟩
  refine ⟨e, generated, source, ?_⟩
  rw [QuestionMarks.exists_gated_iff generated]
  decide

end InterfaceGen
