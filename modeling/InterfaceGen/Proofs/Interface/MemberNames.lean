import Mathlib.Data.List.Nodup
import InterfaceGen.Proofs.Interface.QuestionMarks
import InterfaceGen.Proofs.Relation.Stem

/-!
# The names of members

A declaration has the properties of its schema by their names without blanks around them, and after
these the relations by the names that are cut from them. No two names are compared, so that a name
may stand there twice; the ways in which this comes about are all told here.
-/

namespace InterfaceGen

/-- A member that is declared. -/
structure Declared where
  name : String
  isRequired : Bool
  expression : String

def Declared.text (m : Declared) : String :=
  m.name ++ (if m.isRequired then "" else "?") ++ ": " ++ m.expression ++ ";"

namespace Schema

/-- The members of a declaration, in order, but for the index signature. -/
def declared (schema : Schema) : List Declared :=
  schema.properties.map (fun entry =>
      ⟨Text.trim entry.1, isListed schema.required (Text.trim entry.1), entry.2.text⟩) ++
    (relationsOf schema.required schema.properties).map fun r =>
      ⟨r.fieldName, r.isRequired, r.expression⟩

def propertyNames (schema : Schema) : List String :=
  schema.properties.map fun entry => Text.trim entry.1

/-- The name of the relation beside a property, if it has one. -/
def relationName? (entry : String × Property) : Option String :=
  entry.2.foreignKeyHint.map fun hint =>
    let stem := Relation.stem (Text.trim entry.1).toList
    String.ofList (if hint.2 = .oneToMany ∧ stem.getLast? ≠ some 's' then stem ++ ['s'] else stem)

/-- No two properties have the same name and no two relations, no relation has the name of another
property, and none has the name of its own: that is, no key with a relation is too short to be cut,
unless a plural is made of it. -/
structure NamesApart (schema : Schema) : Prop where
  properties : schema.propertyNames.Nodup
  relations : (schema.properties.filterMap relationName?).Nodup
  across : ∀ entry ∈ schema.properties, ∀ other ∈ schema.properties, entry.1 ≠ other.1 →
    relationName? entry ≠ some (Text.trim other.1)
  own : ∀ entry ∈ schema.properties, ∀ hint ∈ entry.2.foreignKeyHint,
    (Text.trim entry.1).toList.length ≤ 2 →
      hint.2 = .oneToMany ∧ (Text.trim entry.1).toList.getLast? ≠ some 's'

theorem relationName?_eq_map_nameFor (entry : String × Property) :
    relationName? entry =
      entry.2.foreignKeyHint.map fun hint => Relation.nameFor (Text.trim entry.1) hint.2 :=
  Option.map_congr fun hint _ => (Relation.nameFor_eq _ hint.2).symm

theorem map_name_declared (schema : Schema) :
    schema.declared.map Declared.name =
      schema.propertyNames ++ schema.properties.filterMap relationName? := by
  rw [declared, List.map_append, List.map_map, List.map_map, relationsOf, List.map_filterMap]
  refine congrArg _ (List.filterMap_congr fun entry _ => ?_)
  rw [relationName?_eq_map_nameFor]
  unfold Relation.ofProperty?
  rw [Option.map_map]
  rfl

theorem relationName?_eq_self_iff {entry : String × Property} :
    relationName? entry = some (Text.trim entry.1) ↔ ∃ hint ∈ entry.2.foreignKeyHint,
      (Text.trim entry.1).toList.length ≤ 2 ∧
        (hint.2 = .oneToMany → (Text.trim entry.1).toList.getLast? = some 's') := by
  simp only [relationName?_eq_map_nameFor, Option.map_eq_some_iff, Relation.nameFor_eq_self_iff,
    Option.mem_def]

theorem NamesApart.relationName?_ne {schema : Schema} (h : schema.NamesApart)
    {entry other : String × Property} (member : entry ∈ schema.properties)
    (member' : other ∈ schema.properties) : relationName? entry ≠ some (Text.trim other.1) := by
  by_cases key : entry.1 = other.1
  · have same : entry = other := List.inj_on_of_nodup_map h.properties member member'
      (congrArg Text.trim key)
    rw [← same, Ne, relationName?_eq_self_iff]
    rintro ⟨hint, found, short, last⟩
    have plural := h.own entry member hint found short
    exact plural.2 (last plural.1)
  · exact h.across entry member other member' key

theorem nodup_names_iff (schema : Schema) :
    (schema.declared.map Declared.name).Nodup ↔ schema.NamesApart := by
  rw [map_name_declared, List.nodup_append]
  constructor
  · rintro ⟨properties, relations, apart⟩
    have ne {entry other : String × Property} (member : entry ∈ schema.properties)
        (member' : other ∈ schema.properties) :
        relationName? entry ≠ some (Text.trim other.1) := fun same =>
      apart _ (List.mem_map_of_mem member') _ (List.mem_filterMap.mpr ⟨entry, member, same⟩) rfl
    refine ⟨properties, relations, fun _ member _ member' _ => ne member member', ?_⟩
    intro entry member hint found short
    by_contra kept
    refine ne member member (relationName?_eq_self_iff.mpr ⟨hint, found, short, fun many => ?_⟩)
    exact Decidable.of_not_not fun last => kept ⟨many, last⟩
  · intro h
    refine ⟨h.properties, h.relations, ?_⟩
    intro name property name' relation same
    obtain ⟨other, member', rfl⟩ := List.mem_map.mp property
    obtain ⟨entry, member, found⟩ := List.mem_filterMap.mp relation
    exact h.relationName?_ne member member' (found.trans (congrArg some same.symm))

theorem map_text_declared (schema : Schema) : schema.declared.map Declared.text =
    (QuestionMarks.ofWrittenNames schema).propertyTexts Property.text schema ++
      (QuestionMarks.ofWrittenNames schema).relationTexts schema := by
  rw [declared, List.map_append, List.map_map, List.map_map,
    ← QuestionMarks.map_declaration_relationsOf]
  rfl

end Schema

theorem source_eq_declared {name : String} {schema : Schema} {e : Emission}
    (h : generate name schema = .ok e) : e.source = interfaceDeclaration name
      (schema.declared.map Declared.text ++ [indexSignature]) := by
  rw [schema.map_text_declared]
  exact (QuestionMarks.written_ofWrittenNames h).source_eq

/-- A declaration has the members of its schema and the index signature: the properties by their
names and after these the relations by theirs. The names are distinct just if those of the
properties are, those of the relations are, and these differ from those. -/
theorem generate_declares_members (name : String) (schema : Schema) (e : Emission)
    (h : generate name schema = .ok e) :
    e.source = "export interface " ++ name ++ " \x7b " ++
        "\n".intercalate (schema.declared.map Declared.text ++ ["[key: string]: unknown;"]) ++
        " \x7d" ∧
      schema.declared.map Declared.name =
        schema.propertyNames ++ schema.properties.filterMap Schema.relationName? ∧
      ((schema.declared.map Declared.name).Nodup ↔ schema.NamesApart) :=
  ⟨source_eq_declared h, schema.map_name_declared, schema.nodup_names_iff⟩

def keyed (foreignKey : String) (kind : Cardinality) : Property :=
  (Property.ofType (.ofTag .string)).withForeignKey foreignKey kind

/-- Names that differ in a blank, in the cut or in the plural. -/
def roomyPost : Schema :=
  ⟨"object", [(" userId ", keyed "user" .manyToOne), ("users", Property.ofType (.ofTag .string)),
    ("id", keyed "page" .oneToMany), ("pagesNo", keyed "page" .oneToMany)], none⟩

theorem generate_declares_members_roomyPost : (∃ e, generate "Post" roomyPost = .ok e ∧
      e.source = "export interface Post \x7b userId?: string;\nusers?: string;\nid?: string;\n" ++
        "pagesNo?: string;\nuser?: User;\nids?: Page[];\npages?: Page[];\n" ++
        "[key: string]: unknown; \x7d") ∧
    roomyPost.declared.map Declared.name =
      ["userId", "users", "id", "pagesNo", "user", "ids", "pages"] ∧
    (roomyPost.declared.map Declared.name).Nodup := by
  obtain ⟨e, generated⟩ : ∃ e, generate "Post" roomyPost = .ok e := ⟨_, rfl⟩
  obtain ⟨source, names, distinct⟩ := generate_declares_members _ _ e generated
  have apart : roomyPost.NamesApart := ⟨by decide, by decide, by decide, by decide⟩
  exact ⟨⟨e, generated, source.trans (by decide +kernel)⟩, names.trans (by decide),
    distinct.mpr apart⟩

/-- Two keys that differ in a blank, two that differ in what is cut from them, one that another is
cut to, and one that is too short to be cut. -/
def crowdedPost : Schema :=
  ⟨"object", [("name", Property.ofType (.ofTag .string)),
    (" name", Property.ofType (.ofTag .string)), ("id", keyed "post" .oneToOne),
    ("userId", keyed "user" .manyToOne), ("userNo", keyed "user" .manyToOne),
    ("user", Property.ofType (.ofTag .string))], none⟩

theorem crowdedPost_repeats_names : (∃ e, generate "Post" crowdedPost = .ok e ∧
      e.source = "export interface Post \x7b name?: string;\nname?: string;\nid?: string;\n" ++
        "userId?: string;\nuserNo?: string;\nuser?: string;\nid?: Post;\nuser?: User;\n" ++
        "user?: User;\n[key: string]: unknown; \x7d") ∧
    crowdedPost.declared.map Declared.name =
      ["name", "name", "id", "userId", "userNo", "user", "id", "user", "user"] ∧
    ¬ (crowdedPost.declared.map Declared.name).Nodup := by
  obtain ⟨e, generated⟩ : ∃ e, generate "Post" crowdedPost = .ok e := ⟨_, rfl⟩
  exact ⟨⟨e, generated, (source_eq_declared generated).trans (by decide +kernel)⟩, by decide,
    by decide⟩

end InterfaceGen
