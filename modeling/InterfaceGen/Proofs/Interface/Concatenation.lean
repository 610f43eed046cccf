import InterfaceGen.Proofs.Interface.Repeated

/-!
# Properties one after the other

The properties of two schemas may stand one after the other in a third. It has a declaration just if
both have one, and is then written with the members of the first before those of the second: no
property has a say in what is written for another. Its relations are those of the first with those
of the second merged in.
-/

namespace InterfaceGen

/-- A text declares properties by a member each, after which stand the relations of those that carry
both halves of a foreign key, and the index signature last: each in a line, and all in braces. -/
structure Declares (name source : String) (properties : Properties)
    (members relations : List String) : Prop where
  members_length : members.length = properties.length
  relations_length : relations.length = properties.countP fun entry =>
    entry.2.foreignKey.isSome && entry.2.foreignKeyType.isSome
  source_eq : source = "export interface " ++ name ++ " \x7b " ++
    "\n".intercalate (members ++ relations ++ ["[key: string]: unknown;"]) ++ " \x7d"

theorem Property.isSome_foreignKeyHint (p : Property) :
    p.foreignKeyHint.isSome = (p.foreignKey.isSome && p.foreignKeyType.isSome) := by
  unfold foreignKeyHint
  cases p.foreignKey <;> cases p.foreignKeyType <;> rfl

theorem length_relationsOf (required : Option (List String)) (properties : Properties) :
    (relationsOf required properties).length = properties.countP fun entry =>
      entry.2.foreignKey.isSome && entry.2.foreignKeyType.isSome := by
  unfold relationsOf
  rw [List.length_filterMap_eq_countP]
  refine List.countP_congr fun entry _ => ?_
  dsimp only [Relation.ofProperty?]
  rw [Option.isSome_map, Property.isSome_foreignKeyHint]

theorem relationsOf_append (required : Option (List String)) (first second : Properties) :
    relationsOf required (first ++ second) =
      relationsOf required first ++ relationsOf required second :=
  List.filterMap_append

theorem length_propertyMembers {required : Option (List String)} {properties : Properties}
    {members : List String} (h : (propertyMembers required properties).outcome = .ok members) :
    members.length = properties.length := by
  rw [outcome_propertyMembers, mapM_eq_ok_iff] at h
  exact h.length_eq.symm

theorem outcome_propertyMembers_append (required : Option (List String))
    (first second : Properties) :
    (propertyMembers required (first ++ second)).outcome = do
      let members ← (propertyMembers required first).outcome
      let others ← (propertyMembers required second).outcome
      return members ++ others := by
  simp only [outcome_propertyMembers, List.mapM_append]

section

variable (name type : String) {required : Option (List String)} {first second : Properties}

theorem declares_of_written {members : List String}
    (written : (propertyMembers required first).outcome = .ok members) :
    Declares name (Emission.declarationUnder ⟨type, first, required⟩ members name) first members
      ((relationsOf required first).map Relation.declaration) where
  members_length := length_propertyMembers written
  relations_length := by rw [List.length_map, length_relationsOf]
  source_eq := rfl

theorem generate_append_of_error_left {error : GenerationError}
    (failed : generate name ⟨type, first, required⟩ = .error error) :
    generate name ⟨type, first ++ second, required⟩ = .error error := by
  rw [generate_eq_error_iff_propertyMembers] at failed ⊢
  dsimp only at failed ⊢
  rw [outcome_propertyMembers_append, failed]
  rfl

theorem generate_append_of_error_right {d : Emission} {error : GenerationError}
    (succeeded : generate name ⟨type, first, required⟩ = .ok d)
    (failed : generate name ⟨type, second, required⟩ = .error error) :
    generate name ⟨type, first ++ second, required⟩ = .error error := by
  obtain ⟨members, written, -⟩ := generate_eq_ok_iff.mp succeeded
  rw [generate_eq_error_iff_propertyMembers] at failed ⊢
  dsimp only at written failed ⊢
  rw [outcome_propertyMembers_append, written, failed]
  rfl

theorem generate_append_of_ok {d e : Emission}
    (hd : generate name ⟨type, first, required⟩ = .ok d)
    (he : generate name ⟨type, second, required⟩ = .ok e) :
    ∃ f members relations others otherRelations,
      generate name ⟨type, first ++ second, required⟩ = .ok f ∧
      Declares name d.source first members relations ∧
      Declares name e.source second others otherRelations ∧
      Declares name f.source (first ++ second) (members ++ others)
        (relations ++ otherRelations) ∧
      f.relations = d.relations.merge e.relations := by
  obtain ⟨members, written, rfl⟩ := generate_eq_ok_iff.mp hd
  obtain ⟨others, othersWritten, rfl⟩ := generate_eq_ok_iff.mp he
  dsimp only at written othersWritten
  have together : (propertyMembers required (first ++ second)).outcome =
      .ok (members ++ others) := by
    rw [outcome_propertyMembers_append, written, othersWritten]
    rfl
  refine ⟨_, members, _, others, _, generate_eq_ok_iff.mpr ⟨_, together, rfl⟩,
    declares_of_written name type written, declares_of_written name type othersWritten, ?_, ?_⟩
  · rw [← List.map_append, ← relationsOf_append]
    exact declares_of_written name type together
  · unfold Emission.recorded
    dsimp only
    rw [relationsOf_append, RelationTable.record_append, RelationTable.merge_record_empty]
    exact @RelationTable.nodup_keys_record .empty List.nodup_nil _

end

/-- A schema with the properties of two schemas one after the other has a declaration just if both
have one, and fails like the first of them that has none. If it has one, its members and relations
are those of the first before those of the second, and its table is the second merged into the
first. Nothing is asked of the names, so this holds in particular if the two have none in common. -/
theorem generate_append (name type : String) (required : Option (List String))
    (first second : Properties) :
    ((∃ f, generate name ⟨type, first ++ second, required⟩ = .ok f) ↔
      (∃ d, generate name ⟨type, first, required⟩ = .ok d) ∧
        ∃ e, generate name ⟨type, second, required⟩ = .ok e) ∧
    (∀ error, generate name ⟨type, first ++ second, required⟩ = .error error ↔
      generate name ⟨type, first, required⟩ = .error error ∨
        (∃ d, generate name ⟨type, first, required⟩ = .ok d) ∧
          generate name ⟨type, second, required⟩ = .error error) ∧
    ∀ d e, generate name ⟨type, first, required⟩ = .ok d →
      generate name ⟨type, second, required⟩ = .ok e →
        ∃ f members relations others otherRelations,
          generate name ⟨type, first ++ second, required⟩ = .ok f ∧
          Declares name d.source first members relations ∧
          Declares name e.source second others otherRelations ∧
          Declares name f.source (first ++ second) (members ++ others)
            (relations ++ otherRelations) ∧
          f.relations = d.relations.merge e.relations := by
  cases hd : generate name ⟨type, first, required⟩ with
  | error error =>
    rw [generate_append_of_error_left name type hd]
    simp
  | ok d =>
    cases he : generate name ⟨type, second, required⟩ with
    | error error =>
      rw [generate_append_of_error_right name type hd he]
      simp
    | ok e =>
      obtain ⟨f, members, relations, others, otherRelations, together, parts⟩ :=
        generate_append_of_ok name type hd he
      refine ⟨?_, ?_, ?_⟩
      · simp [together]
      · simp [together]
      · rintro d' e' ⟨⟩ ⟨⟩
        exact ⟨f, members, relations, others, otherRelations, together, parts⟩

def linked (foreignKey : String) (kind : Cardinality) : Property :=
  (Property.ofType (.ofTag .string)).withForeignKey foreignKey kind

/-- Two foreign keys that belong to one type name, around a property without one. -/
def pageOwners : Properties :=
  [("ownerId", linked "user-profile" .manyToOne), ("title", .ofType (.ofTag .string)),
    ("editorId", linked "userProfile" .oneToOne)]

/-- Two more that belong to one type name, and one of the type name that the owners have. -/
def pageTeams : Properties :=
  [("teamId", linked "team" .oneToMany), ("readerId", linked "user--profile" .oneToMany),
    ("squadId", linked "Team" .oneToOne)]

def pageFaults : Properties :=
  [("count", .ofType (.single "integer")), ("size", .ofType (.single "float"))]

theorem generate_append_page :
    (∃ f, generate "Page" ⟨"object", pageOwners ++ pageTeams, some ["title", "teamId"]⟩ = .ok f ∧
      f.source = "export interface Page \x7b ownerId?: string;\ntitle: string;\n" ++
        "editorId?: string;\nteamId: string;\nreaderId?: string;\nsquadId?: string;\n" ++
        "owner?: UserProfile;\neditor?: UserProfile;\nteams: Team[];\n" ++
        "readers?: UserProfile[];\nsquad?: Team;\n[key: string]: unknown; \x7d" ∧
      f.relations = ⟨[("UserProfile", "user--profile"), ("Team", "Team")]⟩ ∧
      ∃ members relations others otherRelations, members.length = 3 ∧ relations.length = 2 ∧
        others.length = 3 ∧ otherRelations.length = 3 ∧
        Declares "Page" f.source (pageOwners ++ pageTeams) (members ++ others)
          (relations ++ otherRelations)) ∧
    generate "Page" ⟨"object", pageOwners ++ pageFaults, none⟩ =
      .error (.unsupported ⟨["count"]⟩ (.single "integer")) := by
  constructor
  · obtain ⟨d, e, hd, he, merged⟩ : ∃ d e,
        generate "Page" ⟨"object", pageOwners, some ["title", "teamId"]⟩ = .ok d ∧
        generate "Page" ⟨"object", pageTeams, some ["title", "teamId"]⟩ = .ok e ∧
        d.relations.merge e.relations =
          ⟨[("UserProfile", "user--profile"), ("Team", "Team")]⟩ := ⟨_, _, rfl, rfl, by decide⟩
    obtain ⟨f, members, relations, others, otherRelations, hf, first, second, both, table⟩ :=
      (generate_append "Page" "object" (some ["title", "teamId"]) pageOwners pageTeams).2.2
        d e hd he
    refine ⟨f, hf, ?_, table.trans merged, members, relations, others, otherRelations,
      first.members_length, first.relations_length, second.members_length,
      second.relations_length, both⟩
    cases hf
    decide +kernel
  · rw [(generate_append "Page" "object" none pageOwners pageFaults).2.1]
    exact .inr ⟨⟨_, rfl⟩, rfl⟩

end InterfaceGen
