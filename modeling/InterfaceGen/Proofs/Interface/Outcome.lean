import InterfaceGen.Proofs.Except
import InterfaceGen.Proofs.Interface.Rendering
import InterfaceGen.Proofs.Relation.LastWrite

/-!
# What a run returns

The result of a traced run and its error, without the events on the way. A run over the entries of
an object stops at the first entry that has no expression, and so does a run over the top-level
properties of a schema.
-/

namespace InterfaceGen

namespace Traced

variable {α β : Type}

theorem outcome_bind (run : Traced α) (next : α → Traced β) :
    (run >>= next).outcome = run.outcome.bind fun a => (next a).outcome := by
  change (Traced.bind run next).outcome = _
  unfold Traced.bind
  cases run.outcome <;> rfl

@[simp] theorem outcome_map (f : α → β) (run : Traced α) :
    (f <$> run).outcome = run.outcome.map f := by
  change (run >>= fun a => pure (f a)).outcome = _
  rw [outcome_bind]
  cases run.outcome <;> rfl

theorem outcome_bind_eq_ok_iff {run : Traced α} {next : α → Traced β} {b : β} :
    (run >>= next).outcome = .ok b ↔ ∃ a, run.outcome = .ok a ∧ (next a).outcome = .ok b := by
  rw [outcome_bind]
  cases run.outcome <;> simp [Except.bind]

theorem outcome_map_eq_ok_iff {f : α → β} {run : Traced α} {b : β} :
    (f <$> run).outcome = .ok b ↔ ∃ a, run.outcome = .ok a ∧ f a = b := by
  rw [outcome_map]
  cases run.outcome <;> simp [Except.map]

def error? (run : Traced α) : Option GenerationError :=
  match run.outcome with
  | .error e => some e
  | .ok _ => none

theorem error?_eq_some_iff {run : Traced α} {e : GenerationError} :
    run.error? = some e ↔ run.outcome = .error e := by
  unfold error?
  cases run.outcome <;> simp

/-- What follows a run counts only if the run succeeds; here its error does not depend on the
value that it is given. -/
theorem error?_bind {run : Traced α} {next : α → Traced β} (rest : Option GenerationError)
    (h : ∀ a, (next a).error? = rest) : (run >>= next).error? = run.error?.or rest := by
  unfold error? at h ⊢
  rw [outcome_bind]
  cases run.outcome with
  | error e => rfl
  | ok a => simpa [Except.bind] using h a

@[simp] theorem error?_map (f : α → β) (run : Traced α) : (f <$> run).error? = run.error? := by
  unfold error?
  rw [outcome_map]
  cases run.outcome <;> rfl

end Traced

namespace Property

theorem nestedMembers_cons (required : Option (List String)) (path : PropertyPath)
    (name : String) (p : Property) (rest : List (String × Property)) :
    nestedMembers required path ((name, p) :: rest) =
      (member name required (path.child name) p >>= fun text =>
        nestedMembers required path rest >>= fun others => pure (text :: others)) := by
  rw [nestedMembers]
  unfold member
  change Traced.bind _ _ = Traced.bind (Traced.bind _ _) _
  unfold Traced.bind
  cases (p.expression (path.child name)).outcome with
  | error e => rfl
  | ok text => simp [Bind.bind, Traced.bind, Traced.record, Pure.pure]

theorem error?_member (name : String) (required : Option (List String)) (path : PropertyPath)
    (p : Property) : (p.member name required path).error? = (p.expression path).error? := by
  unfold member
  rw [Traced.error?_bind none fun _ => rfl, Option.or_none]

theorem outcome_member (name : String) (required : Option (List String)) (path : PropertyPath)
    (p : Property) : (p.member name required path).outcome =
      (p.expression path).outcome.map (memberDeclaration name (isListed required name)) := by
  unfold member
  rw [Traced.outcome_bind]
  cases (p.expression path).outcome <;> rfl

theorem outcome_nestedMembers (required : Option (List String)) (path : PropertyPath)
    (entries : List (String × Property)) :
    (nestedMembers required path entries).outcome = entries.mapM fun entry =>
      (entry.2.member entry.1 required (path.child entry.1)).outcome := by
  induction entries with
  | nil => rw [nestedMembers]; rfl
  | cons entry rest ih =>
    obtain ⟨name, p⟩ := entry
    rw [nestedMembers_cons, List.mapM_cons, ← ih, Traced.outcome_bind]
    refine congrArg (Except.bind _) (funext fun text => ?_)
    exact Traced.outcome_bind _ _

theorem error?_nestedMembers (required : Option (List String)) (path : PropertyPath)
    (entries : List (String × Property)) :
    (nestedMembers required path entries).error? =
      entries.findSome? fun entry => (entry.2.expression (path.child entry.1)).error? := by
  induction entries with
  | nil => rfl
  | cons entry rest ih =>
    obtain ⟨name, p⟩ := entry
    have others (text : String) :
        (nestedMembers required path rest >>= fun texts => pure (text :: texts)).error? =
          (nestedMembers required path rest).error? := by
      rw [Traced.error?_bind none fun _ => rfl, Option.or_none]
    rw [nestedMembers_cons, Traced.error?_bind _ others, error?_member, ih, List.findSome?_cons]
    cases (p.expression (path.child name)).error? <;> rfl

theorem objectText_ne_nullText {p : Property} {path : PropertyPath} {text : String}
    (h : (p.objectText path).outcome = .ok text) : text ≠ nullText := by
  unfold objectText at h
  cases below : p.properties with
  | none =>
    rw [below] at h
    cases h
    decide
  | some entries =>
    rw [below] at h
    obtain ⟨members, -, rfl⟩ := Traced.outcome_map_eq_ok_iff.mp h
    exact bracedMembers_ne_nullText members

end Property

/-- The properties at the top are written as those of an object whose names have been trimmed. -/
theorem propertyMembers_eq_nestedMembers (required : Option (List String))
    (properties : List (String × Property)) :
    propertyMembers required properties = Property.nestedMembers required .root
      (properties.map fun entry => (Text.trim entry.1, entry.2)) := by
  induction properties with
  | nil => rw [List.map_nil, Property.nestedMembers, propertyMembers]
  | cons entry rest ih =>
    obtain ⟨key, p⟩ := entry
    rw [List.map_cons, Property.nestedMembers_cons, propertyMembers, ih]

theorem outcome_propertyMembers (required : Option (List String))
    (properties : List (String × Property)) :
    (propertyMembers required properties).outcome = properties.mapM fun entry =>
      (entry.2.member (Text.trim entry.1) required
        (PropertyPath.root.child (Text.trim entry.1))).outcome := by
  rw [propertyMembers_eq_nestedMembers, Property.outcome_nestedMembers, List.mapM_map]
  rfl

theorem error?_propertyMembers (required : Option (List String))
    (properties : List (String × Property)) :
    (propertyMembers required properties).error? =
      properties.findSome? fun entry =>
        (entry.2.expression (PropertyPath.root.child (Text.trim entry.1))).error? := by
  rw [propertyMembers_eq_nestedMembers, Property.error?_nestedMembers, List.findSome?_map]
  rfl

/-! ### Steps of an emitter -/

namespace Emitter

variable {α β : Type} {step : Emitter α} {e e' : Emission} {events : List Event}

theorem bind_of_ok {a : α} (h : step e = (⟨events, .ok a⟩, e')) (next : α → Emitter β) :
    (step >>= next) e =
      (⟨events ++ (next a e').1.events, (next a e').1.outcome⟩, (next a e').2) := by
  change Emitter.bind step next e = _
  rw [Emitter.bind, h]

/-- What follows a step that fails has no say in what is left in the emission. -/
theorem bind_of_error {error : GenerationError} (h : step e = (⟨events, .error error⟩, e'))
    (next : α → Emitter β) : (step >>= next) e = (⟨events, .error error⟩, e') := by
  change Emitter.bind step next e = _
  rw [Emitter.bind, h]

end Emitter

namespace Emission

theorem relationMember_eq (key : String) (p : Property) (required : Option (List String))
    (e : Emission) :
    relationMember key p required e =
      (⟨e.relations.recordEvents (Relation.ofProperty? key p required).toList,
        .ok ((Relation.ofProperty? key p required).map Relation.declaration)⟩,
        { e with
          relations := e.relations.record (Relation.ofProperty? key p required).toList }) := by
  rw [relationMember, RelationTable.relationField_eq, RelationTable.relationEvents_eq]

theorem relationsOf_cons (required : Option (List String)) (key : String) (p : Property)
    (rest : List (String × Property)) :
    relationsOf required ((key, p) :: rest) =
      (Relation.ofProperty? (Text.trim key) p required).toList ++ relationsOf required rest := by
  unfold relationsOf
  rw [List.filterMap_cons]
  dsimp only
  cases Relation.ofProperty? (Text.trim key) p required <;> rfl

/-- All relations are recorded, and no step of this fails. -/
theorem relationMembers_eq (required : Option (List String))
    (properties : List (String × Property)) (e : Emission) :
    relationMembers required properties e =
      (⟨e.relations.recordEvents (relationsOf required properties),
        .ok ((relationsOf required properties).map Relation.declaration)⟩,
        { e with relations := e.relations.record (relationsOf required properties) }) := by
  induction properties generalizing e with
  | nil => rfl
  | cons entry rest ih =>
    obtain ⟨key, p⟩ := entry
    rw [relationMembers, Emitter.bind_of_ok (relationMember_eq _ _ _ e), Emitter.bind_of_ok (ih _),
      relationsOf_cons, RelationTable.recordEvents_append, RelationTable.record_append,
      List.map_append]
    cases Relation.ofProperty? (Text.trim key) p required <;>
      simp [pure]

def allMembers (schema : Schema) (members : List String) : List String :=
  members ++ (relationsOf schema.required schema.properties).map Relation.declaration ++
    [indexSignature]

variable {schema : Schema}

/-- An emission that succeeds records the relations of the schema and adds one declaration. -/
theorem emit_of_ok {members : List String}
    (written : (propertyMembers schema.required schema.properties).outcome = .ok members)
    (name : String) (e : Emission) :
    emit schema name e =
      (⟨(propertyMembers schema.required schema.properties).events ++
          (e.relations.recordEvents (relationsOf schema.required schema.properties) ++
            [.emitted name members.length
              (relationsOf schema.required schema.properties).length]), .ok ()⟩,
        ⟨append e.source (interfaceDeclaration name (allMembers schema members)),
          e.relations.record (relationsOf schema.required schema.properties)⟩) := by
  have run : (liftM (propertyMembers schema.required schema.properties) : Emitter (List String)) e =
      (⟨(propertyMembers schema.required schema.properties).events, .ok members⟩, e) := by
    rw [← written]
    rfl
  rw [emit, Emitter.bind_of_ok run, Emitter.bind_of_ok (relationMembers_eq _ _ e)]
  rw [List.length_map]
  rfl

/-- An emission fails if some property has no expression, before anything is written. -/
theorem emit_of_error {error : GenerationError}
    (failed : (propertyMembers schema.required schema.properties).outcome = .error error)
    (name : String) (e : Emission) :
    emit schema name e =
      (⟨(propertyMembers schema.required schema.properties).events, .error error⟩, e) := by
  have run : (liftM (propertyMembers schema.required schema.properties) : Emitter (List String)) e =
      (⟨(propertyMembers schema.required schema.properties).events, .error error⟩, e) := by
    rw [← failed]
    rfl
  rw [emit, Emitter.bind_of_error run]

end Emission

theorem error?_generateTraced (name : String) (schema : Schema) :
    (generateTraced name schema).error? =
      (propertyMembers schema.required schema.properties).error? := by
  unfold generateTraced Traced.error?
  cases written : (propertyMembers schema.required schema.properties).outcome with
  | error error => rw [Emission.emit_of_error written]; rfl
  | ok members => rw [Emission.emit_of_ok written]; rfl

end InterfaceGen
