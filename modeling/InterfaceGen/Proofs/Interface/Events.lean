import InterfaceGen.Proofs.Interface.Concatenation
import InterfaceGen.Proofs.Interface.Offence
import InterfaceGen.Proofs.Interface.Places
import InterfaceGen.Proofs.Relation.Runs

/-!
# The events of a run

A run tells of each place when its property is resolved, that is after those below it. If the run
stops at a place, it has told of those that were left by then: of what comes before that place in
document order, except for what the place stands below.
-/

namespace InterfaceGen

namespace Traced

variable {α β : Type}

theorem events_bind_of_ok {run : Traced α} {next : α → Traced β} {a : α}
    (h : run.outcome = .ok a) : (run >>= next).events = run.events ++ (next a).events := by
  change (Traced.bind run next).events = _
  unfold Traced.bind
  rw [h]

theorem events_bind_of_error {run : Traced α} {next : α → Traced β} {e : GenerationError}
    (h : run.outcome = .error e) : (run >>= next).events = run.events := by
  change (Traced.bind run next).events = _
  unfold Traced.bind
  rw [h]

end Traced

namespace Place

/-- The event that tells of a place. -/
def ToldBy (v : Place) (event : Event) : Prop :=
  ∃ text, (v.property.expression v.path).outcome = .ok text ∧ event = .resolved v.path text

def Offends (v : Place) (e : GenerationError) : Prop := v.property.type.Offends v.path e

/-- A place comes before another in document order and is not one that the other stands below. -/
def LeftBefore (v f : Place) : Prop := v.position < f.position ∧ ¬v.position <+: f.position

instance (v f : Place) : Decidable (v.LeftBefore f) := inferInstanceAs (Decidable (_ ∧ _))

theorem leftBefore_under {index : Nat} {v f : Place} :
    (v.under index).LeftBefore (f.under index) ↔ v.LeftBefore f := by
  simp [LeftBefore, under]

theorem leftBefore_of_lt {v f : Place} {i j : Nat} {s t : List Nat} (hv : v.position = i :: s)
    (hf : f.position = j :: t) (lt : i < j) : v.LeftBefore f := by
  rw [LeftBefore, hv, hf, List.cons_lt_cons_iff, List.cons_prefix_cons]
  exact ⟨.inl lt, fun same => Nat.ne_of_lt lt same.1⟩

theorem not_leftBefore_of_lt {v f : Place} {i j : Nat} {s t : List Nat} (hv : v.position = i :: s)
    (hf : f.position = j :: t) (lt : j < i) : ¬v.LeftBefore f := by
  rw [LeftBefore, hv, hf, List.cons_lt_cons_iff]
  rintro ⟨less | ⟨rfl, -⟩, -⟩
  · exact Nat.lt_asymm lt less
  · exact Nat.lt_irrefl _ lt

end Place

/-- The events of a run over places, which are listed in both orders. -/
structure Traced.Records {α : Type} (run : Traced α) (first last : List Place) : Prop where
  finished {a : α} : run.outcome = .ok a →
    (∀ v ∈ first, ∀ e, ¬v.Offends e) ∧ List.Forall₂ Place.ToldBy last run.events
  stopped {e : GenerationError} : run.outcome = .error e → ∃ before f after,
    first = before ++ f :: after ∧ f.Offends e ∧ (∀ v ∈ before, ∀ e', ¬v.Offends e') ∧
      List.Forall₂ Place.ToldBy (last.filter (·.LeftBefore f)) run.events

namespace Traced.Records

variable {α β : Type} {run : Traced α} {first last first' last' : List Place}

theorem of_ok {a : α} (outcome : run.outcome = .ok a) (quiet : ∀ v ∈ first, ∀ e, ¬v.Offends e)
    (told : List.Forall₂ Place.ToldBy last run.events) : run.Records first last where
  finished _ := ⟨quiet, told⟩
  stopped h := by
    rw [outcome] at h
    cases h

theorem of_error {e : GenerationError} (outcome : run.outcome = .error e)
    {before after : List Place} {f : Place} (split : first = before ++ f :: after)
    (offends : f.Offends e) (quiet : ∀ v ∈ before, ∀ e', ¬v.Offends e')
    (told : List.Forall₂ Place.ToldBy (last.filter (·.LeftBefore f)) run.events) :
    run.Records first last where
  finished h := by
    rw [outcome] at h
    cases h
  stopped h := by
    rw [outcome] at h
    cases h
    exact ⟨before, f, after, split, offends, quiet, told⟩

theorem pure (a : α) : (Pure.pure a : Traced α).Records [] [] :=
  .of_ok rfl nofun .nil

theorem map (h : run.Records first last) (f : α → β) :
    (run >>= fun a => Pure.pure (f a)).Records first last := by
  cases outcome : run.outcome with
  | error e =>
    obtain ⟨before, v, after, split, offends, quiet, told⟩ := h.stopped outcome
    refine .of_error (by rw [outcome_bind, outcome]; rfl) split offends quiet ?_
    rwa [events_bind_of_error outcome]
  | ok a =>
    obtain ⟨quiet, told⟩ := h.finished outcome
    refine .of_ok (by rw [outcome_bind, outcome]; rfl) quiet ?_
    rw [events_bind_of_ok outcome]
    exact (List.append_nil run.events).symm ▸ told

theorem under (h : run.Records first last) (index : Nat) :
    run.Records (first.map (Place.under index)) (last.map (Place.under index)) := by
  cases outcome : run.outcome with
  | error e =>
    obtain ⟨before, f, after, rfl, offends, quiet, told⟩ := h.stopped outcome
    refine .of_error outcome List.map_append (f := f.under index) offends
      (List.forall_mem_map.mpr quiet) ?_
    have kept : (fun v => decide (v.LeftBefore (f.under index))) ∘ Place.under index =
        fun v => decide (v.LeftBefore f) :=
      funext fun v => decide_eq_decide.mpr Place.leftBefore_under
    rw [List.filter_map, kept, List.forall₂_map_left_iff]
    exact told
  | ok a =>
    obtain ⟨quiet, told⟩ := h.finished outcome
    exact .of_ok outcome (List.forall_mem_map.mpr quiet) (List.forall₂_map_left_iff.mpr told)

/-- Two runs one after the other, where the places of the first are left before the second. -/
theorem bind {next : α → Traced β} (h : run.Records first last)
    (h' : ∀ a, run.outcome = .ok a → (next a).Records first' last')
    (before : ∀ v ∈ last, ∀ f ∈ first', v.LeftBefore f)
    (notAfter : ∀ v ∈ last', ∀ f ∈ first, ¬v.LeftBefore f) :
    (run >>= next).Records (first ++ first') (last ++ last') := by
  cases outcome : run.outcome with
  | error e =>
    obtain ⟨earlier, f, after, split, offends, quiet, told⟩ := h.stopped outcome
    have later : last'.filter (·.LeftBefore f) = [] := by
      rw [List.filter_eq_nil_iff]
      intro v member
      have inside : f ∈ first := split ▸ List.mem_append_right earlier List.mem_cons_self
      simpa using notAfter v member f inside
    have splitBoth : first ++ first' = earlier ++ f :: (after ++ first') := by
      rw [split, List.append_assoc, List.cons_append]
    refine .of_error (by rw [outcome_bind, outcome]; rfl) splitBoth offends quiet ?_
    rw [events_bind_of_error outcome, List.filter_append, later, List.append_nil]
    exact told
  | ok a =>
    obtain ⟨quiet, told⟩ := h.finished outcome
    have rest := h' a outcome
    have result : (run >>= next).outcome = (next a).outcome := by
      rw [outcome_bind, outcome]
      rfl
    cases outcome' : (next a).outcome with
    | error e =>
      obtain ⟨earlier, f, after, split, offends, quiet', told'⟩ := rest.stopped outcome'
      have all : last.filter (·.LeftBefore f) = last := by
        rw [List.filter_eq_self]
        intro v member
        have inside : f ∈ first' := split ▸ List.mem_append_right earlier List.mem_cons_self
        simpa using before v member f inside
      have splitBoth : first ++ first' = (first ++ earlier) ++ f :: after := by
        rw [split, List.append_assoc]
      refine .of_error (result.trans outcome') splitBoth offends
        (fun v member => (List.mem_append.mp member).elim (quiet v) (quiet' v)) ?_
      rw [events_bind_of_ok outcome, List.filter_append, all]
      exact List.rel_append told told'
    | ok b =>
      obtain ⟨quiet', told'⟩ := rest.finished outcome'
      refine .of_ok (result.trans outcome')
        (fun v member => (List.mem_append.mp member).elim (quiet v) (quiet' v)) ?_
      rw [events_bind_of_ok outcome]
      exact List.rel_append told told'

end Traced.Records

namespace Property

/-- A property is told of after what is below it, unless the run stops there. -/
theorem member_records {p : Property} {path : PropertyPath}
    (quiet : ∀ e, ¬p.type.Offends path e)
    (below : (p.expression path).Records (placesBelow .parentFirst path 0 p.opened)
      (placesBelow .parentLast path 0 p.opened))
    (name : String) (required : Option (List String)) :
    (p.member name required path).Records (p.places .parentFirst path)
      (p.places .parentLast path) := by
  rw [places_eq, places_eq, Listing.around, Listing.around]
  unfold member
  cases outcome : (p.expression path).outcome with
  | error e =>
    obtain ⟨before, f, after, split, offends, earlier, told⟩ := below.stopped outcome
    -- A place is never left before one that stands below it.
    have above : [(⟨[], path, p⟩ : Place)].filter (·.LeftBefore f) = [] := by
      simp [Place.LeftBefore]
    have splitAll : (⟨[], path, p⟩ : Place) :: placesBelow .parentFirst path 0 p.opened =
        (⟨[], path, p⟩ :: before) ++ f :: after := congrArg (List.cons _) split
    refine .of_error (by rw [Traced.outcome_bind, outcome]; rfl) splitAll offends
      (List.forall_mem_cons.mpr ⟨quiet, earlier⟩) ?_
    rw [Traced.events_bind_of_error outcome, List.filter_append, above, List.append_nil]
    exact told
  | ok text =>
    obtain ⟨earlier, told⟩ := below.finished outcome
    refine .of_ok (by rw [Traced.outcome_bind, outcome]; rfl)
      (List.forall_mem_cons.mpr ⟨quiet, earlier⟩) ?_
    rw [Traced.events_bind_of_ok outcome]
    exact List.rel_append told (.cons ⟨text, outcome, rfl⟩ .nil)

theorem nestedMembers_records {entries : List (String × Property)}
    (h : ∀ entry ∈ entries, ∀ name required path, (entry.2.member name required path).Records
      (entry.2.places .parentFirst path) (entry.2.places .parentLast path))
    (required : Option (List String)) (path : PropertyPath) (index : Nat) :
    (nestedMembers required path entries).Records (placesBelow .parentFirst path index entries)
      (placesBelow .parentLast path index entries) := by
  induction entries generalizing index with
  | nil =>
    rw [nestedMembers, placesBelow, placesBelow]
    exact .pure []
  | cons entry rest ih =>
    obtain ⟨name, p⟩ := entry
    rw [nestedMembers_cons, placesBelow, placesBelow]
    have here (listing : Listing) {v : Place}
        (member : v ∈ (p.places listing (path.child name)).map (Place.under index)) :
        ∃ s, v.position = index :: s := by
      obtain ⟨w, -, rfl⟩ := List.mem_map.mp member
      exact ⟨w.position, rfl⟩
    refine .bind ((h (name, p) List.mem_cons_self _ _ _).under index)
      (fun text _ => .map ?_ _) ?_ ?_
    · exact ih (fun other later => h other (List.mem_cons_of_mem _ later)) (index + 1)
    · intro v first f later
      obtain ⟨s, hv⟩ := here _ first
      obtain ⟨i, t, hf, le⟩ := exists_position_of_mem_placesBelow later
      exact Place.leftBefore_of_lt hv hf le
    · intro v later f first
      obtain ⟨s, hf⟩ := here _ first
      obtain ⟨i, t, hv, le⟩ := exists_position_of_mem_placesBelow later
      exact Place.not_leftBefore_of_lt hv hf le

/-- A property that does not offend is written as a leaf, or as an object whose members are told
of on the way. -/
theorem expression_records {p : Property} {path : PropertyPath}
    (quiet : ∀ e, ¬p.type.Offends path e)
    (h : ∀ entry ∈ p.opened, ∀ name required path, (entry.2.member name required path).Records
      (entry.2.places .parentFirst path) (entry.2.places .parentLast path)) :
    (p.expression path).Records (placesBelow .parentFirst path 0 p.opened)
      (placesBelow .parentLast path 0 p.opened) := by
  rw [expression_eq_render]
  cases read : p.type.rendering with
  | rejected error =>
    have offends := TypeDecl.offence?_eq_some_iff.mp
      (show p.type.offence? path = some (error path) by rw [TypeDecl.offence?, read])
    exact absurd offends (quiet _)
  | leaves tags =>
    have closed : ¬p.type.IsObject := by
      rw [TypeDecl.isObject_iff_rendering, read]
      rintro ⟨nullable, ⟨⟩⟩
    rw [opened, if_neg closed, placesBelow, placesBelow]
    exact .pure _
  | object nullable =>
    have isObject := TypeDecl.isObject_iff_rendering.mpr ⟨nullable, read⟩
    have object : (p.objectText path).Records (placesBelow .parentFirst path 0 p.opened)
        (placesBelow .parentLast path 0 p.opened) := by
      rw [opened, if_pos isObject] at h ⊢
      unfold objectText
      cases properties : p.properties with
      | none =>
        rw [Option.getD_none, placesBelow, placesBelow]
        exact .pure _
      | some entries =>
        rw [properties] at h
        exact (nestedMembers_records h p.required path 0).map bracedMembers
    cases nullable with
    | false => exact object
    | true => exact object.map _

theorem expression_of_offends {p : Property} {path : PropertyPath} {e : GenerationError}
    (offends : p.type.Offends path e) : p.expression path = Traced.fail e := by
  have offence := TypeDecl.offence?_eq_some_iff.mpr offends
  unfold TypeDecl.offence? at offence
  rw [expression_eq_render]
  cases read : p.type.rendering with
  | rejected error =>
    rw [read] at offence
    cases offence
    rfl
  | object nullable => rw [read] at offence; cases offence
  | leaves tags => rw [read] at offence; cases offence

/-- A property that offends stops the run before anything is told of it or of what is below. -/
theorem member_records_of_offends {p : Property} {path : PropertyPath} {e : GenerationError}
    (offends : p.type.Offends path e) (name : String) (required : Option (List String)) :
    (p.member name required path).Records (p.places .parentFirst path)
      (p.places .parentLast path) := by
  rw [places_eq, places_eq, Listing.around, Listing.around]
  unfold member
  rw [expression_of_offends offends]
  refine .of_error (f := ⟨[], path, p⟩) rfl (List.nil_append _).symm offends
    (List.forall_mem_nil _) ?_
  have none : ∀ v : Place, ¬v.LeftBefore ⟨[], path, p⟩ := fun v left =>
    List.not_lt_nil _ left.1
  rw [List.filter_eq_nil_iff.mpr fun v _ => by simpa using none v]
  exact .nil

theorem member_records_places (p : Property) (name : String) (required : Option (List String))
    (path : PropertyPath) : (p.member name required path).Records (p.places .parentFirst path)
      (p.places .parentLast path) := by
  induction p using opened_induction generalizing name required path with
  | step p ih =>
    by_cases quiet : ∀ e, ¬p.type.Offends path e
    · exact member_records quiet (expression_records quiet ih) name required
    · obtain ⟨e, offends⟩ := not_forall_not.mp quiet
      exact member_records_of_offends offends name required

end Property

theorem propertyMembers_records (schema : Schema) :
    (propertyMembers schema.required schema.properties).Records (schema.places .parentFirst)
      (schema.places .parentLast) := by
  rw [propertyMembers_eq_nestedMembers]
  exact Property.nestedMembers_records (fun entry _ => entry.2.member_records_places) _ _ 0

/-! ### Overwritten keys -/

/-- The event of recording a key after others, if its type name is bound to another key by then. -/
def overwrite? (earlier : List String) (key : String) : Option Event :=
  ((lastKey? earlier (relatedTypeName key)).filter (· ≠ key)).map fun previous =>
    .overwritten (relatedTypeName key) previous key

/-- The events of recording keys one after the other. -/
def overwrites (foreignKeys : List String) : List Event :=
  foreignKeys.zipIdx.filterMap fun entry => overwrite? (foreignKeys.take entry.2) entry.1

theorem Relation.overwriting_record {earlier : List Relation} {r : Relation}
    (derived : ∀ q ∈ earlier ++ [r], q.typeName = relatedTypeName q.foreignKey) :
    r.overwriting (RelationTable.empty.record earlier) =
      (overwrite? (earlier.map foreignKey) r.foreignKey).toList := by
  have bound := (RelationTable.holdsLast_record fun q member =>
    derived q (List.mem_append_left _ member)).get?_eq r.typeName
  unfold overwriting overwrite?
  rw [bound, ← derived r (by simp)]
  cases lastKey? (earlier.map foreignKey) r.typeName with
  | none => rfl
  | some previous => by_cases same : previous = r.foreignKey <;> simp [same, Option.filter]

theorem RelationTable.recordEvents_record {earlier later : List Relation}
    (derived : ∀ r ∈ earlier ++ later, r.typeName = relatedTypeName r.foreignKey) :
    (empty.record earlier).recordEvents later =
      ((later.map Relation.foreignKey).zipIdx earlier.length).filterMap fun entry =>
        overwrite? (((earlier ++ later).map Relation.foreignKey).take entry.2) entry.1 := by
  induction later generalizing earlier with
  | nil => rfl
  | cons r rest ih =>
    have split : earlier ++ r :: rest = (earlier ++ [r]) ++ rest := by simp
    have before : ((earlier ++ r :: rest).map Relation.foreignKey).take earlier.length =
        earlier.map Relation.foreignKey := by
      rw [List.map_append, List.take_left' (List.length_map _)]
    have here := @Relation.overwriting_record earlier r fun q member =>
      derived q (split ▸ List.mem_append_left rest member)
    have others := @ih (earlier ++ [r]) (by rwa [← split])
    rw [record_append, List.length_append, List.length_singleton, ← split] at others
    rw [recordEvents, here, List.map_cons, List.zipIdx_cons, List.filterMap_cons]
    dsimp only
    rw [before, ← others]
    cases overwrite? (earlier.map Relation.foreignKey) r.foreignKey <;> rfl

theorem recordEvents_relationsOf (schema : Schema) :
    RelationTable.empty.recordEvents (relationsOf schema.required schema.properties) =
      overwrites schema.foreignKeys := by
  have events := @RelationTable.recordEvents_record []
    (relationsOf schema.required schema.properties) fun r => derived_of_mem_relationsOf
  rw [List.nil_append, map_foreignKey_relationsOf] at events
  exact events

/-! ### Whole runs -/

theorem events_generateTraced_of_ok {name : String} {schema : Schema} {members : List String}
    (written : (propertyMembers schema.required schema.properties).outcome = .ok members) :
    (generateTraced name schema).events =
      (propertyMembers schema.required schema.properties).events ++
        overwrites schema.foreignKeys ++
          [.emitted name schema.properties.length schema.foreignKeys.length] := by
  unfold generateTraced
  rw [Emission.emit_of_ok written, ← recordEvents_relationsOf, ← map_foreignKey_relationsOf,
    List.length_map, ← length_propertyMembers written, List.append_assoc]
  exact List.append_nil _

theorem events_generateTraced_of_error {name : String} {schema : Schema} {e : GenerationError}
    (failed : (propertyMembers schema.required schema.properties).outcome = .error e) :
    (generateTraced name schema).events =
      (propertyMembers schema.required schema.properties).events := by
  unfold generateTraced
  rw [Emission.emit_of_error failed]
  rfl

/-- Of the places that were listed until one, those that it does not stand below were left. -/
theorem Schema.filter_leftBefore {schema : Schema} {before after : List Place} {f : Place}
    (split : schema.places .parentFirst = before ++ f :: after) :
    ((schema.places .parentLast).filter (·.LeftBefore f)) =
      (schema.places .parentLast).filter fun v =>
        v.position ∈ before.map Place.position ∧ ¬v.position <+: f.position := by
  have sorted := schema.pairwise_places
  rw [split, List.pairwise_append, List.pairwise_cons] at sorted
  obtain ⟨-, ⟨afterwards, -⟩, beforehand⟩ := sorted
  refine List.filter_congr fun v listed => decide_eq_decide.mpr (and_congr_left fun _ => ?_)
  constructor
  · intro less
    have member : v ∈ before ++ f :: after := split ▸ schema.places_perm.mem_iff.mp listed
    rcases List.mem_append.mp member with early | late
    · exact List.mem_map_of_mem early
    · rcases List.mem_cons.mp late with rfl | late
      · exact absurd less (List.lt_irrefl _)
      · exact absurd (List.lt_trans less (afterwards v late)) (List.lt_irrefl _)
  · intro early
    obtain ⟨w, early, same⟩ := List.mem_map.mp early
    rw [← same]
    exact beforehand w early f List.mem_cons_self

/-- A run that ends well tells of each place after those below it, then of each key that overwrites
another, and last of the declaration. A run that fails does so at the first place that offends, and
has told of the places before it that it does not stand below, and of nothing else. -/
theorem events_record_traversal (name : String) (schema : Schema) :
    ((∀ path p, schema.Reaches path p ↔
        ∃ v ∈ schema.places .parentFirst, v.path = path ∧ v.property = p) ∧
      (schema.places .parentFirst).Pairwise (fun v w => v.position < w.position) ∧
      (schema.places .parentLast).Perm (schema.places .parentFirst)) ∧
    (∀ e, generate name schema = .ok e → ∃ traces,
      List.Forall₂ Place.ToldBy (schema.places .parentLast) traces ∧
      (generateTraced name schema).events = traces ++ overwrites schema.foreignKeys ++
        [.emitted name schema.properties.length schema.foreignKeys.length]) ∧
    ∀ error, generate name schema = .error error → ∃ before f after,
      schema.places .parentFirst = before ++ f :: after ∧ f.Offends error ∧
      (∀ v ∈ before, ∀ e, ¬v.Offends e) ∧
      List.Forall₂ Place.ToldBy
        ((schema.places .parentLast).filter fun v =>
          v.position ∈ before.map Place.position ∧ ¬v.position <+: f.position)
        (generateTraced name schema).events := by
  refine ⟨⟨fun _ _ => Schema.reaches_iff_mem_places, schema.pairwise_places, schema.places_perm⟩,
    ?_, ?_⟩
  · intro e generated
    obtain ⟨members, written, -⟩ := generate_eq_ok_iff.mp generated
    exact ⟨_, ((propertyMembers_records schema).finished written).2,
      events_generateTraced_of_ok written⟩
  · intro error failed
    have stops := generate_eq_error_iff_propertyMembers.mp failed
    obtain ⟨before, f, after, split, offends, quiet, told⟩ :=
      (propertyMembers_records schema).stopped stops
    refine ⟨before, f, after, split, offends, quiet, ?_⟩
    rw [events_generateTraced_of_error stops, ← Schema.filter_leftBefore split]
    exact told

end InterfaceGen
