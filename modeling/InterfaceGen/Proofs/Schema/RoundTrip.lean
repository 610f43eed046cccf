import InterfaceGen.Proofs.Json.Printed
import InterfaceGen.Proofs.Schema.Agreement

/-!
# Loading undoes printing

A schema that is printed and loaded again, in either way, is the schema that is built from the same
lists of properties: of a name that a list has twice the last property counts, at the place of the
first. A schema whose names are distinct comes back as it was.
-/

namespace InterfaceGen

open Json (Value Fault Reader Spells)

namespace Property

mutual

/-- The property built anew from its lists of properties, at every level. -/
def merged : Property → Property
  | ⟨title, type, enumValues, properties, required, foreignKey, foreignKeyType⟩ =>
    match properties with
    | none => ⟨title, type, enumValues, none, required, foreignKey, foreignKeyType⟩
    | some entries =>
      withProperties ⟨title, type, enumValues, none, required, foreignKey, foreignKeyType⟩
        (mergedEntries entries)

def mergedEntries : List (String × Property) → List (String × Property)
  | [] => []
  | (name, p) :: rest => (name, p.merged) :: mergedEntries rest

end

/-- No list of properties in the property has a name twice. -/
inductive DistinctNames : Property → Prop
  | intro {p : Property}
      (distinct : ∀ {entries}, p.properties = some entries → (OrderedMap.keys entries).Nodup)
      (below : ∀ {entries}, p.properties = some entries →
        ∀ entry ∈ entries, DistinctNames entry.2) : DistinctNames p

theorem mergedEntries_eq_map (entries : List (String × Property)) :
    mergedEntries entries = entries.map fun entry => (entry.1, entry.2.merged) := by
  induction entries with
  | nil => rw [mergedEntries, List.map_nil]
  | cons entry rest ih => rw [mergedEntries, ih, List.map_cons]

theorem merged_eq (p : Property) :
    p.merged = { p with properties := p.properties.map fun entries =>
      OrderedMap.ofEntries (mergedEntries entries) } := by
  obtain ⟨title, type, enumValues, properties, required, foreignKey, foreignKeyType⟩ := p
  cases properties <;> rw [merged] <;> rfl

/-- Names stand where they stood first. -/
theorem keys_ofEntries_mergedEntries (entries : List (String × Property)) :
    OrderedMap.keys (OrderedMap.ofEntries (mergedEntries entries)) =
      (OrderedMap.keys entries).eraseDups := by
  rw [OrderedMap.keys_ofEntries, mergedEntries_eq_map, OrderedMap.keys, List.map_map]
  rfl

/-- Under each name is what stood last under it, built anew. -/
theorem find?_ofEntries_mergedEntries (entries : List (String × Property)) (name : String) :
    OrderedMap.find? (OrderedMap.ofEntries (mergedEntries entries)) name =
      (OrderedMap.find? entries.reverse name).map merged := by
  rw [OrderedMap.find?_ofEntries, ← OrderedMap.find?_map, List.map_reverse, mergedEntries_eq_map]

/-- A list of properties made into a map: each name stands once, where it stood first, and what
stood last under it is built anew. -/
theorem built_ofEntries {P : Property → Property → Prop} {entries : List (String × Property)}
    (h : ∀ entry ∈ entries, P entry.2 entry.2.merged) (name : String) (q q' : Property)
    (last : OrderedMap.find? entries.reverse name = some q)
    (found : OrderedMap.find? (OrderedMap.ofEntries (mergedEntries entries)) name = some q') :
    P q q' := by
  rw [find?_ofEntries_mergedEntries, last] at found
  cases found
  exact h _ (List.mem_reverse.mp (OrderedMap.mem_of_find? last))

/-- The second property is the first with its lists of properties made into maps, at every level:
each name stands once, where it stood first, and under it is what stood last under it. -/
inductive Built : Property → Property → Prop
  | bare {p : Property} (none : p.properties = none) : Built p p
  | nested {p : Property} {entries entries' : List (String × Property)}
      (given : p.properties = some entries)
      (names : OrderedMap.keys entries' = (OrderedMap.keys entries).eraseDups)
      (last : ∀ name q q', OrderedMap.find? entries.reverse name = some q →
        OrderedMap.find? entries' name = some q' → Built q q') :
      Built p { p with properties := some entries' }

theorem built_merged (p : Property) : p.Built p.merged := by
  induction p using nested_induction with
  | step p ih =>
    rw [merged_eq]
    cases properties : p.properties with
    | none =>
      have same : { p with properties := none } = p := by
        cases p
        cases properties
        rfl
      rw [Option.map_none, same]
      exact .bare properties
    | some entries =>
      exact .nested properties (keys_ofEntries_mergedEntries entries)
        (built_ofEntries (ih entries properties))

theorem mergedEntries_eq_self {entries : List (String × Property)}
    (h : ∀ entry ∈ entries, entry.2.merged = entry.2) : mergedEntries entries = entries := by
  rw [mergedEntries_eq_map, List.map_congr_left fun entry member => by rw [h entry member],
    List.map_id']

theorem DistinctNames.merged_eq {p : Property} (h : p.DistinctNames) : p.merged = p := by
  induction h with
  | @intro p distinct below ih =>
    have same : p.properties.map (fun entries => OrderedMap.ofEntries (mergedEntries entries)) =
        p.properties := by
      cases properties : p.properties with
      | none => rfl
      | some entries =>
        rw [Option.map_some, mergedEntries_eq_self (ih properties),
          OrderedMap.ofEntries_of_nodup (distinct properties)]
    rw [Property.merged_eq, same]
    cases p
    rfl

end Property

namespace Schema

/-- The schema built anew from its lists of properties, at every level. -/
def merged (s : Schema) : Schema :=
  { object (Property.mergedEntries s.properties) with type := s.type, required := s.required }

/-- Neither the schema nor a property in it has a name twice among its properties. -/
structure DistinctNames (s : Schema) : Prop where
  distinct : (OrderedMap.keys s.properties).Nodup
  below : ∀ entry ∈ s.properties, entry.2.DistinctNames

structure Built (s s' : Schema) : Prop where
  type : s'.type = s.type
  required : s'.required = s.required
  names : OrderedMap.keys s'.properties = (OrderedMap.keys s.properties).eraseDups
  last : ∀ name q q', OrderedMap.find? s.properties.reverse name = some q →
    OrderedMap.find? s'.properties name = some q' → q.Built q'

theorem built_merged (s : Schema) : s.Built s.merged where
  type := rfl
  required := rfl
  names := Property.keys_ofEntries_mergedEntries s.properties
  last := Property.built_ofEntries fun entry _ => entry.2.built_merged

theorem DistinctNames.merged_eq {s : Schema} (h : s.DistinctNames) : s.merged = s := by
  have same := Property.mergedEntries_eq_self fun entry member => (h.below entry member).merged_eq
  rw [merged, same, object, OrderedMap.ofEntries_of_nodup h.distinct]

end Schema

/-! ### Printed structures -/

namespace Format

variable {φ δ α : Type} (F : Format φ δ α) {value? : φ → Option Value} {put : φ → δ → δ}

/-- The fields of a structure in their order, but for those that are left out. -/
def members (value? : φ → Option Value) : List (String × Value) :=
  F.fields.flatMap fun f => member? (F.key f) (value? f)

theorem mem_members_iff {m : String × Value} :
    m ∈ F.members value? ↔ ∃ f, F.key f = m.1 ∧ value? f = some m.2 := by
  rw [members, List.mem_flatMap]
  constructor
  · rintro ⟨f, -, inside⟩
    cases given : value? f with
    | none =>
      rw [given] at inside
      cases inside
    | some v =>
      rw [given] at inside
      cases List.mem_singleton.mp inside
      exact ⟨f, rfl, given⟩
  · rintro ⟨f, key, given⟩
    exact ⟨f, F.mem_fields f, by rw [given, key]; exact List.mem_singleton_self _⟩

theorem fieldsOf_members :
    fieldsOf F.ofKey? (F.members value?) = F.fields.filter fun f => (value? f).isSome := by
  have each (f : φ) : fieldsOf F.ofKey? (member? (F.key f) (value? f)) =
      if (value? f).isSome then [f] else [] := by
    cases value? f with
    | none => rfl
    | some v => exact fieldsOf_cons_of_some (F.ofKey?_key f)
  unfold members
  induction F.fields with
  | nil => rfl
  | cons f rest ih =>
    rw [List.flatMap_cons, fieldsOf_append, each, ih, List.filter_cons]
    split <;> rfl

theorem once_members {fine : φ → Value → Prop} (h : ∀ f v, value? f = some v → fine f v) :
    F.Once fine (.object (F.members value?)) := by
  refine once_object_iff.mpr ⟨?_, fun m inside f known => ?_⟩
  · rw [fieldsOf_members]
    exact F.nodup.filter _
  · obtain ⟨g, key, given⟩ := F.mem_members_iff.mp inside
    rw [← key, F.ofKey?_key] at known
    cases known
    exact h _ m.2 given

theorem numberFree_members (h : ∀ f v, value? f = some v → v.NumberFree) :
    (Value.object (F.members value?)).NumberFree := by
  refine .object fun m inside => ?_
  obtain ⟨f, -, given⟩ := F.mem_members_iff.mp inside
  exact h f m.2 given

/-- What is printed of a field puts the field into the draft when it is read, and what is left out
is not missed there. -/
structure Fills (value? : φ → Option Value) (put : φ → δ → δ) : Prop where
  absent : ∀ f, value? f = none → ∀ d, put f d = d
  present : ∀ f v, value? f = some v → ∀ d, F.read f d v = .ok (put f d)

theorem readByKey_members (h : F.Fills value? put) (d : δ) :
    readByKey F.ofKey? F.read d (F.members value?) =
      .ok (F.fields.foldl (fun d f => put f d) d) := by
  unfold members
  induction F.fields generalizing d with
  | nil => rfl
  | cons f rest ih =>
    rw [List.flatMap_cons, List.foldl_cons]
    cases given : value? f with
    | none =>
      rw [h.absent f given d]
      exact ih d
    | some v =>
      exact (readByKey_cons_of_ok (F.ofKey?_key f) (h.present f v given d) _).trans (ih _)

theorem ofValue_members (h : F.Fills value? put) {a : α}
    (finished : F.finishByKey (F.fields.foldl (fun d f => put f d) F.start) = .ok a) :
    F.ofValue (.object (F.members value?)) = .ok a :=
  F.ofValue_object_eq_ok_iff.mpr ⟨_, F.readByKey_members h F.start, finished⟩

end Format

/-! ### Printed leaves -/

namespace Json.Value

variable {α : Type} {read : Value → Except Fault α} {v : Value} {a : α}

theorem toOption_of_ne_null (h : read v = .ok a) (ne : v ≠ .null) :
    toOption read v = .ok (some a) :=
  toOption_eq_ok_iff.mpr (.inr ⟨ne, a, h, rfl⟩)

theorem toOption_toText (s : String) : toOption toText (.string s) = .ok (some s) :=
  toOption_of_ne_null (toText_eq_ok_iff.mpr rfl) nofun

theorem toOption_toNames (names : List String) :
    toOption toNames (namesToJson names) = .ok (some names) :=
  toOption_of_ne_null (toNames_eq_ok_iff.mpr rfl) nofun

theorem toOption_toEnumValues (values : EnumValues) :
    toOption toEnumValues values.toJson = .ok (some values) :=
  toOption_of_ne_null (toEnumValues_eq_ok_iff.mpr rfl) nofun

theorem toOption_toCardinality (kind : Cardinality) :
    toOption toCardinality (.string kind.name) = .ok (some kind) :=
  toOption_of_ne_null (toCardinality_eq_ok_iff.mpr (.inl rfl)) nofun

end Json.Value

theorem numberFree_namesToJson (names : List String) : (namesToJson names).NumberFree := by
  refine .array fun v inside => ?_
  obtain ⟨name, -, rfl⟩ := List.mem_map.mp inside
  exact .string name

theorem TypeDecl.numberFree_toJson (decl : TypeDecl) : decl.toJson.NumberFree := by
  cases decl with
  | single tag => exact .string tag
  | alternatives tags => exact numberFree_namesToJson tags

theorem EnumValues.numberFree_toJson (values : EnumValues) :
    (EnumValues.toJson values).NumberFree := by
  refine .array fun v inside => ?_
  obtain ⟨o, -, rfl⟩ := List.mem_map.mp inside
  cases o with
  | none => exact .null
  | some s => exact .string s

/-! ### Printed properties -/

namespace Property

def value? (p : Property) : Field → Option Value
  | .title => p.title.map Value.string
  | .type => some p.type.toJson
  | .enumValues => p.enumValues.map EnumValues.toJson
  | .properties => p.properties.map fun entries => .object (entriesToJson entries)
  | .required => p.required.map namesToJson
  | .foreignKey => p.foreignKey.map Value.string
  | .foreignKeyType => p.foreignKeyType.map fun kind => .string kind.name

theorem toJson_eq (p : Property) : p.toJson = .object (format.members p.value?) := by
  obtain ⟨title, type, enumValues, properties, required, foreignKey, foreignKeyType⟩ := p
  cases properties <;>
    simp [toJson, Format.members, Field.all, Field.key, value?, member?]

theorem entriesToJson_eq_map (entries : List (String × Property)) :
    entriesToJson entries = entries.map fun entry => (entry.1, entry.2.toJson) := by
  induction entries with
  | nil => rw [entriesToJson, List.map_nil]
  | cons entry rest ih => rw [entriesToJson, ih, List.map_cons]

theorem readEntries_entriesToJson {entries : List (String × Property)}
    (h : ∀ entry ∈ entries, ofValue entry.2.toJson = .ok entry.2.merged) :
    readEntries [] (entriesToJson entries) =
      .ok (OrderedMap.ofEntries (mergedEntries entries)) := by
  refine readEntries_eq_ok_iff.mpr ⟨mergedEntries entries, ?_, rfl⟩
  induction entries with
  | nil =>
    rw [entriesToJson, mergedEntries]
    exact .nil
  | cons entry rest ih =>
    obtain ⟨here, later⟩ := List.forall_mem_cons.mp h
    rw [entriesToJson, mergedEntries]
    exact .cons ⟨rfl, here⟩ (ih later)

/-- The draft with all that a property says. -/
def draft (p : Property) : Draft where
  title := p.title.map some
  type := some p.type
  enumValues := p.enumValues.map some
  properties :=
    (p.properties.map fun entries => OrderedMap.ofEntries (mergedEntries entries)).map some
  required := p.required.map some
  foreignKey := p.foreignKey.map some
  foreignKeyType := p.foreignKeyType.map some

/-- One field from a draft, if it is there. -/
def Draft.fill (full : Draft) : Field → Draft → Draft
  | .title, d => { d with title := full.title.or d.title }
  | .type, d => { d with type := full.type.or d.type }
  | .enumValues, d => { d with enumValues := full.enumValues.or d.enumValues }
  | .properties, d => { d with properties := full.properties.or d.properties }
  | .required, d => { d with required := full.required.or d.required }
  | .foreignKey, d => { d with foreignKey := full.foreignKey.or d.foreignKey }
  | .foreignKeyType, d => { d with foreignKeyType := full.foreignKeyType.or d.foreignKeyType }

theorem join_map_some {α : Type} (x : Option α) : (x.map some).join = x := by cases x <;> rfl

theorem finish_draft (p : Property) (missing : Json.Cause) :
    (p.draft).finish missing = .ok p.merged := by
  rw [merged_eq, Draft.finish, draft]
  simp only [join_map_some]

theorem foldl_fill (full : Draft) : Field.all.foldl (fun d f => full.fill f d) {} = full := by
  simp [Field.all, Draft.fill]

theorem fills_draft {p : Property}
    (h : ∀ entries, p.properties = some entries → ∀ entry ∈ entries,
      ofValue entry.2.toJson = .ok entry.2.merged) :
    format.Fills p.value? p.draft.fill where
  absent f none d := by
    cases f <;> simp_all [value?, draft, Draft.fill]
  present f v given d := by
    change readField f d v = _
    cases f with
    | type =>
      cases given
      rw [readField, Value.toTypeDecl_eq_ok_iff.mpr rfl]
      rfl
    | properties =>
      obtain ⟨entries, properties, rfl⟩ := Option.map_eq_some_iff.mp given
      refine readField_properties_eq_ok_iff.mpr
        (.inr ⟨_, _, rfl, readEntries_entriesToJson (h entries properties), ?_⟩)
      rw [Draft.fill, draft, properties]
      rfl
    | title =>
      obtain ⟨s, title, rfl⟩ := Option.map_eq_some_iff.mp given
      rw [readField, Value.toOption_toText, Draft.fill, draft, title]
      rfl
    | enumValues =>
      obtain ⟨values, enumValues, rfl⟩ := Option.map_eq_some_iff.mp given
      rw [readField, Value.toOption_toEnumValues, Draft.fill, draft, enumValues]
      rfl
    | required =>
      obtain ⟨names, required, rfl⟩ := Option.map_eq_some_iff.mp given
      rw [readField, Value.toOption_toNames, Draft.fill, draft, required]
      rfl
    | foreignKey =>
      obtain ⟨s, foreignKey, rfl⟩ := Option.map_eq_some_iff.mp given
      rw [readField, Value.toOption_toText, Draft.fill, draft, foreignKey]
      rfl
    | foreignKeyType =>
      obtain ⟨kind, foreignKeyType, rfl⟩ := Option.map_eq_some_iff.mp given
      rw [readField, Value.toOption_toCardinality, Draft.fill, draft, foreignKeyType]
      rfl

theorem ofValue_toJson (p : Property) : ofValue p.toJson = .ok p.merged := by
  induction p using nested_induction with
  | step p ih =>
    rw [toJson_eq, ofValue_eq]
    refine format.ofValue_members (fills_draft ih) ?_
    rw [foldl_fill]
    exact finish_draft p missingType

theorem entriesUnrepeated_entriesToJson {entries : List (String × Property)}
    (h : ∀ entry ∈ entries, Unrepeated entry.2.toJson) :
    EntriesUnrepeated (.object (entriesToJson entries)) := by
  rintro _ ⟨⟩ m inside
  rw [entriesToJson_eq_map] at inside
  obtain ⟨entry, below, rfl⟩ := List.mem_map.mp inside
  exact h entry below

theorem unrepeated_toJson (p : Property) : Unrepeated p.toJson := by
  induction p using nested_induction with
  | step p ih =>
    rw [toJson_eq, unrepeated_iff]
    refine format.once_members fun f v given same => ?_
    subst same
    obtain ⟨entries, properties, rfl⟩ := Option.map_eq_some_iff.mp given
    exact entriesUnrepeated_entriesToJson (ih entries properties)

theorem numberFree_entriesToJson {entries : List (String × Property)}
    (h : ∀ entry ∈ entries, entry.2.toJson.NumberFree) :
    (Value.object (entriesToJson entries)).NumberFree := by
  rw [entriesToJson_eq_map]
  refine .object fun m inside => ?_
  obtain ⟨entry, below, rfl⟩ := List.mem_map.mp inside
  exact h entry below

theorem numberFree_toJson (p : Property) : p.toJson.NumberFree := by
  induction p using nested_induction with
  | step p ih =>
    rw [toJson_eq]
    refine format.numberFree_members fun f v given => ?_
    cases f with
    | type =>
      cases given
      exact p.type.numberFree_toJson
    | properties =>
      obtain ⟨entries, same, rfl⟩ := Option.map_eq_some_iff.mp given
      exact numberFree_entriesToJson (ih entries same)
    | enumValues =>
      obtain ⟨values, -, rfl⟩ := Option.map_eq_some_iff.mp given
      exact values.numberFree_toJson
    | required =>
      obtain ⟨names, -, rfl⟩ := Option.map_eq_some_iff.mp given
      exact numberFree_namesToJson names
    | title | foreignKey | foreignKeyType =>
      obtain ⟨s, -, rfl⟩ := Option.map_eq_some_iff.mp given
      exact .string _

end Property

/-! ### Printed schemas -/

namespace Schema

def value? (s : Schema) : Field → Option Value
  | .type => some (.string s.type)
  | .properties => some (.object (Property.entriesToJson s.properties))
  | .required => s.required.map namesToJson

theorem toJson_eq (s : Schema) : s.toJson = .object (format.members s.value?) := by
  simp [toJson, Format.members, Field.all, Field.key, value?, member?]

def draft (s : Schema) : Draft where
  type := some s.type
  properties := some (OrderedMap.ofEntries (Property.mergedEntries s.properties))
  required := s.required.map some

def Draft.fill (full : Draft) : Field → Draft → Draft
  | .type, d => { d with type := full.type.or d.type }
  | .properties, d => { d with properties := full.properties.or d.properties }
  | .required, d => { d with required := full.required.or d.required }

theorem finish_draft (s : Schema) : s.draft.finish = s.merged := by
  rw [Draft.finish, draft, merged, object]
  simp only [Property.join_map_some, Option.getD_some]

theorem foldl_fill (full : Draft) : Field.all.foldl (fun d f => full.fill f d) {} = full := by
  simp [Field.all, Draft.fill]

theorem fills_draft (s : Schema) : format.Fills s.value? s.draft.fill where
  absent f none d := by
    cases f <;> simp_all [value?, draft, Draft.fill]
  present f v given d := by
    change readField f d v = _
    cases f with
    | type =>
      cases given
      rfl
    | properties =>
      cases given
      exact readField_properties_eq_ok_iff.mpr ⟨_, _, rfl,
        Property.readEntries_entriesToJson fun entry _ => entry.2.ofValue_toJson, rfl⟩
    | required =>
      obtain ⟨names, required, rfl⟩ := Option.map_eq_some_iff.mp given
      rw [readField, Value.toOption_toNames, Draft.fill, draft, required]
      rfl

theorem ofValue_toJson (s : Schema) : ofValue s.toJson = .ok s.merged := by
  rw [toJson_eq, ofValue_eq]
  refine format.ofValue_members s.fills_draft ?_
  rw [foldl_fill]
  exact congrArg Except.ok s.finish_draft

theorem unrepeated_toJson (s : Schema) : Unrepeated s.toJson := by
  rw [toJson_eq]
  refine format.once_members fun f v given same => ?_
  subst same
  cases given
  exact Property.entriesUnrepeated_entriesToJson fun entry _ => entry.2.unrepeated_toJson

theorem numberFree_toJson (s : Schema) : s.toJson.NumberFree := by
  rw [toJson_eq]
  refine format.numberFree_members fun f v given => ?_
  cases f with
  | type =>
    cases given
    exact .string s.type
  | properties =>
    cases given
    exact Property.numberFree_entriesToJson fun entry _ => entry.2.numberFree_toJson
  | required =>
    obtain ⟨names, -, rfl⟩ := Option.map_eq_some_iff.mp given
    exact numberFree_namesToJson names

/-- The text is loaded as the schema in either way: as it goes by, and by its value. -/
def LoadsAs (src : String) (s : Schema) : Prop :=
  ofText src = .ok s ∧ ∃ v, Value.ofText src = .ok v ∧ ofValue v = .ok s

theorem loadsAs_text (s : Schema) (fits : s.toJson.depth ≤ Reader.greatestDepth) :
    LoadsAs s.toJson.text s.merged := by
  have spelled : Spells Reader.greatestDepth s.toJson.text.toList s.toJson [] := by
    have spells := Json.printing_compact.spells s.numberFree_toJson.wholeNumbers fits
      Json.endsNumber_nil
    rwa [List.append_nil, ← String.toList_ofList (l := s.toJson.compact)] at spells
  refine ⟨?_, s.toJson.merged, ?_, ?_⟩
  · exact (ofText_eq_ok_iff spelled).mpr ⟨s.unrepeated_toJson, s.ofValue_toJson⟩
  · exact Value.ofText_eq_ok_iff.mpr ⟨_, [], spelled, rfl, rfl⟩
  · exact s.unrepeated_toJson.ofValue_merged s.ofValue_toJson

/-- A printed schema that nests no deeper than a text may is loaded as the schema that is built from
the same lists of properties: under a name stands the last property, at the place of the first, at
every level. So it is loaded as itself if it has no name twice. -/
theorem loadsAs_merged (s : Schema) (fits : s.toJson.depth ≤ Reader.greatestDepth) :
    LoadsAs s.toJson.text s.merged ∧ s.Built s.merged ∧
      (s.DistinctNames → LoadsAs s.toJson.text s) := by
  have loads := s.loadsAs_text fits
  refine ⟨loads, s.built_merged, fun distinct => ?_⟩
  rwa [distinct.merged_eq] at loads

/-- A name that stands twice, with a control character in it. -/
def repeatedName : Schema :=
  ⟨"object", [("a\x01", .ofType (.ofTag .string)), ("b", .ofType (.ofPair .null .number)),
    ("a\x01", (Property.ofType (.ofTag .object)).withEnum [none, some ""])], some ["b"]⟩

def firstOverwritten : Schema :=
  ⟨"object", [("a\x01", (Property.ofType (.ofTag .object)).withEnum [none, some ""]),
    ("b", .ofType (.ofPair .null .number))], some ["b"]⟩

theorem loadsAs_merged_repeatedName :
    LoadsAs repeatedName.toJson.text firstOverwritten ∧ repeatedName.Built firstOverwritten ∧
      LoadsAs firstOverwritten.toJson.text firstOverwritten := by
  have distinct : firstOverwritten.DistinctNames := by
    refine ⟨by decide, ?_⟩
    simp only [firstOverwritten, List.forall_mem_cons]
    exact ⟨.intro nofun nofun, .intro nofun nofun, nofun⟩
  obtain ⟨loads, built, -⟩ := loadsAs_merged repeatedName (by decide)
  exact ⟨loads, built, (loadsAs_merged firstOverwritten (by decide)).2.2 distinct⟩

end Schema

end InterfaceGen
