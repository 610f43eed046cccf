import InterfaceGen.Proofs.Interface.Outcome

/-!
# Reachable properties

A property of a schema is reached if it stands at the top, or below a reached property whose type
is an object, alone or with null. The names on the way are its path; those at the top are trimmed.
`Schema.visits` lists what is reached in document order, each property before those below it.
-/

namespace InterfaceGen

/-- An object alone, or an object and null in either order. -/
def TypeDecl.IsObject (decl : TypeDecl) : Prop :=
  decl.tags = [Tag.object.name] ∨ decl.tags = [Tag.object.name, Tag.null.name] ∨
    decl.tags = [Tag.null.name, Tag.object.name]

instance (decl : TypeDecl) : Decidable decl.IsObject :=
  inferInstanceAs (Decidable (_ ∨ _ ∨ _))

theorem TypeDecl.isObject_iff_rendering {decl : TypeDecl} :
    decl.IsObject ↔ ∃ nullable, decl.rendering = .object nullable := by
  constructor
  · rintro (h | h | h)
    · exact ⟨false, by rw [rendering, Shape.ofDecl?_eq_single_iff.mpr h]; rfl⟩
    · exact ⟨true, by rw [rendering, Shape.ofDecl?_eq_pair_iff.mpr h]; rfl⟩
    · exact ⟨true, by rw [rendering, Shape.ofDecl?_eq_pair_iff.mpr h]; rfl⟩
  · rintro ⟨nullable, h⟩
    unfold rendering at h
    split at h
    next => cases h
    next shape read =>
      rcases Shape.rendering_eq_object_iff.mp h with ⟨rfl, -⟩ | ⟨rfl | rfl, -⟩
      · exact .inl (Shape.ofDecl?_eq_single_iff.mp read)
      · exact .inr (.inl (Shape.ofDecl?_eq_pair_iff.mp read))
      · exact .inr (.inr (Shape.ofDecl?_eq_pair_iff.mp read))

inductive Schema.Reaches (schema : Schema) : PropertyPath → Property → Prop
  | top {key : String} {p : Property} (member : (key, p) ∈ schema.properties) :
      Reaches schema ⟨[Text.trim key]⟩ p
  | nested {path : PropertyPath} {p q : Property} {entries : List (String × Property)}
      {name : String} (above : Reaches schema path p) (isObject : p.type.IsObject)
      (properties : p.properties = some entries) (member : (name, q) ∈ entries) :
      Reaches schema ⟨path.segments ++ [name]⟩ q

mutual

def Property.visits (path : PropertyPath) : Property → List (PropertyPath × Property)
  | ⟨title, type, enumValues, properties, required, foreignKey, foreignKeyType⟩ =>
    (path, ⟨title, type, enumValues, properties, required, foreignKey, foreignKeyType⟩) ::
      match properties with
      | none => []
      | some entries => if type.IsObject then visitsBelow path entries else []

def visitsBelow (path : PropertyPath) :
    List (String × Property) → List (PropertyPath × Property)
  | [] => []
  | (name, p) :: rest => p.visits ⟨path.segments ++ [name]⟩ ++ visitsBelow path rest

end

def Schema.visits (schema : Schema) : List (PropertyPath × Property) :=
  schema.properties.flatMap fun entry => entry.2.visits ⟨[Text.trim entry.1]⟩

theorem visitsBelow_eq_flatMap (path : PropertyPath) (entries : List (String × Property)) :
    visitsBelow path entries =
      entries.flatMap fun entry => entry.2.visits ⟨path.segments ++ [entry.1]⟩ := by
  induction entries with
  | nil => rw [visitsBelow, List.flatMap_nil]
  | cons entry rest ih =>
    obtain ⟨name, p⟩ := entry
    rw [visitsBelow, ih, List.flatMap_cons]

namespace Property

def opened (p : Property) : List (String × Property) :=
  if p.type.IsObject then p.properties.getD [] else []

theorem visits_eq (p : Property) (path : PropertyPath) :
    p.visits path = (path, p) ::
      p.opened.flatMap fun entry => entry.2.visits ⟨path.segments ++ [entry.1]⟩ := by
  obtain ⟨title, type, enumValues, properties, required, foreignKey, foreignKeyType⟩ := p
  rw [visits.eq_def]
  dsimp only [opened]
  cases properties with
  | none => simp
  | some entries => by_cases h : type.IsObject <;> simp [h, visitsBelow_eq_flatMap]

theorem mem_opened_iff {p : Property} {entry : String × Property} :
    entry ∈ p.opened ↔
      p.type.IsObject ∧ ∃ entries, p.properties = some entries ∧ entry ∈ entries := by
  unfold opened
  cases p.properties <;> by_cases h : p.type.IsObject <;> simp [h]

theorem self_mem_visits (p : Property) (path : PropertyPath) : (path, p) ∈ p.visits path := by
  rw [visits_eq]
  exact List.mem_cons_self

theorem opened_induction {motive : Property → Prop}
    (step : ∀ p : Property, (∀ entry ∈ p.opened, motive entry.2) → motive p) (p : Property) :
    motive p := by
  induction p using nested_induction with
  | step p ih =>
    apply step
    intro entry member
    obtain ⟨_, entries, properties, member⟩ := mem_opened_iff.mp member
    exact ih entries properties entry member

end Property

namespace Schema

theorem reaches_of_mem_visits {schema : Schema} {path path' : PropertyPath} {p p' : Property}
    (reached : schema.Reaches path p) (member : (path', p') ∈ p.visits path) :
    schema.Reaches path' p' := by
  induction p using Property.opened_induction generalizing path with
  | step p ih =>
    rw [Property.visits_eq] at member
    rcases List.mem_cons.mp member with same | deeper
    · cases same
      exact reached
    · obtain ⟨⟨name, q⟩, inside, deeper⟩ := List.mem_flatMap.mp deeper
      obtain ⟨isObject, entries, properties, listed⟩ := Property.mem_opened_iff.mp inside
      exact ih (name, q) inside (.nested reached isObject properties listed) deeper

theorem below_mem_visits {path above : PropertyPath} {p q r : Property} {name : String}
    (member : (above, q) ∈ p.visits path) (inside : (name, r) ∈ q.opened) :
    (⟨above.segments ++ [name]⟩, r) ∈ p.visits path := by
  induction p using Property.opened_induction generalizing path with
  | step p ih =>
    rw [Property.visits_eq] at member ⊢
    apply List.mem_cons_of_mem
    rcases List.mem_cons.mp member with same | deeper
    · cases same
      exact List.mem_flatMap.mpr ⟨(name, r), inside, r.self_mem_visits _⟩
    · obtain ⟨entry, opened, deeper⟩ := List.mem_flatMap.mp deeper
      exact List.mem_flatMap.mpr ⟨entry, opened, ih entry opened deeper⟩

theorem reaches_iff_mem_visits {schema : Schema} {path : PropertyPath} {p : Property} :
    schema.Reaches path p ↔ (path, p) ∈ schema.visits := by
  constructor
  · intro reached
    induction reached with
    | top member => exact List.mem_flatMap.mpr ⟨_, member, Property.self_mem_visits _ _⟩
    | nested _ isObject properties listed ih =>
      obtain ⟨entry, member, visited⟩ := List.mem_flatMap.mp ih
      have inside := Property.mem_opened_iff.mpr ⟨isObject, _, properties, listed⟩
      exact List.mem_flatMap.mpr ⟨entry, member, below_mem_visits visited inside⟩
  · intro visited
    obtain ⟨⟨key, q⟩, member, visited⟩ := List.mem_flatMap.mp visited
    exact reaches_of_mem_visits (.top member) visited

end Schema

end InterfaceGen
