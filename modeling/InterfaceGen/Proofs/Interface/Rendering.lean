import InterfaceGen.Interface.Emission

/-!
# What a declared type asks for

A declared type is turned down, or it is written as an object, or as a union of leaves. The
expression of a property is determined by this alone: what lies below a property is looked at for
an object and for nothing else.
-/

namespace InterfaceGen

/-! ### Declared types by their tags -/

theorem Tag.ofName?_eq_some_iff {s : String} {t : Tag} : Tag.ofName? s = some t ↔ t.name = s := by
  constructor
  · intro h
    have found := List.find?_some h
    simpa using found
  · rintro rfl
    exact Tag.ofName?_name t

theorem Tag.mapM_ofName?_eq_some_iff {names : List String} {tags : List Tag} :
    names.mapM Tag.ofName? = some tags ↔ names = tags.map Tag.name := by
  induction names generalizing tags with
  | nil => cases tags <;> simp
  | cons name names ih =>
    rw [List.mapM_cons]
    constructor
    · intro h
      obtain ⟨t, ht, hrest⟩ := Option.bind_eq_some_iff.mp h
      obtain ⟨ts, hts, hresult⟩ := Option.bind_eq_some_iff.mp hrest
      cases hresult
      rw [List.map_cons, Tag.ofName?_eq_some_iff.mp ht, ih.mp hts]
    · intro h
      cases tags with
      | nil => cases h
      | cons t ts =>
        obtain ⟨rfl, hts⟩ := List.cons.inj h
        simp [Tag.ofName?_name, ih.mpr hts]

theorem Shape.ofDecl?_eq_single_iff {decl : TypeDecl} {t : Tag} :
    Shape.ofDecl? decl = some (.single t) ↔ decl.tags = [t.name] := by
  constructor
  · intro h
    unfold Shape.ofDecl? at h
    split at h
    next read =>
      cases h
      exact Tag.mapM_ofName?_eq_some_iff.mp read
    all_goals cases h
  · intro h
    simp [Shape.ofDecl?, h, Tag.ofName?_name]

theorem Shape.ofDecl?_eq_pair_iff {decl : TypeDecl} {a b : Tag} :
    Shape.ofDecl? decl = some (.pair a b) ↔ decl.tags = [a.name, b.name] := by
  constructor
  · intro h
    unfold Shape.ofDecl? at h
    split at h
    next => cases h
    next read =>
      cases h
      exact Tag.mapM_ofName?_eq_some_iff.mp read
    next => cases h
  · intro h
    simp [Shape.ofDecl?, h, Tag.ofName?_name]

/-! ### Renderings -/

inductive Rendering
  | rejected (error : PropertyPath → GenerationError)
  | object (nullable : Bool)
  | leaves (tags : List Tag)

def Rendering.tags : Rendering → List Tag
  | .rejected _ => []
  | .object false => [.object]
  | .object true => [.object, .null]
  | .leaves tags => tags

def Shape.rendering : Shape → Rendering
  | .single t => if t = .object then .object false else .leaves [t]
  | .pair a b =>
    if a = .object ∨ b = .object then
      let other := if a = .object then b else a
      if other = .null then .object true else .rejected (.objectPair · other)
    else .leaves [(nullLast a b).1, (nullLast a b).2]

theorem Shape.rendering_eq_object_iff {shape : Shape} {nullable : Bool} :
    shape.rendering = .object nullable ↔
      shape = .single .object ∧ nullable = false ∨
        (shape = .pair .object .null ∨ shape = .pair .null .object) ∧ nullable = true := by
  cases shape with
  | single t => cases t <;> simp [rendering, eq_comm]
  | pair a b => cases a <;> cases b <;> simp [rendering, eq_comm]

theorem Shape.rendering_eq_rejected_iff {shape : Shape} {error : PropertyPath → GenerationError} :
    shape.rendering = .rejected error ↔ ∃ other : Tag, other ≠ .null ∧
      (shape = .pair .object other ∨ shape = .pair other .object) ∧
      error = (.objectPair · other) := by
  constructor
  · intro h
    cases shape with
    | single t => cases t <;> cases h
    | pair a b =>
      by_cases isObject : a = .object
      · subst isObject
        by_cases isNull : b = .null
        · subst isNull
          cases h
        · rw [rendering, if_pos (.inl rfl), if_pos rfl, if_neg isNull] at h
          cases h
          exact ⟨b, isNull, .inl rfl, rfl⟩
      · by_cases isObject' : b = .object
        · subst isObject'
          by_cases isNull : a = .null
          · subst isNull
            cases h
          · rw [rendering, if_pos (.inr rfl), if_neg isObject, if_neg isNull] at h
            cases h
            exact ⟨a, isNull, .inr rfl, rfl⟩
        · rw [rendering, if_neg (by simp [isObject, isObject'])] at h
          cases h
  · rintro ⟨other, ne, rfl | rfl, rfl⟩ <;> cases other <;> first | rfl | exact absurd rfl ne

def TypeDecl.rendering (decl : TypeDecl) : Rendering :=
  match Shape.ofDecl? decl with
  | none => .rejected (.unsupported · decl)
  | some shape => shape.rendering

/-- The members of an enumeration that are written. -/
def enumLiterals (enumValues : Option EnumValues) : List String :=
  (enumValues.getD []).filterMap id

theorem stringExpression_eq (enumValues : Option EnumValues) :
    stringExpression enumValues =
      let literals := unionSeparator.intercalate ((enumLiterals enumValues).map literal)
      if literals.isEmpty then "string" else literals := by
  cases enumValues <;> rfl

def leafText (enumValues : Option EnumValues) : Tag → Option String
  | .string => some (stringExpression enumValues)
  | .number => some "number"
  | .boolean => some "boolean"
  | .object | .null => none

def Property.objectText (p : Property) (path : PropertyPath) : Traced String :=
  match p.properties with
  | none => pure unknownMap
  | some entries => (bracedMembers ·) <$> Property.nestedMembers p.required path entries

theorem Property.objectText_of_some {p : Property} {entries : List (String × Property)}
    (h : p.properties = some entries) (path : PropertyPath) :
    p.objectText path = (bracedMembers ·) <$> Property.nestedMembers p.required path entries := by
  rw [objectText, h]

theorem bracedMembers_ne_nullText (members : List String) : bracedMembers members ≠ nullText := by
  intro same
  have start := congrArg (fun text => text.toList.head?) same
  cases members <;> simp [bracedMembers, nullText] at start

def Property.render (p : Property) (path : PropertyPath) : Rendering → Traced String
  | .rejected error => Traced.fail (error path)
  | .object false => p.objectText path
  | .object true => do
    let object ← p.objectText path
    return union [some object, none]
  | .leaves tags => pure (union (tags.map (leafText p.enumValues)))

theorem Property.expression_eq_render (p : Property) (path : PropertyPath) :
    p.expression path = p.render path p.type.rendering := by
  obtain ⟨title, type, enumValues, properties, required, foreignKey, foreignKeyType⟩ := p
  rw [Property.expression.eq_def]
  dsimp only [TypeDecl.rendering]
  cases Shape.ofDecl? type with
  | none => rfl
  | some shape =>
    cases shape with
    | single t => cases t <;> cases properties <;> rfl
    | pair a b => cases a <;> cases b <;> cases properties <;> rfl

end InterfaceGen
