import Mathlib.Data.List.Basic
import Mathlib.Logic.Relation
import InterfaceGen.Proofs.Interface.Reachable

/-!
# Inert parts

The parts of a schema that its declaration does not depend on. Each kind of difference is a
constructor of `Property.InertChange` or `Schema.InertChange`; schemas that differ by any number of
them, in either direction and at any depth, have the same result, be it a declaration or an error.
-/

namespace InterfaceGen

/-- One difference within a property that does not show. -/
inductive Property.InertChange : Property → Property → Prop
  | title (p : Property) (title : Option String) : InertChange p { p with title := title }
  | foreignKey (p : Property) (key : Option String) : InertChange p { p with foreignKey := key }
  | foreignKeyType (p : Property) (kind : Option Cardinality) :
      InertChange p { p with foreignKeyType := kind }
  | enumUnused (p : Property) (values : Option EnumValues)
      (h : Tag.string.name ∉ p.type.tags) : InertChange p { p with enumValues := values }
  | enumNulls (p : Property) (values : Option EnumValues)
      (h : enumLiterals p.enumValues = enumLiterals values) :
      InertChange p { p with enumValues := values }
  | propertiesUnused (p : Property) (properties : Option (List (String × Property)))
      (h : Tag.object.name ∉ p.type.tags) : InertChange p { p with properties := properties }
  | requiredUnused (p : Property) (required : Option (List String))
      (h : Tag.object.name ∉ p.type.tags) : InertChange p { p with required := required }
  | required (p : Property) (required : Option (List String))
      (h : ∀ entry ∈ p.properties.getD [],
        isListed p.required entry.1 = isListed required entry.1) :
      InertChange p { p with required := required }
  | oneTag (p : Property) (t : Tag) (h : p.type = .alternatives [t.name]) :
      InertChange p { p with type := .single t.name }
  | nullFirst (p : Property) (t : Tag)
      (h : p.type = .alternatives [Tag.null.name, t.name]) :
      InertChange p { p with type := .alternatives [t.name, Tag.null.name] }
  | nested (p : Property) {before after : List (String × Property)} {name : String}
      {q q' : Property} (h : p.properties = some (before ++ (name, q) :: after))
      (change : InertChange q q') :
      InertChange p { p with properties := some (before ++ (name, q') :: after) }

/-- One difference between schemas that does not show. At the top a foreign key counts, but half
of one does not. -/
inductive Schema.InertChange : Schema → Schema → Prop
  | type (s : Schema) (type : String) : InertChange s { s with type := type }
  | required (s : Schema) (required : Option (List String))
      (h : ∀ entry ∈ s.properties,
        isListed s.required (Text.trim entry.1) = isListed required (Text.trim entry.1)) :
      InertChange s { s with required := required }
  | property (s : Schema) {before after : List (String × Property)} {key : String}
      {p p' : Property} (h : s.properties = before ++ (key, p) :: after)
      (change : p.InertChange p') (hint : p.foreignKeyHint = p'.foreignKeyHint) :
      InertChange s { s with properties := before ++ (key, p') :: after }

/-! ### What an expression depends on -/

theorem TypeDecl.IsObject.mem_tags {decl : TypeDecl} (h : decl.IsObject) :
    Tag.object.name ∈ decl.tags := by
  rcases h with h | h | h <;> rw [h] <;> decide

theorem TypeDecl.rendering_eq_of_single {decl decl' : TypeDecl} {t : Tag}
    (h : decl.tags = [t.name]) (h' : decl'.tags = [t.name]) :
    decl.rendering = decl'.rendering := by
  rw [rendering, rendering, Shape.ofDecl?_eq_single_iff.mpr h, Shape.ofDecl?_eq_single_iff.mpr h']

theorem TypeDecl.rendering_null_first {decl decl' : TypeDecl} {t : Tag}
    (h : decl.tags = [Tag.null.name, t.name]) (h' : decl'.tags = [t.name, Tag.null.name]) :
    decl.rendering = decl'.rendering := by
  rw [rendering, rendering, Shape.ofDecl?_eq_pair_iff.mpr h, Shape.ofDecl?_eq_pair_iff.mpr h']
  cases t <;> rfl

theorem stringExpression_congr {values values' : Option EnumValues}
    (h : enumLiterals values = enumLiterals values') :
    stringExpression values = stringExpression values' := by
  rw [stringExpression_eq, stringExpression_eq, h]

theorem mem_tags_of_rendering_leaves {decl : TypeDecl} {leaves : List Tag}
    (h : decl.rendering = .leaves leaves) {t : Tag} (member : t ∈ leaves) :
    t.name ∈ decl.tags := by
  unfold TypeDecl.rendering at h
  split at h
  next => cases h
  next shape read =>
    cases shape with
    | single u =>
      rw [Shape.ofDecl?_eq_single_iff.mp read]
      cases u <;> cases h <;> exact List.mem_singleton.mpr (List.mem_singleton.mp member ▸ rfl)
    | pair a b =>
      rw [Shape.ofDecl?_eq_pair_iff.mp read]
      cases a <;> cases b <;> cases h <;> revert member <;> cases t <;> decide

namespace Property

theorem nestedMembers_congr_required {required required' : Option (List String)}
    {path : PropertyPath} {entries : List (String × Property)}
    (h : ∀ entry ∈ entries, isListed required entry.1 = isListed required' entry.1) :
    nestedMembers required path entries = nestedMembers required' path entries := by
  induction entries with
  | nil => rfl
  | cons entry rest ih =>
    rw [nestedMembers_cons, nestedMembers_cons, member, member, h entry List.mem_cons_self,
      ih fun other later => h other (List.mem_cons_of_mem _ later)]

theorem nestedMembers_congr_entry {required : Option (List String)} {path : PropertyPath}
    {before after : List (String × Property)} {name : String} {q q' : Property}
    (h : ∀ path, q.expression path = q'.expression path) :
    nestedMembers required path (before ++ (name, q) :: after) =
      nestedMembers required path (before ++ (name, q') :: after) := by
  induction before with
  | nil =>
    rw [List.nil_append, List.nil_append, nestedMembers_cons, nestedMembers_cons, member, member, h]
  | cons entry rest ih =>
    rw [List.cons_append, List.cons_append, nestedMembers_cons, nestedMembers_cons, ih]

/-- An expression depends on the rendering of the type, on the literals if a string is written,
and on what is below if an object is. -/
theorem expression_congr {p q : Property} {path : PropertyPath}
    (type : p.type.rendering = q.type.rendering)
    (literals : Tag.string.name ∈ p.type.tags →
      enumLiterals p.enumValues = enumLiterals q.enumValues)
    (below : p.type.IsObject → p.objectText path = q.objectText path) :
    p.expression path = q.expression path := by
  rw [expression_eq_render, expression_eq_render, ← type]
  cases read : p.type.rendering with
  | rejected error => rfl
  | object nullable =>
    have same := below (TypeDecl.isObject_iff_rendering.mpr ⟨nullable, read⟩)
    cases nullable with
    | false => exact same
    | true => rw [render, render, same]
  | leaves tags =>
    have texts : tags.map (leafText p.enumValues) = tags.map (leafText q.enumValues) := by
      apply List.map_congr_left
      intro t member
      have listed := mem_tags_of_rendering_leaves read member
      cases t with
      | string => exact congrArg some (stringExpression_congr (literals listed))
      | _ => rfl
    rw [render, render, texts]

end Property

/-! ### One difference -/

namespace Property.InertChange

variable {p q : Property}

theorem expression_eq (change : InertChange p q) (path : PropertyPath) :
    p.expression path = q.expression path := by
  induction change generalizing path with
  | title p title => exact expression_congr rfl (fun _ => rfl) fun _ => rfl
  | foreignKey p key => exact expression_congr rfl (fun _ => rfl) fun _ => rfl
  | foreignKeyType p kind => exact expression_congr rfl (fun _ => rfl) fun _ => rfl
  | enumUnused p values h =>
    exact expression_congr rfl (fun listed => absurd listed h) fun _ => rfl
  | enumNulls p values h => exact expression_congr rfl (fun _ => h) fun _ => rfl
  | propertiesUnused p properties h =>
    exact expression_congr rfl (fun _ => rfl) fun isObject => absurd isObject.mem_tags h
  | requiredUnused p required h =>
    exact expression_congr rfl (fun _ => rfl) fun isObject => absurd isObject.mem_tags h
  | required p required h =>
    refine expression_congr rfl (fun _ => rfl) fun _ => ?_
    cases properties : p.properties with
    | none => rw [objectText, objectText, properties]
    | some entries =>
      rw [properties, Option.getD_some] at h
      rw [objectText_of_some properties, objectText_of_some rfl, nestedMembers_congr_required h]
  | oneTag p t h =>
    refine expression_congr ?_ (fun _ => rfl) fun _ => rfl
    rw [h]
    exact TypeDecl.rendering_eq_of_single rfl rfl
  | nullFirst p t h =>
    refine expression_congr ?_ (fun _ => rfl) fun _ => rfl
    rw [h]
    exact TypeDecl.rendering_null_first rfl rfl
  | nested p h change ih =>
    refine expression_congr rfl (fun _ => rfl) fun _ => ?_
    rw [objectText_of_some h, objectText_of_some rfl, nestedMembers_congr_entry ih]

theorem isNullablePair_eq (change : InertChange p q) :
    p.type.isNullablePair = q.type.isNullablePair := by
  cases change with
  | oneTag p t h => rw [h]; rfl
  | nullFirst p t h => simp [h, TypeDecl.isNullablePair]
  | _ => rfl

end Property.InertChange

theorem relationsOf_congr_required {required required' : Option (List String)}
    {properties : List (String × Property)}
    (h : ∀ entry ∈ properties,
      isListed required (Text.trim entry.1) = isListed required' (Text.trim entry.1)) :
    relationsOf required properties = relationsOf required' properties := by
  apply List.filterMap_congr
  rintro ⟨key, p⟩ member
  simp only [Relation.ofProperty?, h (key, p) member]

theorem propertyMembers_congr_required {required required' : Option (List String)}
    {properties : List (String × Property)}
    (h : ∀ entry ∈ properties,
      isListed required (Text.trim entry.1) = isListed required' (Text.trim entry.1)) :
    propertyMembers required properties = propertyMembers required' properties := by
  induction properties with
  | nil => rfl
  | cons entry rest ih =>
    rw [propertyMembers, propertyMembers, Property.member, Property.member,
      h entry List.mem_cons_self, ih fun other later => h other (List.mem_cons_of_mem _ later)]

theorem propertyMembers_congr_entry {required : Option (List String)}
    {before after : List (String × Property)} {key : String} {p p' : Property}
    (h : ∀ path, p.expression path = p'.expression path) :
    propertyMembers required (before ++ (key, p) :: after) =
      propertyMembers required (before ++ (key, p') :: after) := by
  induction before with
  | nil =>
    rw [List.nil_append, List.nil_append, propertyMembers, propertyMembers, Property.member,
      Property.member, h]
  | cons entry rest ih =>
    rw [List.cons_append, List.cons_append, propertyMembers, propertyMembers, ih]

theorem relationMembers_congr {required required' : Option (List String)}
    {properties properties' : List (String × Property)}
    (h : relationsOf required properties = relationsOf required' properties') :
    Emission.relationMembers required properties =
      Emission.relationMembers required' properties' := by
  funext e
  rw [Emission.relationMembers_eq, Emission.relationMembers_eq, h]

/-- Not even the events of a run show an inert difference. -/
theorem Schema.InertChange.generateTraced_eq {s s' : Schema} (change : s.InertChange s')
    (name : String) : generateTraced name s = generateTraced name s' := by
  unfold generateTraced Emission.emit
  cases change with
  | type type => rfl
  | required required h =>
    rw [propertyMembers_congr_required h,
      relationMembers_congr (relationsOf_congr_required h)]
  | @property before after key p p' h change hint =>
    have members : propertyMembers s.required (before ++ (key, p) :: after) =
        propertyMembers s.required (before ++ (key, p') :: after) :=
      propertyMembers_congr_entry change.expression_eq
    have relations : relationsOf s.required (before ++ (key, p) :: after) =
        relationsOf s.required (before ++ (key, p') :: after) := by
      unfold relationsOf
      simp only [List.filterMap_append, List.filterMap_cons, Relation.ofProperty?, hint,
        change.isNullablePair_eq]
    dsimp only
    rw [h, members, relationMembers_congr relations]

/-- Schemas that differ in inert parts only, any number of them at any depth, have the same
declaration and relations or the same error. -/
theorem generate_eq_of_inert (name : String) {s s' : Schema}
    (h : Relation.EqvGen Schema.InertChange s s') : generate name s = generate name s' := by
  induction h with
  | rel s s' change => exact congrArg Traced.outcome (change.generateTraced_eq name)
  | refl s => rfl
  | symm s s' _ ih => exact ih.symm
  | trans s s' s'' _ _ first second => exact first.trans second

/-- A schema with a nullable object, and the same one in another spelling. -/
def plainTeam : Schema :=
  ⟨"object", [("owner", ⟨none, .alternatives ["null", "object"], none,
    some [("id", Property.ofType (.alternatives ["string"]))], some ["id", "id"], none, none⟩)],
    none⟩

def ornateTeam : Schema :=
  ⟨"team", [("owner", ⟨some "Owner", .alternatives ["object", "null"], some [some "x"],
    some [("id", ⟨none, .single "string", some [none], some [], none, some "user", none⟩)],
    some ["name", "id"], some "user", none⟩)], some ["nobody"]⟩

theorem generate_eq_of_inert_team :
    Relation.EqvGen Schema.InertChange plainTeam ornateTeam ∧
      generate "Team" plainTeam = generate "Team" ornateTeam := by
  have top (s : Schema) {p p' : Property} (h : s.properties = [("owner", p)])
      (change : p.InertChange p') (hint : p.foreignKeyHint = p'.foreignKeyHint) :
      Relation.EqvGen Schema.InertChange s { s with properties := [("owner", p')] } :=
    .rel _ _ (@Schema.InertChange.property s [] [] "owner" p p' h change hint)
  have inner (p : Property) {q q' : Property} (h : p.properties = some [("id", q)])
      (change : q.InertChange q') : p.InertChange { p with properties := some [("id", q')] } :=
    @Property.InertChange.nested p [] [] "id" q q' h change
  have changes : Relation.EqvGen Schema.InertChange plainTeam ornateTeam := by
    refine .trans _ _ _ (.rel _ _ (.type _ "team")) ?_
    refine .trans _ _ _ (.rel _ _ (.required _ (some ["nobody"]) (by decide))) ?_
    refine .trans _ _ _ (top _ rfl (.nullFirst _ .object rfl) rfl) ?_
    refine .trans _ _ _ (top _ rfl (.title _ (some "Owner")) rfl) ?_
    refine .trans _ _ _ (top _ rfl (.enumUnused _ (some [some "x"]) (by decide)) rfl) ?_
    refine .trans _ _ _ (top _ rfl (.required _ (some ["name", "id"]) (by decide)) rfl) ?_
    refine .trans _ _ _ (top _ rfl (.foreignKey _ (some "user")) rfl) ?_
    refine .trans _ _ _ (top _ rfl (inner _ rfl (.oneTag _ .string rfl)) rfl) ?_
    refine .trans _ _ _ (top _ rfl (inner _ rfl (.enumNulls _ (some [none]) rfl)) rfl) ?_
    refine .trans _ _ _
      (top _ rfl (inner _ rfl (.propertiesUnused _ (some []) (by decide))) rfl) ?_
    exact top _ rfl (inner _ rfl (.foreignKey _ (some "user"))) rfl
  exact ⟨changes, generate_eq_of_inert "Team" changes⟩

end InterfaceGen
