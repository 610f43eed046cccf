import InterfaceGen.Proofs.Interface.NormalForm

/-!
# Expressions are texts of normal forms

A property with an expression is written as its normal form is, and a schema with a declaration is
written as the members of its normal form, after which stand its relations and the index signature.
-/

namespace InterfaceGen

namespace Property

def alternative (p : Property) : Tag → Alternative
  | .string => .ofEnum p.enumValues
  | .number => .number
  | .boolean => .boolean
  | .null => .null
  | .object =>
    match p.properties with
    | none => .anyObject
    | some entries => .object (memberForms p.required entries)

theorem normalForm_eq_map (p : Property) :
    p.normalForm = p.type.orderedTags.map p.alternative := by
  obtain ⟨title, type, enumValues, properties, required, foreignKey, foreignKeyType⟩ := p
  rw [normalForm.eq_def]
  apply List.map_congr_left
  intro t _
  cases t <;> rfl

end Property

theorem Tag.filterMap_ofName?_names (tags : List Tag) :
    (tags.map Tag.name).filterMap Tag.ofName? = tags := by
  induction tags with
  | nil => rfl
  | cons t rest ih => rw [List.map_cons, List.filterMap_cons, Tag.ofName?_name, ih]

theorem TypeDecl.orderedTags_eq_eraseDups {decl : TypeDecl}
    (h : ∀ error, decl.rendering ≠ .rejected error) :
    decl.orderedTags = decl.rendering.tags.eraseDups := by
  unfold rendering at h ⊢
  cases read : Shape.ofDecl? decl with
  | none =>
    rw [read] at h
    exact absurd rfl (h _)
  | some shape =>
    rw [read] at h
    cases shape with
    | single t =>
      have tags : decl.tags = [t].map Tag.name := Shape.ofDecl?_eq_single_iff.mp read
      rw [orderedTags, tags, Tag.filterMap_ofName?_names]
      cases t <;> rfl
    | pair a b =>
      have tags : decl.tags = [a, b].map Tag.name := Shape.ofDecl?_eq_pair_iff.mp read
      rw [orderedTags, tags, Tag.filterMap_ofName?_names]
      cases a <;> cases b <;> first | rfl | exact absurd rfl (h _)

theorem eraseDups_map {α β : Type} [BEq α] [LawfulBEq α] [BEq β] [LawfulBEq β] {f : α → β}
    {l : List α} (h : ∀ a ∈ l, ∀ b ∈ l, f a = f b → a = b) :
    (l.map f).eraseDups = l.eraseDups.map f := by
  match l with
  | [] => rfl
  | a :: rest =>
    have kept : (rest.map f).filter (fun c => !c == f a) =
        (rest.filter fun b => !b == a).map f := by
      rw [List.filter_map]
      congr 1
      apply List.filter_congr
      intro b member
      have same : f b = f a ↔ b = a :=
        ⟨h b (List.mem_cons_of_mem a member) a List.mem_cons_self, congrArg f⟩
      simp only [Function.comp_apply, Bool.not_eq_eq_eq_not, Bool.not_not]
      rw [Bool.eq_iff_iff, beq_iff_eq, beq_iff_eq, same]
    rw [List.map_cons, List.eraseDups_cons, List.eraseDups_cons, List.map_cons, kept,
      eraseDups_map fun b hb c hc => h b (List.mem_cons_of_mem a (List.mem_filter.mp hb).1) c
        (List.mem_cons_of_mem a (List.mem_filter.mp hc).1)]
termination_by l.length
decreasing_by exact Nat.lt_succ_of_le (List.length_filter_le _ _)

/-! ### Expressions are texts of normal forms -/

theorem toList_stringExpression (enumValues : Option EnumValues) :
    (stringExpression enumValues).toList = (Alternative.ofEnum enumValues).text := by
  rw [stringExpression_eq, Alternative.ofEnum]
  cases enumLiterals enumValues with
  | nil =>
    rw [Alternative.text]
    rfl
  | cons value rest =>
    have texts : (unionSeparator.intercalate ((value :: rest).map literal)).toList =
        separated ((value :: rest).map quoted) := by
      rw [toList_intercalate_unionSeparator, List.map_map]
      exact congrArg separated (List.map_congr_left fun v _ => toList_literal v)
    have started : (unionSeparator.intercalate ((value :: rest).map literal)).isEmpty = false := by
      rw [Bool.eq_false_iff, ne_eq, String.isEmpty_iff, ← String.toList_inj, texts, List.map_cons,
        separated_cons, quoted]
      simp
    rw [Alternative.text]
    dsimp only
    rw [started]
    exact texts

theorem toList_alternativeText_leafText {t : Tag} (h : t ≠ .object) (p : Property) :
    (alternativeText (leafText p.enumValues t)).toList = (p.alternative t).text := by
  cases t with
  | string => exact toList_stringExpression p.enumValues
  | object => exact absurd rfl h
  | _ => simp [leafText, alternativeText, nullText, Property.alternative, Alternative.text]

/-- The expression of a string type is told from those of the other leaves by its first letter. -/
theorem stringExpression_start (enumValues : Option EnumValues) :
    (stringExpression enumValues).toList.head? = some 's' ∨
      (stringExpression enumValues).toList.head? = some '\'' := by
  rw [toList_stringExpression, Alternative.ofEnum]
  cases enumLiterals enumValues with
  | nil => exact .inl rfl
  | cons value rest =>
    right
    dsimp only
    rw [Alternative.text, List.map_cons, separated_cons, quoted]
    rfl

theorem alternativeText_leafText_inj {a b : Tag} {enumValues : Option EnumValues}
    (ha : a ≠ .object) (hb : b ≠ .object)
    (h : alternativeText (leafText enumValues a) = alternativeText (leafText enumValues b)) :
    a = b := by
  have apart (word : String) (n : word.toList.head? ≠ some 's')
      (m : word.toList.head? ≠ some '\'') : stringExpression enumValues ≠ word := by
    rintro rfl
    exact (stringExpression_start enumValues).elim n m
  cases a <;> cases b
  any_goals exact absurd rfl ha
  any_goals exact absurd rfl hb
  any_goals rfl
  case string.number => exact absurd h (apart "number" (by decide) (by decide))
  case string.boolean => exact absurd h (apart "boolean" (by decide) (by decide))
  case string.null => exact absurd h (apart "null" (by decide) (by decide))
  case number.string => exact absurd h.symm (apart "number" (by decide) (by decide))
  case boolean.string => exact absurd h.symm (apart "boolean" (by decide) (by decide))
  case null.string => exact absurd h.symm (apart "null" (by decide) (by decide))
  all_goals exact absurd h (by simp [alternativeText, leafText, nullText])

theorem TypeDecl.leaf_ne_object {decl : TypeDecl} {tags : List Tag}
    (h : decl.rendering = .leaves tags) : ∀ t ∈ tags, t ≠ .object := by
  unfold rendering at h
  cases read : Shape.ofDecl? decl with
  | none => rw [read] at h; cases h
  | some shape =>
    rw [read] at h
    cases shape with
    | single t => cases t <;> cases h <;> decide
    | pair a b => cases a <;> cases b <;> cases h <;> decide

theorem union_singleton (a : Option String) : union [a] = alternativeText a := by
  rw [union, List.map_singleton, List.eraseDups_cons, List.filter_nil, List.eraseDups_nil,
    String.intercalate_singleton]

theorem union_self (a : Option String) : union [a, a] = union [a] := by
  simp [union, List.eraseDups_cons]

/-- Of two alternatives with different texts none is dropped. -/
theorem union_pair {a b : Option String} (h : alternativeText a ≠ alternativeText b) :
    union [a, b] = alternativeText a ++ (unionSeparator ++ alternativeText b) := by
  have kept : [alternativeText a, alternativeText b].eraseDups =
      [alternativeText a, alternativeText b] := by
    simp [List.eraseDups_cons, Ne.symm h]
  change unionSeparator.intercalate [alternativeText a, alternativeText b].eraseDups = _
  rw [kept, String.intercalate_cons_cons, String.intercalate_singleton, String.append_assoc]

theorem union_some_none {text : String} (h : text ≠ nullText) :
    union [some text, none] = text ++ (unionSeparator ++ nullText) :=
  union_pair h

namespace Property

theorem map_toList_nestedMembers {required : Option (List String)} {path : PropertyPath}
    {entries : List (String × Property)} {texts : List String}
    (below : ∀ entry ∈ entries, ∀ path text, (entry.2.expression path).outcome = .ok text →
      text.toList = NormalForm.text entry.2.normalForm)
    (h : (nestedMembers required path entries).outcome = .ok texts) :
    texts.map String.toList = memberTexts (memberForms required entries) := by
  induction entries generalizing texts with
  | nil =>
    rw [nestedMembers] at h
    cases h
    rw [memberForms, memberTexts, List.map_nil]
  | cons entry rest ih =>
    obtain ⟨name, p⟩ := entry
    rw [nestedMembers_cons] at h
    obtain ⟨text, written, h⟩ := Traced.outcome_bind_eq_ok_iff.mp h
    obtain ⟨others, othersWritten, h⟩ := Traced.outcome_bind_eq_ok_iff.mp h
    cases h
    rw [outcome_member] at written
    cases expression : (p.expression (path.child name)).outcome with
    | error e =>
      rw [expression] at written
      cases written
    | ok own =>
      rw [expression] at written
      cases written
      have atHead := below (name, p) List.mem_cons_self _ _ expression
      have inTail := ih (fun entry member => below entry (List.mem_cons_of_mem _ member))
        othersWritten
      rw [List.map_cons, inTail, toList_memberDeclaration, atHead, memberForms, memberTexts,
        alternativeTexts_eq_map]
      rfl

theorem toList_objectText {p : Property} (isObject : p.type.IsObject)
    (below : ∀ entry ∈ p.opened, ∀ path text, (entry.2.expression path).outcome = .ok text →
      text.toList = NormalForm.text entry.2.normalForm)
    {path : PropertyPath} {text : String} (h : (p.objectText path).outcome = .ok text) :
    text.toList = (p.alternative .object).text := by
  unfold objectText at h
  dsimp only [alternative]
  cases properties : p.properties with
  | none =>
    rw [properties] at h
    cases h
    rw [Alternative.text, anyObjectText]
  | some entries =>
    rw [properties] at h
    obtain ⟨texts, written, rfl⟩ := Traced.outcome_map_eq_ok_iff.mp h
    have opened (entry : String × Property) (member : entry ∈ entries) : entry ∈ p.opened :=
      mem_opened_iff.mpr ⟨isObject, entries, properties, member⟩
    dsimp only
    rw [toList_bracedMembers, Alternative.text,
      map_toList_nestedMembers (fun entry member => below entry (opened entry member)) written]

theorem start_of_object (p : Property) : (p.alternative .object).text.head? = some '\x7b' := by
  dsimp only [alternative]
  cases p.properties with
  | none => rw [Alternative.text, anyObjectText]; rfl
  | some entries =>
    dsimp only
    rw [Alternative.text]
    cases memberTexts (memberForms p.required entries) <;> rfl

theorem toList_union_leaves {p : Property} {tags : List Tag} (h : ∀ t ∈ tags, t ≠ .object) :
    (union (tags.map (leafText p.enumValues))).toList =
      NormalForm.text (tags.eraseDups.map p.alternative) := by
  have kept : (tags.map (alternativeText ∘ leafText p.enumValues)).eraseDups =
      tags.eraseDups.map (alternativeText ∘ leafText p.enumValues) :=
    eraseDups_map fun a ha b hb => alternativeText_leafText_inj (h a ha) (h b hb)
  unfold union
  rw [List.map_map, kept, toList_intercalate_unionSeparator, NormalForm.text, List.map_map,
    List.map_map]
  congr 1
  apply List.map_congr_left
  intro t member
  exact toList_alternativeText_leafText (h t (List.mem_eraseDups.mp member)) p

theorem toList_union_object_null {p : Property} {object : String}
    (h : object.toList = (p.alternative .object).text) :
    (union [some object, none]).toList =
      NormalForm.text ([Tag.object, Tag.null].map p.alternative) := by
  -- An object starts with a brace, so the null beside it is not taken for a repetition.
  have apart : object ≠ nullText := by
    rintro rfl
    have start := p.start_of_object
    rw [← h] at start
    exact absurd start (by decide)
  have null : nullText.toList = (p.alternative .null).text :=
    toList_alternativeText_leafText (show Tag.null ≠ .object by decide) p
  rw [union_some_none apart, String.toList_append, String.toList_append, h, null, List.map_cons,
    List.map_cons, NormalForm.text_cons, List.map_nil, List.flatMap_singleton]
  rfl

theorem toList_expression {p : Property} {path : PropertyPath} {text : String}
    (h : (p.expression path).outcome = .ok text) : text.toList = NormalForm.text p.normalForm := by
  induction p using opened_induction generalizing path text with
  | step p ih =>
    rw [expression_eq_render] at h
    have accepted (error : PropertyPath → GenerationError) :
        p.type.rendering ≠ .rejected error := by
      intro rejected
      rw [rejected] at h
      cases h
    rw [normalForm_eq_map, TypeDecl.orderedTags_eq_eraseDups accepted]
    have objectText (isObject : p.type.IsObject) {object : String}
        (written : (p.objectText path).outcome = .ok object) :
        object.toList = (p.alternative .object).text :=
      toList_objectText isObject (fun entry member _ _ => ih entry member) written
    cases read : p.type.rendering with
    | rejected error => exact absurd read (accepted error)
    | leaves tags =>
      rw [read] at h
      cases h
      exact toList_union_leaves (TypeDecl.leaf_ne_object read)
    | object nullable =>
      have isObject := TypeDecl.isObject_iff_rendering.mpr ⟨nullable, read⟩
      rw [read] at h
      cases nullable with
      | false =>
        rw [objectText isObject h]
        exact (NormalForm.text_singleton _).symm
      | true =>
        obtain ⟨object, written, h⟩ := Traced.outcome_bind_eq_ok_iff.mp h
        cases h
        rw [toList_union_object_null (objectText isObject written)]
        rfl

end Property

/-! ### Declarations -/

theorem Schema.normalForm_eq_memberForms (schema : Schema) :
    schema.normalForm = memberForms schema.required
      (schema.properties.map fun entry => (Text.trim entry.1, entry.2)) := by
  rw [memberForms_eq_map, List.map_map]
  rfl

theorem map_toList_propertyMembers {schema : Schema} {texts : List String}
    (h : (propertyMembers schema.required schema.properties).outcome = .ok texts) :
    texts.map String.toList = memberTexts schema.normalForm := by
  rw [propertyMembers_eq_nestedMembers] at h
  rw [Schema.normalForm_eq_memberForms]
  exact Property.map_toList_nestedMembers (fun _ _ _ _ => Property.toList_expression) h

/-- The declaration of a schema without relations, from its name on. -/
def declarationText (name : String) (members : List (String × Bool × NormalForm)) : List Char :=
  name.toList ++ ' ' :: '\x7b' :: ' ' :: ((memberTexts members).flatMap (· ++ ['\n']) ++
    indexSignature.toList ++ [' ', '\x7d'])

theorem intercalate_concat {α : Type} (separator : α) (texts : List (List α)) (last : List α) :
    [separator].intercalate (texts ++ [last]) = texts.flatMap (· ++ [separator]) ++ last := by
  induction texts with
  | nil => simp
  | cons first rest ih =>
    cases rest with
    | nil => simp
    | cons second rest =>
      rw [List.cons_append, List.cons_append, List.intercalate_cons_cons, ← List.cons_append, ih,
        List.flatMap_cons, List.append_assoc, List.append_assoc]
      simp

theorem toList_interfaceDeclaration (name : String) (members : List String) :
    (interfaceDeclaration name (members ++ [indexSignature])).toList =
      "export interface ".toList ++ (name.toList ++ ' ' :: '\x7b' :: ' ' ::
        ((members.map String.toList).flatMap (· ++ ['\n']) ++ indexSignature.toList ++
          [' ', '\x7d'])) := by
  unfold interfaceDeclaration
  simp only [String.toList_append, String.toList_intercalate, List.map_append, List.map_cons,
    List.map_nil]
  rw [show "\n".toList = ['\n'] from rfl, intercalate_concat]
  simp

/-- Without foreign keys at the top a schema is written as its name and its normal form. -/
theorem toList_source {name : String} {schema : Schema} {e : Emission}
    (h : generate name schema = .ok e)
    (noHints : ∀ entry ∈ schema.properties, entry.2.foreignKeyHint = none) :
    e.source.toList = "export interface ".toList ++ declarationText name schema.normalForm := by
  unfold generate generateTraced at h
  cases members : (propertyMembers schema.required schema.properties).outcome with
  | error error =>
    rw [Emission.emit_of_error members] at h
    cases h
  | ok texts =>
    rw [Emission.emit_of_ok members] at h
    cases h
    have noRelations : relationsOf schema.required schema.properties = [] := by
      apply List.filterMap_eq_nil_iff.mpr
      rintro ⟨key, p⟩ member
      dsimp only [Relation.ofProperty?]
      rw [noHints _ member, Option.map_none]
    dsimp only [Emission.allMembers, Emission.empty, Emission.append]
    rw [noRelations, if_pos (by decide), List.map_nil, List.append_nil, toList_interfaceDeclaration,
      map_toList_propertyMembers members, declarationText]

end InterfaceGen
