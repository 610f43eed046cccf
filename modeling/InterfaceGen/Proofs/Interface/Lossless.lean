import InterfaceGen.Proofs.Interface.Expression
import InterfaceGen.Proofs.Interface.Offence
import InterfaceGen.Proofs.Interface.Unambiguous

/-!
# Nothing is lost

Two schemas with the same declaration have the same normal form, as long as their names are
identifiers and no literal has a quote inside. Other characters in a literal do no harm.
-/

namespace InterfaceGen

open Command (isIdentifier isIdentifierStart isIdentifierChar)

/-! ### Legible schemas -/

/-- Every name that is written is an identifier and no literal that is written has a quote. -/
structure Schema.Legible (schema : Schema) : Prop where
  names {path : List String} {name : String} {p : Property} :
    schema.Reaches ⟨path ++ [name]⟩ p → isIdentifier name = true
  literals {path : PropertyPath} {p : Property} {values : EnumValues} {value : String} :
    schema.Reaches path p → p.enumValues = some values → some value ∈ values →
      '\'' ∉ value.toList
  noHints : ∀ entry ∈ schema.properties, entry.2.foreignKeyHint = none

theorem mem_enumLiterals_iff {values : EnumValues} {value : String} :
    value ∈ enumLiterals (some values) ↔ some value ∈ values := by
  simp [enumLiterals]

theorem Schema.legible_of_visits {schema : Schema}
    (h : ∀ visit ∈ schema.visits,
      (∀ name ∈ visit.1.segments.getLast?, isIdentifier name = true) ∧
        ∀ value ∈ enumLiterals visit.2.enumValues, '\'' ∉ value.toList)
    (noHints : ∀ entry ∈ schema.properties, entry.2.foreignKeyHint = none) : schema.Legible where
  names := by
    intro path name p reached
    have checked := (h _ (reaches_iff_mem_visits.mp reached)).1
    exact checked name (by simp)
  literals := by
    intro path p values value reached enumValues member
    have checked := (h _ (reaches_iff_mem_visits.mp reached)).2
    rw [enumValues] at checked
    exact checked value (mem_enumLiterals_iff.mpr member)
  noHints := noHints

theorem Alternative.legible_ofEnum {enumValues : Option EnumValues}
    (h : ∀ value ∈ enumLiterals enumValues, '\'' ∉ value.toList) :
    (Alternative.ofEnum enumValues).Legible := by
  unfold ofEnum
  cases literals : enumLiterals enumValues with
  | nil => exact .anyText
  | cons value rest => exact .oneOf (List.cons_ne_nil value rest) (literals ▸ h)

theorem Property.eq_string_of_isOneOf {p : Property} {t : Tag} (h : (p.alternative t).IsOneOf) :
    t = .string := by
  obtain ⟨values, same⟩ := h
  cases t with
  | string => rfl
  | object =>
    dsimp only [alternative] at same
    cases properties : p.properties <;> rw [properties] at same <;> cases same
  | _ => cases same

theorem nodup_eraseDups {α : Type} [BEq α] [LawfulBEq α] (l : List α) : l.eraseDups.Nodup := by
  match l with
  | [] => exact List.nodup_nil
  | a :: rest =>
    rw [List.eraseDups_cons, List.nodup_cons]
    refine ⟨fun member => ?_, nodup_eraseDups _⟩
    have kept := (List.mem_filter.mp (List.mem_eraseDups.mp member)).2
    simp at kept
termination_by l.length
decreasing_by exact Nat.lt_succ_of_le (List.length_filter_le _ _)

theorem Property.pairwise_normalForm (p : Property) :
    p.normalForm.Pairwise fun a b => ¬ (a.IsOneOf ∧ b.IsOneOf) := by
  rw [normalForm_eq_map, List.pairwise_map]
  refine List.Pairwise.imp ?_ (nodup_eraseDups _ : p.type.orderedTags.Nodup)
  rintro t u different ⟨first, second⟩
  exact different ((eq_string_of_isOneOf first).trans (eq_string_of_isOneOf second).symm)

theorem Shape.tags_ne_nil {shape : Shape} (h : ∀ error, shape.rendering ≠ .rejected error) :
    shape.rendering.tags ≠ [] := by
  cases shape with
  | single t => cases t <;> exact List.cons_ne_nil _ _
  | pair a b =>
    cases a <;> cases b <;> first | exact List.cons_ne_nil _ _ | exact absurd rfl (h _)

theorem TypeDecl.orderedTags_ne_nil {decl : TypeDecl}
    (h : ∀ error, decl.rendering ≠ .rejected error) : decl.orderedTags ≠ [] := by
  have tags : decl.rendering.tags ≠ [] := by
    unfold rendering at h ⊢
    cases read : Shape.ofDecl? decl with
    | none =>
      rw [read] at h
      exact absurd rfl (h _)
    | some shape =>
      rw [read] at h
      exact Shape.tags_ne_nil h
  obtain ⟨t, member⟩ := List.exists_mem_of_ne_nil _ tags
  rw [orderedTags_eq_eraseDups h]
  exact List.ne_nil_of_mem (List.mem_eraseDups.mpr member)

theorem TypeDecl.isObject_of_mem_orderedTags {decl : TypeDecl}
    (h : ∀ error, decl.rendering ≠ .rejected error) (member : Tag.object ∈ decl.orderedTags) :
    decl.IsObject := by
  rw [orderedTags_eq_eraseDups h, List.mem_eraseDups] at member
  cases read : decl.rendering with
  | rejected error => exact absurd read (h error)
  | object nullable => exact isObject_iff_rendering.mpr ⟨nullable, read⟩
  | leaves tags =>
    rw [read] at member
    exact absurd rfl (leaf_ne_object read _ member)

/-! ### Legible normal forms -/

theorem generate_ok_accepts {name : String} {schema : Schema} {e : Emission}
    (h : generate name schema = .ok e) {path : PropertyPath} {p : Property}
    (reached : schema.Reaches path p) (error : PropertyPath → GenerationError) :
    p.type.rendering ≠ .rejected error := by
  intro rejected
  have offends : p.type.Offends path (error path) :=
    TypeDecl.offence?_eq_some_iff.mp (by rw [TypeDecl.offence?, rejected])
  obtain ⟨e', failed⟩ := exists_generate_eq_error_iff.mpr ⟨path, p, error path, reached, offends⟩
  rw [h] at failed
  cases failed

theorem legible_memberForms {required : Option (List String)} {entries : List (String × Property)}
    (names : ∀ entry ∈ entries, isIdentifier entry.1 = true)
    (below : ∀ entry ∈ entries, NormalForm.Legible entry.2.normalForm) :
    LegibleMembers (memberForms required entries) := by
  rw [memberForms_eq_map]
  constructor
  · intro m written
    obtain ⟨entry, member, rfl⟩ := List.mem_map.mp written
    exact names entry member
  · intro m written
    obtain ⟨entry, member, rfl⟩ := List.mem_map.mp written
    exact below entry member

theorem Property.legible_normalForm {schema : Schema} (legible : schema.Legible)
    (accepted : ∀ {path : PropertyPath} {p : Property}, schema.Reaches path p →
      ∀ error, p.type.rendering ≠ .rejected error)
    {path : PropertyPath} {p : Property} (reached : schema.Reaches path p) :
    NormalForm.Legible p.normalForm := by
  induction p using opened_induction generalizing path with
  | step p ih =>
    refine .intro ?_ ?_ p.pairwise_normalForm
    · rw [normalForm_eq_map, ne_eq, List.map_eq_nil_iff]
      exact TypeDecl.orderedTags_ne_nil (accepted reached)
    · rw [normalForm_eq_map]
      rintro _ written
      obtain ⟨t, tag, rfl⟩ := List.mem_map.mp written
      cases t with
      | string =>
        apply Alternative.legible_ofEnum
        intro value listed
        cases enumValues : p.enumValues with
        | none =>
          rw [enumValues] at listed
          cases listed
        | some values =>
          rw [enumValues] at listed
          exact legible.literals reached enumValues (mem_enumLiterals_iff.mp listed)
      | number => exact .number
      | boolean => exact .boolean
      | null => exact .null
      | object =>
        have isObject : p.type.IsObject :=
          TypeDecl.isObject_of_mem_orderedTags (accepted reached) tag
        dsimp only [alternative]
        cases properties : p.properties with
        | none => exact .anyObject
        | some entries =>
          have deeper {entry : String × Property} (member : entry ∈ entries) :
              schema.Reaches ⟨path.segments ++ [entry.1]⟩ entry.2 :=
            .nested reached isObject properties member
          apply Alternative.Legible.object
          refine legible_memberForms (fun entry member => legible.names (deeper member)) ?_
          intro entry member
          exact ih entry (mem_opened_iff.mpr ⟨isObject, entries, properties, member⟩)
            (deeper member)

theorem Schema.legible_normalForm {schema : Schema} (legible : schema.Legible)
    (accepted : ∀ {path : PropertyPath} {p : Property}, schema.Reaches path p →
      ∀ error, p.type.rendering ≠ .rejected error) : LegibleMembers schema.normalForm := by
  rw [normalForm_eq_memberForms]
  apply legible_memberForms
  · rintro _ written
    obtain ⟨⟨key, p⟩, member, rfl⟩ := List.mem_map.mp written
    exact @Legible.names _ legible [] _ _ (.top member)
  · rintro _ written
    obtain ⟨⟨key, p⟩, member, rfl⟩ := List.mem_map.mp written
    exact Property.legible_normalForm legible accepted (.top member)

/-! ### Reading a declaration back -/

theorem declarationText_inj {m n : String} {ms ns : List (String × Bool × NormalForm)}
    (hm : isIdentifier m = true) (hn : isIdentifier n = true)
    (hms : LegibleMembers ms) (hns : LegibleMembers ns)
    (h : declarationText m ms = declarationText n ns) : m = n ∧ ms = ns := by
  have blank : isIdentifierChar ' ' = false := by decide
  obtain ⟨rfl, -, members⟩ := identifier_append_cons_inj hm hn blank blank h
  have closed (c : Char) (t : List Char) (start : isIdentifierStart c = true) :
      indexSignature.toList ++ [' ', '\x7d'] ≠ [] ++ c :: t := by
    rintro ⟨⟩
    exact absurd start (by decide)
  simp only [List.cons.injEq, true_and, List.append_assoc] at members
  obtain ⟨rfl, -⟩ :=
    memberTexts_append_inj (fun m _ a _ => a.readable) hms hns closed closed members
  exact ⟨rfl, rfl⟩

/-- The text of a declaration determines its name and the normal form of its schema. -/
theorem normalForm_eq_of_source_eq {m n : String} {s t : Schema} {d e : Emission}
    (hm : isIdentifier m = true) (hn : isIdentifier n = true)
    (legibleS : s.Legible) (legibleT : t.Legible)
    (hd : generate m s = .ok d) (he : generate n t = .ok e) (same : d.source = e.source) :
    m = n ∧ s.normalForm = t.normalForm := by
  have texts : declarationText m s.normalForm = declarationText n t.normalForm := by
    have sources := congrArg String.toList same
    rw [toList_source hd legibleS.noHints, toList_source he legibleT.noHints] at sources
    exact List.append_cancel_left sources
  exact declarationText_inj hm hn
    (Schema.legible_normalForm legibleS (generate_ok_accepts hd))
    (Schema.legible_normalForm legibleT (generate_ok_accepts he)) texts

/-- A schema with separators in a literal, and the same one in another spelling. -/
def plainPage : Schema :=
  ⟨"object",
    [("kind", ⟨none, .alternatives ["string", "null"], some [some "a | b; \x7d"], none, none, none,
        none⟩),
      ("body", ⟨none, .single "object", none,
        some [("size", Property.ofType (.single "number"))], some ["size"], none, none⟩)],
    none⟩

def ornatePage : Schema :=
  ⟨"page",
    [(" kind", ⟨some "Kind", .alternatives ["null", "string"], some [none, some "a | b; \x7d"],
        none, none, some "kind", none⟩),
      ("body ", ⟨none, .alternatives ["object"], none,
        some [("size", Property.ofType (.alternatives ["number", "number"]))],
        some ["height", "size"], none, none⟩)],
    some []⟩

def pageSource : String :=
  "export interface Page \x7b kind?: 'a | b; \x7d' | null;\n" ++
    "body?: \x7b size: number; \x7d;\n[key: string]: unknown; \x7d"

theorem normalForm_eq_of_source_eq_page :
    plainPage.Legible ∧ ornatePage.Legible ∧ ∃ d e, generate "Page" plainPage = .ok d ∧
      generate "Page" ornatePage = .ok e ∧ d.source = e.source ∧
        plainPage.normalForm = ornatePage.normalForm := by
  have plain : plainPage.Legible := Schema.legible_of_visits (by decide) (by decide)
  have ornate : ornatePage.Legible := Schema.legible_of_visits (by decide) (by decide)
  have written : generate "Page" plainPage = .ok ⟨pageSource, .empty⟩ := by rfl
  have written' : generate "Page" ornatePage = .ok ⟨pageSource, .empty⟩ := by rfl
  exact ⟨plain, ornate, _, _, written, written', rfl,
    (normalForm_eq_of_source_eq (by decide) (by decide) plain ornate written written' rfl).2⟩

end InterfaceGen
