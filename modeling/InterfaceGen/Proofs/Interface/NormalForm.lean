import InterfaceGen.Proofs.Interface.Reachable

/-!
# Normal forms

What is left of a property in its declaration: its alternatives in order, null last and none twice.
An alternative is known by its literals if it is an enumeration, and by its members if it is an
object. The expression of a property is the text of its normal form.
-/

namespace InterfaceGen

inductive Alternative
  | anyText
  | oneOf (values : List String)
  | number
  | boolean
  | null
  | anyObject
  | object (members : List (String × Bool × List Alternative))

abbrev NormalForm := List Alternative

/-- The tags of a declared type that have a meaning, null last and none twice. -/
def TypeDecl.orderedTags (decl : TypeDecl) : List Tag :=
  let tags := decl.tags.filterMap Tag.ofName?
  (tags.filter (· ≠ .null) ++ tags.filter (· = .null)).eraseDups

def Alternative.ofEnum (enumValues : Option EnumValues) : Alternative :=
  match enumLiterals enumValues with
  | [] => .anyText
  | values => .oneOf values

mutual

def Property.normalForm : Property → NormalForm
  | ⟨_, type, enumValues, properties, required, _, _⟩ =>
    type.orderedTags.map fun
      | .string => .ofEnum enumValues
      | .number => .number
      | .boolean => .boolean
      | .null => .null
      | .object =>
        match properties with
        | none => .anyObject
        | some entries => .object (memberForms required entries)

def memberForms (required : Option (List String)) :
    List (String × Property) → List (String × Bool × NormalForm)
  | [] => []
  | (name, p) :: rest =>
    (name, isListed required name, p.normalForm) :: memberForms required rest

end

/-- The members of the declaration of a schema, under their names as written there. -/
def Schema.normalForm (schema : Schema) : List (String × Bool × NormalForm) :=
  schema.properties.map fun entry =>
    (Text.trim entry.1, isListed schema.required (Text.trim entry.1), entry.2.normalForm)

theorem memberForms_eq_map (required : Option (List String)) (entries : List (String × Property)) :
    memberForms required entries = entries.map fun entry =>
      (entry.1, isListed required entry.1, entry.2.normalForm) := by
  induction entries with
  | nil => rw [memberForms, List.map_nil]
  | cons entry rest ih =>
    obtain ⟨name, p⟩ := entry
    rw [memberForms, ih, List.map_cons]

/-! ### The text of a normal form -/

def separated (texts : List (List Char)) : List Char := [' ', '|', ' '].intercalate texts

def quoted (value : String) : List Char := '\'' :: (value.toList ++ ['\''])

def memberText (name : String) (isRequired : Bool) (expression : List Char) : List Char :=
  name.toList ++ ((if isRequired then [] else ['?']) ++ ':' :: ' ' :: (expression ++ [';']))

def anyObjectText : List Char := unknownMap.toList

def braced : List (List Char) → List Char
  | [] => ['{', '}']
  | members => '{' :: (members.flatMap (' ' :: ·) ++ [' ', '}'])

mutual

def Alternative.text : Alternative → List Char
  | .anyText => ['s', 't', 'r', 'i', 'n', 'g']
  | .oneOf values => separated (values.map quoted)
  | .number => ['n', 'u', 'm', 'b', 'e', 'r']
  | .boolean => ['b', 'o', 'o', 'l', 'e', 'a', 'n']
  | .null => ['n', 'u', 'l', 'l']
  | .anyObject => anyObjectText
  | .object members => braced (memberTexts members)

def alternativeTexts : List Alternative → List (List Char)
  | [] => []
  | a :: rest => a.text :: alternativeTexts rest

def memberTexts : List (String × Bool × List Alternative) → List (List Char)
  | [] => []
  | (name, isRequired, form) :: rest =>
    memberText name isRequired (separated (alternativeTexts form)) :: memberTexts rest

end

theorem alternativeTexts_eq_map (form : NormalForm) :
    alternativeTexts form = form.map Alternative.text := by
  induction form with
  | nil => rw [alternativeTexts, List.map_nil]
  | cons a rest ih => rw [alternativeTexts, ih, List.map_cons]

def NormalForm.text (form : NormalForm) : List Char := separated (form.map Alternative.text)

theorem memberTexts_eq_map (members : List (String × Bool × NormalForm)) :
    memberTexts members = members.map fun m => memberText m.1 m.2.1 (NormalForm.text m.2.2) := by
  induction members with
  | nil => rw [memberTexts, List.map_nil]
  | cons m rest ih =>
    obtain ⟨name, isRequired, form⟩ := m
    rw [memberTexts, ih, List.map_cons, alternativeTexts_eq_map]
    rfl

theorem separated_cons (first : List Char) (rest : List (List Char)) :
    separated (first :: rest) = first ++ rest.flatMap ([' ', '|', ' '] ++ ·) := by
  unfold separated
  induction rest generalizing first with
  | nil => simp
  | cons second rest ih =>
    rw [List.intercalate_cons_cons, ih, List.flatMap_cons, List.append_assoc, List.append_assoc]

theorem separator_append_separated {texts : List (List Char)} (h : texts ≠ []) :
    [' ', '|', ' '] ++ separated texts = texts.flatMap ([' ', '|', ' '] ++ ·) := by
  cases texts with
  | nil => exact absurd rfl h
  | cons first rest => rw [separated_cons, List.flatMap_cons, List.append_assoc]

theorem NormalForm.text_cons (a : Alternative) (rest : NormalForm) :
    NormalForm.text (a :: rest) = a.text ++ rest.flatMap ([' ', '|', ' '] ++ ·.text) := by
  rw [NormalForm.text, List.map_cons, separated_cons, List.flatMap_map]

theorem NormalForm.text_singleton (a : Alternative) : NormalForm.text [a] = a.text := by
  rw [NormalForm.text_cons, List.flatMap_nil, List.append_nil]

theorem toList_intercalate_unionSeparator (texts : List String) :
    (unionSeparator.intercalate texts).toList = separated (texts.map String.toList) := by
  rw [String.toList_intercalate]
  rfl

theorem toList_literal (value : String) : (literal value).toList = quoted value := by
  simp [literal, quoted]

theorem toList_memberDeclaration (name : String) (isRequired : Bool) (expression : String) :
    (memberDeclaration name isRequired expression).toList =
      memberText name isRequired expression.toList := by
  cases isRequired <;> simp [memberDeclaration, memberText]

theorem toList_bracedMembers (texts : List String) :
    (bracedMembers texts).toList = braced (texts.map String.toList) := by
  have spaced (first : List Char) (rest : List (List Char)) :
      ' ' :: [' '].intercalate (first :: rest) = (first :: rest).flatMap (' ' :: ·) := by
    induction rest generalizing first with
    | nil => simp
    | cons second rest ih =>
      rw [List.intercalate_cons_cons, List.flatMap_cons, ← ih]
      simp
  cases texts with
  | nil => rfl
  | cons first rest =>
    rw [List.map_cons, braced.eq_2 _ (by simp), ← spaced, bracedMembers.eq_2 _ (by simp)]
    simp [String.toList_intercalate]

end InterfaceGen
