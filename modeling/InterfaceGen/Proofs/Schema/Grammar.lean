import Mathlib.Data.List.Induction
import InterfaceGen.Json.Fault
import InterfaceGen.Schema.Draft
import InterfaceGen.Schema.Printer

/-!
# The grammar of schemas

Which JSON values describe a schema, rule by rule, and where a value that describes none departs
from the grammar. The parts of a value are what it holds under keys or indices that have a meaning,
in document order; a value is at fault in the first part that is, and else as a whole.
-/

namespace InterfaceGen

open Json (Value Step Place)

/-- What a value is wanted for. -/
inductive Kind
  | text
  | unit
  | typeDecl
  | cardinality
  | optional (kind : Kind)
  | list (kind : Kind)
  | entries
  | property
  | schema

def Property.Field.kind : Property.Field → Kind
  | .title => .optional .text
  | .type => .typeDecl
  | .enumValues => .optional (.list (.optional .text))
  | .properties => .optional .entries
  | .required => .optional (.list .text)
  | .foreignKey => .optional .text
  | .foreignKeyType => .optional .cardinality

def Schema.Field.kind : Schema.Field → Kind
  | .type => .text
  | .properties => .entries
  | .required => .optional (.list .text)

/-- The values of each kind. Members under keys that name no field may hold anything. -/
inductive Conforms : Kind → Value → Prop
  | text (s : String) : Conforms .text (.string s)
  | unit : Conforms .unit .null
  | tag (s : String) : Conforms .typeDecl (.string s)
  | tags (names : List String) : Conforms .typeDecl (namesToJson names)
  | name (c : Cardinality) : Conforms .cardinality (.string c.name)
  | record (c : Cardinality) : Conforms .cardinality (.object [(c.name, .null)])
  | absent (kind : Kind) : Conforms (.optional kind) .null
  | present {kind : Kind} {v : Value} (h : Conforms kind v) : Conforms (.optional kind) v
  | list {kind : Kind} {items : List Value} (below : ∀ v ∈ items, Conforms kind v) :
      Conforms (.list kind) (.array items)
  | entries {members : List (String × Value)} (below : ∀ m ∈ members, Conforms .property m.2) :
      Conforms .entries (.object members)
  | propertyByKey {members : List (String × Value)} (typed : ∃ m ∈ members, m.1 = "type")
      (below : ∀ m ∈ members, ∀ f, Property.Field.ofKey? m.1 = some f → Conforms f.kind m.2) :
      Conforms .property (.object members)
  | propertyInOrder {items : List Value} (typed : 2 ≤ items.length) (fits : items.length ≤ 7)
      (below : ∀ i f v, Property.Field.ofIndex? i = some f → items[i]? = some v →
        Conforms f.kind v) : Conforms .property (.array items)
  | schemaByKey {members : List (String × Value)}
      (below : ∀ m ∈ members, ∀ f, Schema.Field.ofKey? m.1 = some f → Conforms f.kind m.2) :
      Conforms .schema (.object members)
  | schemaInOrder {items : List Value} (fits : items.length ≤ 3)
      (below : ∀ i f v, Schema.Field.ofIndex? i = some f → items[i]? = some v →
        Conforms f.kind v) : Conforms .schema (.array items)

/-- A value inside another: the step down to it, and what it is wanted for. -/
structure Part where
  step : Step
  kind : Kind
  value : Value

def memberParts (kindOf : String → Option Kind) (members : List (String × Value)) : List Part :=
  members.filterMap fun m => (kindOf m.1).map fun kind => ⟨.key m.1, kind, m.2⟩

/-- The items of an array, counted from `i` on, that there is a use for. -/
def itemParts (kindOf : Nat → Option Kind) (i : Nat) (items : List Value) : List Part :=
  (items.zipIdx i).filterMap fun item =>
    (kindOf item.2).map fun kind => ⟨.index item.2, kind, item.1⟩

/-- The parts of a value. A declared type is looked at as a whole, and an object that stands for a
cardinality is opened only if its one key names one. -/
def Kind.parts : Kind → Value → List Part
  | .cardinality, .object [(name, v)] =>
    if (Cardinality.ofName? name).isSome then [⟨.key name, .unit, v⟩] else []
  | .optional _, .null => []
  | .optional kind, v => kind.parts v
  | .list kind, .array items => itemParts (fun _ => some kind) 0 items
  | .entries, .object members => memberParts (fun _ => some .property) members
  | .property, .object members =>
    memberParts (fun key => (Property.Field.ofKey? key).map Property.Field.kind) members
  | .property, .array items =>
    itemParts (fun i => (Property.Field.ofIndex? i).map Property.Field.kind) 0 items
  | .schema, .object members =>
    memberParts (fun key => (Schema.Field.ofKey? key).map Schema.Field.kind) members
  | .schema, .array items =>
    itemParts (fun i => (Schema.Field.ofIndex? i).map Schema.Field.kind) 0 items
  | _, _ => []

def Part.Conforms (p : Part) : Prop := InterfaceGen.Conforms p.kind p.value

/-- Where a value first departs from its kind, in document order: inside the first of its parts that
does, or, where all of them conform, at the value itself. -/
inductive Blames : Kind → Value → Place → Prop
  | part {kind : Kind} {v : Value} {before after : List Part} {p : Part} {place : Place}
      (parts : kind.parts v = before ++ p :: after) (fine : ∀ q ∈ before, q.Conforms)
      (inside : Blames p.kind p.value place) : Blames kind v (p.step :: place)
  | whole {kind : Kind} {v : Value} (fine : ∀ q ∈ kind.parts v, q.Conforms)
      (refused : ¬Conforms kind v) : Blames kind v []

/-- How a position is written: keys are joined by points, an index stands in brackets right behind
the place of its array, and the root is a point. -/
inductive Rendered : Place → String → Prop
  | root : Rendered [] "."
  | firstKey (name : String) : Rendered [.key name] name
  | firstIndex (i : Nat) : Rendered [.index i] ("[" ++ i.repr ++ "]")
  | key {place : Place} {text : String} (name : String) (below : place ≠ [])
      (h : Rendered place text) : Rendered (place ++ [.key name]) (text ++ "." ++ name)
  | index {place : Place} {text : String} (i : Nat) (below : place ≠ [])
      (h : Rendered place text) : Rendered (place ++ [.index i]) (text ++ "[" ++ i.repr ++ "]")

/-! ### Parts -/

theorem forall_memberParts_iff {kindOf : String → Option Kind} {members : List (String × Value)} :
    (∀ p ∈ memberParts kindOf members, p.Conforms) ↔
      ∀ m ∈ members, ∀ kind, kindOf m.1 = some kind → Conforms kind m.2 := by
  unfold memberParts
  constructor
  · intro h m inside kind known
    exact h ⟨.key m.1, kind, m.2⟩ (List.mem_filterMap.mpr ⟨m, inside, by rw [known]; rfl⟩)
  · intro h p part
    obtain ⟨m, inside, same⟩ := List.mem_filterMap.mp part
    obtain ⟨kind, known, rfl⟩ := Option.map_eq_some_iff.mp same
    exact h m inside kind known

theorem forall_itemParts_iff {kindOf : Nat → Option Kind} {items : List Value} :
    (∀ p ∈ itemParts kindOf 0 items, p.Conforms) ↔
      ∀ i kind v, kindOf i = some kind → items[i]? = some v → Conforms kind v := by
  unfold itemParts
  constructor
  · intro h i kind v known item
    refine h ⟨.index i, kind, v⟩ (List.mem_filterMap.mpr ⟨(v, i), ?_, by rw [known]; rfl⟩)
    exact List.mem_zipIdx_iff_getElem?.mpr item
  · intro h p part
    obtain ⟨⟨v, i⟩, inside, same⟩ := List.mem_filterMap.mp part
    obtain ⟨kind, known, rfl⟩ := Option.map_eq_some_iff.mp same
    exact h i kind v known (List.mem_zipIdx_iff_getElem?.mp inside)

theorem Kind.parts_optional {v : Value} (h : v ≠ .null) (kind : Kind) :
    (Kind.optional kind).parts v = kind.parts v := by
  cases v with
  | null => exact absurd rfl h
  | _ => rw [parts]; simp

theorem conforms_optional_iff {v : Value} (h : v ≠ .null) {kind : Kind} :
    Conforms (.optional kind) v ↔ Conforms kind v := by
  constructor
  · intro conforms
    cases conforms with
    | absent => exact absurd rfl h
    | present fine => exact fine
  · exact .present

/-- What is there is at fault where it would be if it had to be there. -/
theorem Blames.optional {v : Value} (ne : v ≠ .null) {kind : Kind} {place : Place}
    (h : Blames kind v place) : Blames (.optional kind) v place := by
  cases h with
  | part parts fine inside => exact .part (by rw [Kind.parts_optional ne, parts]) fine inside
  | whole fine refused =>
    refine .whole (by rwa [Kind.parts_optional ne]) ?_
    rwa [conforms_optional_iff ne]

theorem Conforms.parts {kind : Kind} {v : Value} (h : Conforms kind v) :
    ∀ p ∈ kind.parts v, p.Conforms := by
  induction h with
  | record c =>
    rw [Kind.parts, Cardinality.ofName?_name]
    rintro p (_ | ⟨_, ⟨⟩⟩)
    exact .unit
  | @present kind v _ ih =>
    by_cases null : v = .null
    · subst null
      nofun
    · rwa [Kind.parts_optional null]
  | list below =>
    refine forall_itemParts_iff.mpr fun i kind v known item => ?_
    cases known
    exact below v (List.mem_of_getElem? item)
  | entries below =>
    refine forall_memberParts_iff.mpr fun m inside kind known => ?_
    cases known
    exact below m inside
  | propertyByKey typed below =>
    refine forall_memberParts_iff.mpr fun m inside kind known => ?_
    obtain ⟨f, found, rfl⟩ := Option.map_eq_some_iff.mp known
    exact below m inside f found
  | propertyInOrder typed fits below =>
    refine forall_itemParts_iff.mpr fun i kind v known item => ?_
    obtain ⟨f, found, rfl⟩ := Option.map_eq_some_iff.mp known
    exact below i f v found item
  | schemaByKey below =>
    refine forall_memberParts_iff.mpr fun m inside kind known => ?_
    obtain ⟨f, found, rfl⟩ := Option.map_eq_some_iff.mp known
    exact below m inside f found
  | schemaInOrder fits below =>
    refine forall_itemParts_iff.mpr fun i kind v known item => ?_
    obtain ⟨f, found, rfl⟩ := Option.map_eq_some_iff.mp known
    exact below i f v found item
  | _ => nofun

theorem Blames.not_conforms {kind : Kind} {v : Value} {place : Place} (h : Blames kind v place) :
    ¬Conforms kind v := by
  induction h with
  | part parts _ _ ih =>
    intro conforms
    exact ih (conforms.parts _ (by rw [parts]; simp))
  | whole _ refused => exact refused

/-- The first in a list that lacks a property is the same however the list is cut. -/
theorem first_unique {α : Type} {P : α → Prop} {before before' after after' : List α} {a a' : α}
    (same : before ++ a :: after = before' ++ a' :: after') (fine : ∀ q ∈ before, P q)
    (fine' : ∀ q ∈ before', P q) (bad : ¬P a) (bad' : ¬P a') : a = a' := by
  classical
  have first : (before ++ a :: after).find? (fun q => ¬P q) = some a :=
    List.find?_eq_some_iff_append.mpr ⟨by simpa using bad, before, after, rfl, by simpa using fine⟩
  have first' : (before ++ a :: after).find? (fun q => ¬P q) = some a' :=
    List.find?_eq_some_iff_append.mpr
      ⟨by simpa using bad', before', after', same, by simpa using fine'⟩
  exact Option.some.inj (first.symm.trans first')

/-- A value departs from its kind first in one place only. -/
theorem Blames.unique {kind : Kind} {v : Value} {place place' : Place} (h : Blames kind v place)
    (h' : Blames kind v place') : place = place' := by
  induction h generalizing place' with
  | part parts fine inside ih =>
    cases h' with
    | part parts' fine' inside' =>
      obtain rfl := first_unique (parts.symm.trans parts') fine fine' inside.not_conforms
        inside'.not_conforms
      rw [ih inside']
    | whole fine' _ => exact absurd (fine' _ (by rw [parts]; simp)) inside.not_conforms
  | whole fine refused =>
    cases h' with
    | part parts' _ inside' => exact absurd (fine _ (by rw [parts']; simp)) inside'.not_conforms
    | whole => rfl

/-! ### Positions in writing -/

theorem step_ne_unnamed_of_mem_memberParts {kindOf : String → Option Kind}
    {members : List (String × Value)} {p : Part} (h : p ∈ memberParts kindOf members) :
    p.step ≠ .unnamed := by
  obtain ⟨m, -, same⟩ := List.mem_filterMap.mp h
  obtain ⟨kind, -, rfl⟩ := Option.map_eq_some_iff.mp same
  nofun

theorem step_ne_unnamed_of_mem_itemParts {kindOf : Nat → Option Kind} {i : Nat}
    {items : List Value} {p : Part} (h : p ∈ itemParts kindOf i items) : p.step ≠ .unnamed := by
  obtain ⟨item, -, same⟩ := List.mem_filterMap.mp h
  obtain ⟨kind, -, rfl⟩ := Option.map_eq_some_iff.mp same
  nofun

theorem step_ne_unnamed_of_mem_parts {kind : Kind} {v : Value} {p : Part}
    (h : p ∈ kind.parts v) : p.step ≠ .unnamed := by
  fun_induction Kind.parts kind v with
  | case1 name v known =>
    rw [List.mem_singleton.mp h]
    nofun
  | case4 kind v _ ih => exact ih h
  | case5 | case8 | case10 => exact step_ne_unnamed_of_mem_itemParts h
  | case6 | case7 | case9 => exact step_ne_unnamed_of_mem_memberParts h
  | _ => cases h

theorem Blames.step_ne_unnamed {kind : Kind} {v : Value} {place : Place}
    (h : Blames kind v place) : ∀ step ∈ place, step ≠ .unnamed := by
  induction h with
  | @part kind v _ _ p _ parts _ _ ih =>
    have inside : p ∈ kind.parts v := by
      rw [parts]
      simp
    exact List.forall_mem_cons.mpr ⟨step_ne_unnamed_of_mem_parts inside, ih⟩
  | whole => exact List.forall_mem_nil _

theorem tailText_append (place place' : Place) :
    Place.tailText (place ++ place') = Place.tailText place ++ Place.tailText place' := by
  fun_induction Place.tailText place with
  | case1 => rw [List.nil_append, String.empty_append]
  | case2 i rest ih => rw [List.cons_append, Place.tailText, ih, String.append_assoc]
  | case3 step rest notIndex ih =>
    rw [List.cons_append, Place.tailText, ih]
    · simp only [String.append_assoc]
    · exact notIndex

theorem text_append {place : Place} (below : place ≠ []) (place' : Place) :
    Place.text (place ++ place') = Place.text place ++ Place.tailText place' := by
  cases place with
  | nil => exact absurd rfl below
  | cons step rest =>
    rw [List.cons_append, Place.text, Place.text, tailText_append, String.append_assoc]

/-- The code writes a position from the root down; here it grows by its last step. -/
theorem rendered_text {place : Place} (named : ∀ step ∈ place, step ≠ .unnamed) :
    Rendered place (Place.text place) := by
  induction place using List.reverseRecOn with
  | nil => exact .root
  | append_singleton place step ih =>
    obtain ⟨earlier, last⟩ := List.forall_mem_append.mp named
    by_cases below : place = []
    · subst below
      cases step with
      | key name =>
        have text : Place.text [.key name] = name := by simp [Place.text, Place.tailText, Step.text]
        rw [List.nil_append, text]
        exact .firstKey name
      | index i =>
        have text : Place.text [.index i] = "[" ++ i.repr ++ "]" := by
          simp [Place.text, Place.tailText, Step.text]
        rw [List.nil_append, text]
        exact .firstIndex i
      | unnamed => exact absurd rfl (last _ (List.mem_singleton_self _))
    · rw [text_append below]
      cases step with
      | key name =>
        have tail : Place.tailText [.key name] = "." ++ name := by simp [Place.tailText, Step.text]
        rw [tail, ← String.append_assoc]
        exact .key name below (ih earlier)
      | index i =>
        have tail : Place.tailText [.index i] = "[" ++ i.repr ++ "]" := by
          simp [Place.tailText, Step.text]
        rw [tail, ← String.append_assoc, ← String.append_assoc]
        exact .index i below (ih earlier)
      | unnamed => exact absurd rfl (last _ (List.mem_singleton_self _))

end InterfaceGen
