import Mathlib.Data.List.Nodup
import InterfaceGen.Proofs.Interface.Offence
import InterfaceGen.Proofs.Interface.Places
import InterfaceGen.Proofs.Schema.Distinct

/-!
# Paths in messages

A path is written with points between its names, so its text tells which path it is if no name has a
point inside, however empty or odd the names are. In a schema a path leads to one property only, if
no two names at the top are the same without the blanks around them; that names side by side are not
the same as they are written holds of every schema that is read.
-/

namespace InterfaceGen

theorem Text.mem_of_mem_trim {s : String} {c : Char} (h : c ∈ (Text.trim s).toList) :
    c ∈ s.toList := by
  rw [trim, String.toList_ofList, trimEnd, List.mem_reverse] at h
  have started := List.mem_reverse.mp ((List.dropWhile_sublist _).subset h)
  exact (List.dropWhile_sublist _).subset started

/-! ### The text of a path -/

def PointFree (names : List String) : Prop := ∀ name ∈ names, '.' ∉ name.toList

instance (names : List String) : Decidable (PointFree names) :=
  inferInstanceAs (Decidable (∀ _ ∈ _, _))

namespace PropertyPath

variable {path path' : PropertyPath}

/-- The names of a path are what its text has between points. -/
theorem splitOn_text (started : path.segments ≠ []) (pointFree : PointFree path.segments) :
    path.text.toList.splitOn '.' = path.segments.map String.toList := by
  have joined : path.text = ".".intercalate path.segments := by
    unfold text
    split
    next empty => exact absurd empty started
    next => rfl
  have pieces : ∀ piece ∈ path.segments.map String.toList, '.' ∉ piece := by
    intro piece member
    obtain ⟨name, listed, rfl⟩ := List.mem_map.mp member
    exact pointFree name listed
  rw [joined, String.toList_intercalate]
  exact List.splitOn_intercalate '.' pieces (by simpa using started)

theorem text_inj (started : path.segments ≠ []) (started' : path'.segments ≠ [])
    (pointFree : PointFree path.segments) (pointFree' : PointFree path'.segments)
    (h : path.text = path'.text) : path = path' := by
  have same : path.text.toList.splitOn '.' = path'.text.toList.splitOn '.' := by rw [h]
  rw [splitOn_text started pointFree, splitOn_text started' pointFree'] at same
  have names : path.segments = path'.segments :=
    List.map_injective_iff.mpr (fun _ _ => String.toList_inj.mp) same
  exact congrArg mk names

theorem concat_inj {names names' : List String} {name name' : String}
    (h : mk (names ++ [name]) = mk (names' ++ [name'])) : names = names' ∧ name = name' := by
  obtain ⟨before, last⟩ := List.append_inj' (congrArg segments h) rfl
  exact ⟨before, (List.cons.inj last).1⟩

end PropertyPath

/-! ### Properties of a schema by their positions -/

/-- The properties of a schema at any depth, with their positions and the paths that lead to them,
whether they are looked at or stand below a type that is no object. -/
inductive Schema.Contains (schema : Schema) : Place → Prop
  | top {i : Nat} {key : String} {p : Property} (here : schema.properties[i]? = some (key, p)) :
      Contains schema ⟨[i], ⟨[Text.trim key]⟩, p⟩
  | nested {v : Place} {entries : List (String × Property)} {i : Nat} {name : String}
      {q : Property} (above : Contains schema v) (properties : v.property.properties = some entries)
      (here : entries[i]? = some (name, q)) :
      Contains schema ⟨v.position ++ [i], ⟨v.path.segments ++ [name]⟩, q⟩

/-- No name in the lists of properties in the property has a point inside. -/
inductive Property.PointFreeNames : Property → Prop
  | intro {p : Property}
      (here : ∀ {entries}, p.properties = some entries → PointFree (OrderedMap.keys entries))
      (below : ∀ {entries}, p.properties = some entries →
        ∀ entry ∈ entries, PointFreeNames entry.2) : PointFreeNames p

/-- Neither the schema nor a property in it has a name with a point inside. -/
structure Schema.PointFreeNames (s : Schema) : Prop where
  here : PointFree (OrderedMap.keys s.properties)
  below : ∀ entry ∈ s.properties, entry.2.PointFreeNames

theorem index_eq_of_nodup {α : Type} {f : α → String} {l : List α} (h : (l.map f).Nodup)
    {i j : Nat} {a b : α} (ha : l[i]? = some a) (hb : l[j]? = some b) (same : f a = f b) :
    i = j := by
  have inside : i < (l.map f).length := by
    rw [List.length_map]
    exact (List.getElem?_eq_some_iff.mp ha).1
  apply (List.getElem?_inj inside h).mp
  rw [List.getElem?_map, List.getElem?_map, ha, hb, Option.map_some, Option.map_some, same]

namespace Schema

variable {schema : Schema} {v w : Place}

theorem Contains.segments_ne_nil (h : schema.Contains v) : v.path.segments ≠ [] := by
  cases h with
  | top here => exact List.cons_ne_nil _ _
  | nested above properties here =>
    exact List.append_ne_nil_of_right_ne_nil _ (List.cons_ne_nil _ _)

/-- What is true of the properties at the top and handed down is true at any depth. -/
theorem Contains.of_top {good : Property → Prop} (top : ∀ entry ∈ schema.properties, good entry.2)
    (handedDown : ∀ {p entries}, good p → p.properties = some entries →
      ∀ entry ∈ entries, good entry.2) (hv : schema.Contains v) : good v.property := by
  induction hv with
  | top here => exact top _ (List.mem_of_getElem? here)
  | nested above properties here ih => exact handedDown ih properties _ (List.mem_of_getElem? here)

theorem Contains.distinctNames (h : schema.DistinctNames) (hv : schema.Contains v) :
    v.property.DistinctNames :=
  hv.of_top h.below fun ⟨_, below⟩ => below

theorem Contains.pointFreeNames (h : schema.PointFreeNames) (hv : schema.Contains v) :
    v.property.PointFreeNames :=
  hv.of_top h.below fun ⟨_, below⟩ => below

theorem Contains.pointFree (h : schema.PointFreeNames) (hv : schema.Contains v) :
    PointFree v.path.segments := by
  induction hv with
  | top here =>
    intro name listed
    rw [List.mem_singleton.mp listed]
    apply mt Text.mem_of_mem_trim
    exact h.here _ (List.mem_map_of_mem (List.mem_of_getElem? here))
  | nested above properties here ih =>
    intro name listed
    rcases List.mem_append.mp listed with before | last
    · exact ih name before
    · obtain ⟨names, -⟩ := above.pointFreeNames h
      rw [List.mem_singleton.mp last]
      exact names properties _ (List.mem_map_of_mem (List.mem_of_getElem? here))

/-- A path leads to one place only. -/
theorem Contains.eq_of_path_eq (distinct : schema.DistinctNames)
    (apart : (schema.properties.map fun entry => Text.trim entry.1).Nodup)
    (hv : schema.Contains v) (hw : schema.Contains w) (same : v.path = w.path) : v = w := by
  induction hv generalizing w with
  | @top i key p here =>
    cases hw with
    | @top j key' p' here' =>
      obtain ⟨-, name⟩ := @PropertyPath.concat_inj [] [] _ _ same
      obtain rfl := index_eq_of_nodup apart here here' name
      rw [here] at here'
      cases here'
      rfl
    | nested above properties here' =>
      obtain ⟨none, -⟩ := @PropertyPath.concat_inj [] _ _ _ same
      exact absurd none.symm above.segments_ne_nil
  | @nested v entries i name q above properties here ih =>
    cases hw with
    | top here' =>
      obtain ⟨none, -⟩ := @PropertyPath.concat_inj _ [] _ _ same
      exact absurd none above.segments_ne_nil
    | @nested w entries' j name' q' above' properties' here' =>
      obtain ⟨names, rfl⟩ := PropertyPath.concat_inj same
      obtain rfl := ih above' (congrArg PropertyPath.mk names)
      rw [properties] at properties'
      cases properties'
      obtain ⟨distinctNames, -⟩ := above.distinctNames distinct
      obtain rfl := index_eq_of_nodup (distinctNames properties) here here' rfl
      rw [here] at here'
      cases here'
      rfl

theorem Contains.eq_of_text_eq (distinct : schema.DistinctNames) (pointFree : schema.PointFreeNames)
    (apart : (schema.properties.map fun entry => Text.trim entry.1).Nodup)
    (hv : schema.Contains v) (hw : schema.Contains w) (same : v.path.text = w.path.text) :
    v = w := by
  apply hv.eq_of_path_eq distinct apart hw
  exact PropertyPath.text_inj hv.segments_ne_nil hw.segments_ne_nil (hv.pointFree pointFree)
    (hw.pointFree pointFree) same

/-! ### Places that are looked at -/

theorem exists_of_mem_placesBelow {listing : Listing} {path : PropertyPath} {index : Nat}
    {entries : List (String × Property)} (member : v ∈ placesBelow listing path index entries) :
    ∃ (i : Nat) (name : String) (p : Property) (w : Place), entries[i]? = some (name, p) ∧
      w ∈ p.places listing ⟨path.segments ++ [name]⟩ ∧ v = w.under (index + i) := by
  induction entries generalizing index with
  | nil =>
    rw [placesBelow] at member
    cases member
  | cons entry rest ih =>
    obtain ⟨name, p⟩ := entry
    rw [placesBelow] at member
    rcases List.mem_append.mp member with first | later
    · obtain ⟨w, listed, rfl⟩ := List.mem_map.mp first
      exact ⟨0, name, p, w, rfl, listed, rfl⟩
    · obtain ⟨i, name', p', w, here, listed, rfl⟩ := ih later
      refine ⟨i + 1, name', p', w, here, listed, ?_⟩
      rw [Nat.add_assoc, Nat.add_comm 1 i]

theorem Contains.of_mem_places {position : List Nat} {path : PropertyPath} {p : Property}
    (h : schema.Contains ⟨position, path, p⟩) (member : v ∈ p.places .parentFirst path) :
    schema.Contains ⟨position ++ v.position, v.path, v.property⟩ := by
  induction p using Property.opened_induction generalizing position path v with
  | step p ih =>
    rw [Property.places_eq, Listing.around] at member
    rcases List.mem_cons.mp member with rfl | deeper
    · rw [List.append_nil]
      exact h
    · obtain ⟨i, name, q, w, here, listed, rfl⟩ := exists_of_mem_placesBelow deeper
      have opened := List.mem_of_getElem? here
      obtain ⟨isObject, entries, properties, -⟩ := Property.mem_opened_iff.mp opened
      have all : p.opened = entries := by
        rw [Property.opened, if_pos isObject, properties, Option.getD_some]
      rw [all] at here
      have below := ih (name, q) opened (h.nested properties here) listed
      rw [List.append_assoc] at below
      rw [Nat.zero_add]
      exact below

theorem contains_of_mem_places (member : v ∈ schema.places .parentFirst) : schema.Contains v := by
  obtain ⟨i, name, p, w, here, listed, rfl⟩ := exists_of_mem_placesBelow member
  rw [List.getElem?_map, Option.map_eq_some_iff] at here
  obtain ⟨⟨key, q⟩, here, same⟩ := here
  cases same
  rw [Nat.zero_add]
  exact Contains.of_mem_places (.top here) listed

end Schema

theorem TypeDecl.Offends.path_eq {decl : TypeDecl} {path : PropertyPath} {e : GenerationError}
    (h : decl.Offends path e) : e.path = path := by
  cases h <;> rfl

theorem exists_place_of_generate_eq_error {name : String} {schema : Schema} {e : GenerationError}
    (h : generate name schema = .error e) :
    ∃ v ∈ schema.places .parentFirst, v.property.type.Offends v.path e := by
  obtain ⟨path, p, reached, offends⟩ := exists_reached_of_generate_eq_error h
  obtain ⟨v, listed, rfl, rfl⟩ := Schema.reaches_iff_mem_places.mp reached
  exact ⟨v, listed, offends⟩

/-- Where no name has a point inside and no two at the top differ in blanks around them only, the
text of a path tells which property of the schema it leads to, also among those that are not looked
at. So the text in an error tells which property is at fault. -/
theorem path_text_identifies_property (schema : Schema) (distinct : schema.DistinctNames)
    (pointFree : schema.PointFreeNames)
    (apart : (schema.properties.map fun entry => Text.trim entry.1).Nodup) :
    (∀ v ∈ schema.places .parentFirst, schema.Contains v) ∧
    (∀ v w, schema.Contains v → schema.Contains w → v.position ≠ w.position →
      v.path.text ≠ w.path.text) ∧
    (∀ path path' : PropertyPath, path.segments ≠ [] → path'.segments ≠ [] →
      PointFree path.segments → PointFree path'.segments → path.text = path'.text →
      path = path') ∧
    ∀ name e, generate name schema = .error e → ∃ v, schema.Contains v ∧
      v.property.type.Offends v.path e ∧ e.path = v.path ∧
      ∀ w, schema.Contains w → w.path.text = e.path.text → w = v := by
  refine ⟨fun v => Schema.contains_of_mem_places, ?_, ?_, ?_⟩
  · intro v w hv hw positions same
    exact positions (congrArg Place.position (hv.eq_of_text_eq distinct pointFree apart hw same))
  · intro path path' started started' inside inside' same
    exact PropertyPath.text_inj started started' inside inside' same
  · intro name e failed
    obtain ⟨v, listed, offends⟩ := exists_place_of_generate_eq_error failed
    have hv := Schema.contains_of_mem_places listed
    refine ⟨v, hv, offends, offends.path_eq, ?_⟩
    intro w hw same
    rw [offends.path_eq] at same
    exact hw.eq_of_text_eq distinct pointFree apart hv same

def textLeaf : Property := Property.ofType (.ofTag .string)

/-- Empty names and names that look like the path of the whole, below an object and below a text. -/
def rootLookalikes : Schema :=
  ⟨"object", [
    (" <root> ", { Property.ofType (.ofTag .object) with
      properties := some [("", textLeaf), ("<root>", Property.ofType (.single "array"))] }),
    ("", { textLeaf with properties := some [("", textLeaf)] })], none⟩

theorem distinctNames_rootLookalikes : rootLookalikes.DistinctNames :=
  Schema.distinctNames_of_ofValue (v := rootLookalikes.toJson) (by rfl)

theorem pointFreeNames_rootLookalikes : rootLookalikes.PointFreeNames := by
  have leaf (type : TypeDecl) : (Property.ofType type).PointFreeNames := .intro nofun nofun
  refine ⟨by decide, List.forall_mem_cons.mpr ⟨?_, List.forall_mem_singleton.mpr ?_⟩⟩
  · refine .intro (by rintro _ ⟨⟩; decide) ?_
    rintro _ ⟨⟩
    exact List.forall_mem_cons.mpr ⟨leaf _, List.forall_mem_singleton.mpr (leaf _)⟩
  · refine .intro (by rintro _ ⟨⟩; decide) ?_
    rintro _ ⟨⟩
    exact List.forall_mem_singleton.mpr (leaf _)

theorem path_text_identifies_property_lookalikes :
    (∃ v w, rootLookalikes.Contains v ∧ rootLookalikes.Contains w ∧
      v.position = [0, 0] ∧ w.position = [1, 0] ∧ v.path.text = "<root>." ∧ w.path.text = "." ∧
      v.path.text ≠ w.path.text) ∧
    ∃ e v, generate "Page" rootLookalikes = .error e ∧ e.path.text = "<root>.<root>" ∧
      rootLookalikes.Contains v ∧ v.property.type.Offends v.path e ∧
      ∀ w, rootLookalikes.Contains w → w.path.text = "<root>.<root>" → w = v := by
  obtain ⟨-, apart, -, blamed⟩ := path_text_identifies_property rootLookalikes
    distinctNames_rootLookalikes pointFreeNames_rootLookalikes (by decide)
  have inObject := Schema.Contains.nested (i := 0) (@Schema.Contains.top rootLookalikes 0 _ _ rfl)
    rfl rfl
  have inText := Schema.Contains.nested (i := 0) (@Schema.Contains.top rootLookalikes 1 _ _ rfl)
    rfl rfl
  constructor
  · exact ⟨_, _, inObject, inText, rfl, rfl, by decide, by decide,
      apart _ _ inObject inText (by decide)⟩
  · obtain ⟨v, contained, offends, -, unique⟩ := blamed "Page" _ rfl
    exact ⟨_, v, rfl, by decide, contained, offends, unique⟩

end InterfaceGen
