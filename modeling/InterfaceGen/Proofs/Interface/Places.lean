import Mathlib.Data.List.Basic
import InterfaceGen.Proofs.Interface.Reachable

/-!
# Places in a schema

A property stands in a schema at a position: at each level on the way to it, how many properties
come before. Two properties may have the same path, since names at the top are trimmed, but never
the same position. What is reached can be listed with each property before or after those below it;
the first order is the lexicographic one of the positions.
-/

namespace InterfaceGen

structure Place where
  position : List Nat
  path : PropertyPath
  property : Property

/-- The same place from one level further up. -/
def Place.under (index : Nat) (v : Place) : Place := { v with position := index :: v.position }

/-- Whether a property is listed before or after those below it. -/
inductive Listing
  | parentFirst
  | parentLast

def Listing.around (listing : Listing) (v : Place) (below : List Place) : List Place :=
  match listing with
  | .parentFirst => v :: below
  | .parentLast => below ++ [v]

mutual

def Property.places (listing : Listing) (path : PropertyPath) : Property → List Place
  | ⟨title, type, enumValues, properties, required, foreignKey, foreignKeyType⟩ =>
    listing.around
      ⟨[], path, ⟨title, type, enumValues, properties, required, foreignKey, foreignKeyType⟩⟩
      (match properties with
      | none => []
      | some entries => if type.IsObject then placesBelow listing path 0 entries else [])

def placesBelow (listing : Listing) (path : PropertyPath) (index : Nat) :
    List (String × Property) → List Place
  | [] => []
  | (name, p) :: rest =>
    (p.places listing ⟨path.segments ++ [name]⟩).map (Place.under index) ++
      placesBelow listing path (index + 1) rest

end

/-- What is reached in a schema, in document order on every level. -/
def Schema.places (schema : Schema) (listing : Listing) : List Place :=
  placesBelow listing ⟨[]⟩ 0 (schema.properties.map fun entry => (Text.trim entry.1, entry.2))

theorem Property.places_eq (p : Property) (listing : Listing) (path : PropertyPath) :
    p.places listing path = listing.around ⟨[], path, p⟩ (placesBelow listing path 0 p.opened) := by
  obtain ⟨title, type, enumValues, properties, required, foreignKey, foreignKeyType⟩ := p
  rw [places.eq_def]
  dsimp only [opened]
  cases properties with
  | none => simp [placesBelow]
  | some entries => by_cases h : type.IsObject <;> simp [h, placesBelow]

theorem Listing.around_perm (v : Place) (below : List Place) :
    (Listing.parentLast.around v below).Perm (Listing.parentFirst.around v below) :=
  List.perm_append_singleton v below

/-! ### Both orders list the same places -/

theorem placesBelow_perm {path : PropertyPath} {entries : List (String × Property)}
    (h : ∀ entry ∈ entries, ∀ path,
      (entry.2.places .parentLast path).Perm (entry.2.places .parentFirst path))
    (index : Nat) :
    (placesBelow .parentLast path index entries).Perm
      (placesBelow .parentFirst path index entries) := by
  induction entries generalizing index with
  | nil => rw [placesBelow, placesBelow]
  | cons entry rest ih =>
    obtain ⟨name, p⟩ := entry
    rw [placesBelow, placesBelow]
    refine .append ((h (name, p) List.mem_cons_self _).map _) (ih ?_ (index + 1))
    exact fun other later => h other (List.mem_cons_of_mem _ later)

theorem Property.places_perm (p : Property) (path : PropertyPath) :
    (p.places .parentLast path).Perm (p.places .parentFirst path) := by
  induction p using opened_induction generalizing path with
  | step p ih =>
    rw [places_eq, places_eq]
    refine (Listing.around_perm _ _).trans (.cons _ ?_)
    exact placesBelow_perm (fun entry member path => ih entry member path) 0

theorem Schema.places_perm (schema : Schema) :
    (schema.places .parentLast).Perm (schema.places .parentFirst) :=
  placesBelow_perm (fun entry _ => entry.2.places_perm) 0

/-! ### What is reached -/

theorem map_under_map (index : Nat) (places : List Place) :
    (places.map (Place.under index)).map (fun v => (v.path, v.property)) =
      places.map fun v => (v.path, v.property) :=
  List.map_map

theorem map_placesBelow {path : PropertyPath} {entries : List (String × Property)}
    (h : ∀ entry ∈ entries, ∀ path,
      (entry.2.places .parentFirst path).map (fun v => (v.path, v.property)) = entry.2.visits path)
    (index : Nat) :
    (placesBelow .parentFirst path index entries).map (fun v => (v.path, v.property)) =
      entries.flatMap fun entry => entry.2.visits ⟨path.segments ++ [entry.1]⟩ := by
  induction entries generalizing index with
  | nil => rw [placesBelow, List.map_nil, List.flatMap_nil]
  | cons entry rest ih =>
    obtain ⟨name, p⟩ := entry
    rw [placesBelow, List.map_append, map_under_map, List.flatMap_cons,
      h (name, p) List.mem_cons_self, ih fun other later => h other (List.mem_cons_of_mem _ later)]

theorem Property.map_places (p : Property) (path : PropertyPath) :
    (p.places .parentFirst path).map (fun v => (v.path, v.property)) = p.visits path := by
  induction p using opened_induction generalizing path with
  | step p ih =>
    rw [places_eq, visits_eq, Listing.around, List.map_cons,
      map_placesBelow (fun entry member path => ih entry member path)]

theorem Schema.map_places (schema : Schema) :
    (schema.places .parentFirst).map (fun v => (v.path, v.property)) = schema.visits := by
  unfold places visits
  rw [map_placesBelow fun entry _ => entry.2.map_places, List.flatMap_map]
  rfl

theorem Schema.reaches_iff_mem_places {schema : Schema} {path : PropertyPath} {p : Property} :
    schema.Reaches path p ↔ ∃ v ∈ schema.places .parentFirst, v.path = path ∧ v.property = p := by
  rw [reaches_iff_mem_visits, ← schema.map_places, List.mem_map]
  simp only [Prod.mk.injEq]

/-! ### Positions -/

theorem exists_position_of_mem_placesBelow {listing : Listing} {path : PropertyPath} {index : Nat}
    {entries : List (String × Property)} {v : Place}
    (member : v ∈ placesBelow listing path index entries) :
    ∃ i rest, v.position = i :: rest ∧ index ≤ i := by
  induction entries generalizing index with
  | nil =>
    rw [placesBelow] at member
    cases member
  | cons entry rest ih =>
    obtain ⟨name, p⟩ := entry
    rw [placesBelow] at member
    rcases List.mem_append.mp member with here | later
    · obtain ⟨w, -, rfl⟩ := List.mem_map.mp here
      exact ⟨index, w.position, rfl, Nat.le_refl _⟩
    · obtain ⟨i, tail, same, le⟩ := ih later
      exact ⟨i, tail, same, Nat.le_of_succ_le le⟩

theorem pairwise_placesBelow {path : PropertyPath} {entries : List (String × Property)}
    (h : ∀ entry ∈ entries, ∀ path,
      (entry.2.places .parentFirst path).Pairwise fun v w => v.position < w.position)
    (index : Nat) :
    (placesBelow .parentFirst path index entries).Pairwise fun v w => v.position < w.position := by
  induction entries generalizing index with
  | nil =>
    rw [placesBelow]
    exact .nil
  | cons entry rest ih =>
    obtain ⟨name, p⟩ := entry
    rw [placesBelow, List.pairwise_append, List.pairwise_map]
    refine ⟨(h (name, p) List.mem_cons_self _).imp fun {v w} earlier => ?_,
      ih (fun other later => h other (List.mem_cons_of_mem _ later)) (index + 1), ?_⟩
    · exact List.cons_lt_cons_iff.mpr (.inr ⟨rfl, earlier⟩)
    · intro v here w later
      obtain ⟨v, -, rfl⟩ := List.mem_map.mp here
      obtain ⟨i, tail, same, le⟩ := exists_position_of_mem_placesBelow later
      rw [same]
      exact List.cons_lt_cons_iff.mpr (.inl le)

theorem Property.pairwise_places (p : Property) (path : PropertyPath) :
    (p.places .parentFirst path).Pairwise fun v w => v.position < w.position := by
  induction p using opened_induction generalizing path with
  | step p ih =>
    rw [places_eq, Listing.around, List.pairwise_cons]
    constructor
    · intro v member
      obtain ⟨i, tail, same, -⟩ := exists_position_of_mem_placesBelow member
      rw [same]
      exact List.nil_lt_cons i tail
    · exact pairwise_placesBelow (fun entry member path => ih entry member path) 0

theorem Schema.pairwise_places (schema : Schema) :
    (schema.places .parentFirst).Pairwise fun v w => v.position < w.position :=
  pairwise_placesBelow (fun entry _ => entry.2.pairwise_places) 0

end InterfaceGen
