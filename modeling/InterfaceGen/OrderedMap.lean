/-!
# Ordered maps

A map with text keys is the list of its entries, in the order in which the keys were first
written. Writing a key again changes its value and keeps its place.
-/

namespace InterfaceGen

/-- The entries of a map, in the order of first writing. -/
abbrev OrderedMap (α : Type) := List (String × α)

namespace OrderedMap

variable {α : Type}

def keys (m : OrderedMap α) : List String := m.map Prod.fst

def find? : OrderedMap α → String → Option α
  | [], _ => none
  | (k, v) :: rest, key => if k = key then some v else find? rest key

def insert : OrderedMap α → String → α → OrderedMap α
  | [], key, value => [(key, value)]
  | (k, v) :: rest, key, value =>
    if k = key then (k, value) :: rest else (k, v) :: insert rest key value

def exchange : OrderedMap α → String → α → Option α × OrderedMap α
  | [], key, value => (none, [(key, value)])
  | (k, v) :: rest, key, value =>
    if k = key then (some v, (k, value) :: rest)
    else
      let (replaced, rest) := exchange rest key value
      (replaced, (k, v) :: rest)

def insertAll (m : OrderedMap α) (entries : List (String × α)) : OrderedMap α :=
  entries.foldl (fun acc entry => insert acc entry.1 entry.2) m

def ofEntries (entries : List (String × α)) : OrderedMap α := insertAll [] entries

@[simp] theorem find?_insert_self (m : OrderedMap α) (key : String) (value : α) :
    find? (insert m key value) key = some value := by
  induction m with
  | nil => simp [insert, find?]
  | cons entry rest ih =>
    by_cases h : entry.1 = key <;> simp [insert, find?, h, ih]

theorem find?_insert_of_ne (m : OrderedMap α) {key other : String} (value : α)
    (h : key ≠ other) : find? (insert m key value) other = find? m other := by
  induction m with
  | nil => simp [insert, find?, h]
  | cons entry rest ih =>
    by_cases hk : entry.1 = key
    · have ho : entry.1 ≠ other := hk ▸ h
      simp [insert, find?, hk, h]
    · by_cases ho : entry.1 = other
      · have hne : ¬other = key := fun e => h e.symm
        simp [insert, find?, ho, hne]
      · simp [insert, find?, hk, ho, ih]

/-- A new key goes to the end, an old one keeps its place. -/
theorem keys_insert (m : OrderedMap α) (key : String) (value : α) :
    keys (insert m key value) = if key ∈ keys m then keys m else keys m ++ [key] := by
  induction m with
  | nil => simp [insert, keys]
  | cons entry rest ih =>
    obtain ⟨k, v⟩ := entry
    by_cases h : k = key
    · simp [insert, keys, h]
    · have hk : key ≠ k := fun e => h e.symm
      simp only [keys] at ih
      simp only [insert, h, keys, if_false, List.map_cons, List.mem_cons, hk, false_or, ih]
      by_cases hm : key ∈ rest.map Prod.fst <;> simp [hm]

end OrderedMap

end InterfaceGen
