import Mathlib.Data.List.Forall2

/-!
# Computations that may fail

Where a result that is no error comes from, and what the error is that ends a pass over a list of
items.
-/

namespace InterfaceGen

variable {ε ε' α β : Type}

theorem except_map_eq_ok_iff {x : Except ε α} {f : α → β} {b : β} :
    x.map f = .ok b ↔ ∃ a, x = .ok a ∧ f a = b := by
  cases x <;> simp [Except.map]

theorem except_map_map {γ : Type} (x : Except ε α) (f : α → β) (g : β → γ) :
    (x.map f).map g = x.map (g ∘ f) := by
  cases x <;> rfl

theorem mapError_eq_ok_iff {x : Except ε α} {f : ε → ε'} {a : α} :
    x.mapError f = .ok a ↔ x = .ok a := by
  cases x <;> simp [Except.mapError]

theorem except_bind_eq_ok_iff {x : Except ε α} {f : α → Except ε β} {b : β} :
    x >>= f = .ok b ↔ ∃ a, x = .ok a ∧ f a = .ok b := by
  cases x with
  | error e => exact ⟨nofun, fun ⟨_, same, _⟩ => by cases same⟩
  | ok a => exact ⟨fun h => ⟨a, rfl, h⟩, fun ⟨_, same, h⟩ => by cases same; exact h⟩

variable {f : α → Except ε β} {items : List α}

/-- The first error on the way through the items. -/
def StopsWith (f : α → Except ε β) (items : List α) (e : ε) : Prop :=
  ∃ before a after, items = before ++ a :: after ∧ (∀ b ∈ before, ∃ r, f b = .ok r) ∧ f a = .error e

theorem mapM_eq_ok_iff {results : List β} :
    items.mapM f = .ok results ↔ List.Forall₂ (fun a b => f a = .ok b) items results := by
  induction items generalizing results with
  | nil =>
    rw [List.mapM_nil, List.forall₂_nil_left_iff]
    exact ⟨fun h => (Except.ok.inj h).symm, fun h => h ▸ rfl⟩
  | cons a rest ih =>
    rw [List.mapM_cons, List.forall₂_cons_left_iff]
    simp only [except_bind_eq_ok_iff, ih]
    constructor
    · rintro ⟨b, first, results, others, h⟩
      exact ⟨b, results, first, others, (Except.ok.inj h).symm⟩
    · rintro ⟨b, results, first, others, rfl⟩
      exact ⟨b, first, results, others, rfl⟩

theorem exists_mapM_eq_ok_iff : (∃ results, items.mapM f = .ok results) ↔
    ∀ a ∈ items, ∃ r, f a = .ok r := by
  simp only [mapM_eq_ok_iff]
  induction items with
  | nil => exact ⟨fun _ => nofun, fun _ => ⟨[], .nil⟩⟩
  | cons a rest ih =>
    rw [List.forall_mem_cons, ← ih]
    constructor
    · rintro ⟨_, _ | ⟨first, others⟩⟩
      exact ⟨⟨_, first⟩, _, others⟩
    · rintro ⟨⟨_, first⟩, _, others⟩
      exact ⟨_, .cons first others⟩

theorem stopsWith_of_mapM_eq_error {e : ε} (h : items.mapM f = .error e) : StopsWith f items e := by
  induction items with
  | nil => cases h
  | cons a rest ih =>
    rw [List.mapM_cons] at h
    cases first : f a with
    | error e' =>
      rw [first] at h
      cases h
      exact ⟨[], a, rest, rfl, nofun, first⟩
    | ok b =>
      rw [first] at h
      cases others : rest.mapM f with
      | ok results =>
        rw [others] at h
        cases h
      | error e' =>
        rw [others] at h
        cases h
        obtain ⟨before, a', after, rfl, fine, stop⟩ := ih others
        exact ⟨a :: before, a', after, rfl, List.forall_mem_cons.mpr ⟨⟨b, first⟩, fine⟩, stop⟩

end InterfaceGen
