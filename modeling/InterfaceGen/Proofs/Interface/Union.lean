import Mathlib.Data.List.Nodup
import InterfaceGen.Interface.Union

/-!
# Unions of alternatives

Of alternatives with the same text a union keeps the first, whatever their texts are: these may be
empty, hold the separator or spell the null type. So of two lists, one after the other, the second
adds what the first does not have.
-/

namespace InterfaceGen

theorem eraseDups_of_nodup {α : Type} [BEq α] [LawfulBEq α] {l : List α} (h : l.Nodup) :
    l.eraseDups = l := by
  induction l with
  | nil => rfl
  | cons a rest ih =>
    rw [List.nodup_cons] at h
    have others : (rest.filter fun b => !b == a) = rest := by
      rw [List.filter_eq_self]
      intro b member
      have ne : b ≠ a := by
        rintro rfl
        exact h.1 member
      simpa using ne
    rw [List.eraseDups_cons, others, ih h.2]

/-- The alternatives whose text none of those before them has. -/
def added (before alternatives : List (Option String)) : List (Option String) :=
  alternatives.filter fun a => alternativeText a ∉ before.map alternativeText

theorem removeAll_texts (xs ys : List (Option String)) :
    (ys.map alternativeText).removeAll (xs.map alternativeText) =
      (added xs ys).map alternativeText := by
  rw [List.removeAll, List.filter_map, added]
  congr 1
  apply List.filter_congr
  intro y _
  simp only [Function.comp_apply, List.elem_eq_mem, decide_not]

theorem eraseDups_texts_append (xs ys : List (Option String)) :
    ((xs ++ ys).map alternativeText).eraseDups =
      (xs.map alternativeText).eraseDups ++ ((added xs ys).map alternativeText).eraseDups := by
  rw [List.map_append, List.eraseDups_append, removeAll_texts]

theorem eraseDups_texts_ne_nil {xs : List (Option String)} (h : xs ≠ []) :
    (xs.map alternativeText).eraseDups ≠ [] := by
  obtain ⟨x, rest, rfl⟩ := List.exists_cons_of_ne_nil h
  rw [List.map_cons, List.eraseDups_cons]
  exact List.cons_ne_nil _ _

theorem added_eq_nil_iff {xs ys : List (Option String)} :
    added xs ys = [] ↔ ∀ y ∈ ys, alternativeText y ∈ xs.map alternativeText := by
  simp only [added, List.filter_eq_nil_iff, decide_eq_true_eq, not_not]

theorem union_append_of_added_eq_nil {xs ys : List (Option String)} (h : added xs ys = []) :
    union (xs ++ ys) = union xs := by
  rw [union, eraseDups_texts_append, h, List.map_nil, List.eraseDups_nil, List.append_nil]
  rfl

theorem union_append_of_added_ne_nil {xs ys : List (Option String)} (first : xs ≠ [])
    (second : added xs ys ≠ []) :
    union (xs ++ ys) = union xs ++ unionSeparator ++ union (added xs ys) := by
  rw [union, eraseDups_texts_append, String.intercalate_append_of_ne_nil
    (eraseDups_texts_ne_nil first) (eraseDups_texts_ne_nil second)]
  rfl

theorem union_append_cons_of_mem {xs : List (Option String)} {a : Option String}
    (h : alternativeText a ∈ xs.map alternativeText) (ys : List (Option String)) :
    union (xs ++ a :: ys) = union (xs ++ ys) := by
  have dropped : added xs (a :: ys) = added xs ys := by
    rw [added, List.filter_cons_of_neg (by simpa using h), added]
  rw [union, union, eraseDups_texts_append, eraseDups_texts_append, dropped]

theorem union_of_nodup {xs : List (Option String)} (h : (xs.map alternativeText).Nodup) :
    union xs = unionSeparator.intercalate (xs.map alternativeText) := by
  rw [union, eraseDups_of_nodup h]

/-- To alternatives in a union those after them are added that have a new text, in their order; if
all texts are different, all are joined as they stand. So a further copy of an alternative makes no
difference, also if the null type is spelled out in one place and left out in the other. -/
theorem union_keeps_first_of_each_text (xs ys : List (Option String)) :
    (xs ≠ [] → union (xs ++ ys) =
      if ∀ y ∈ ys, alternativeText y ∈ xs.map alternativeText then union xs
      else union xs ++ " | " ++ union (added xs ys)) ∧
    ((xs.map alternativeText).Nodup →
      union xs = " | ".intercalate (xs.map alternativeText)) ∧
    ∀ a ∈ xs, ∀ b, b.getD "null" = a.getD "null" → union (xs ++ b :: ys) = union (xs ++ ys) := by
  refine ⟨?_, union_of_nodup, ?_⟩
  · intro first
    split
    next all => exact union_append_of_added_eq_nil (added_eq_nil_iff.mpr all)
    next new => exact union_append_of_added_ne_nil first (mt added_eq_nil_iff.mp new)
  · intro a member b same
    apply union_append_cons_of_mem
    exact List.mem_map.mpr ⟨a, member, same.symm⟩

theorem union_keeps_first_of_each_text_separators :
    union ([some "a | b", none, some ""] ++ [some "null", some "c", some "", none, some "c"]) =
        union [some "a | b", none, some ""] ++ " | " ++ union [some "c", some "c"] ∧
      union [some "a | b", none, some ""] = "a | b | null | " ∧
      union ([some "a | b", none, some ""] ++ some "null" :: [some "c"]) =
        union ([some "a | b", none, some ""] ++ [some "c"]) := by
  obtain ⟨-, plain, again⟩ := union_keeps_first_of_each_text [some "a | b", none, some ""]
    [some "c"]
  have appended := (union_keeps_first_of_each_text [some "a | b", none, some ""]
    [some "null", some "c", some "", none, some "c"]).1 (List.cons_ne_nil _ _)
  rw [if_neg (by decide)] at appended
  exact ⟨appended, (plain (by decide)).trans (by decide), again none (by decide) (some "null") rfl⟩

end InterfaceGen
