import InterfaceGen.Proofs.Text.UpperCase
import InterfaceGen.Relation.Field

/-!
# Names of related types

The type name of a foreign key is made of its words, and hyphens only tell where a word begins. A
name that has been made has one word at most, which is capitalized already.
-/

namespace InterfaceGen

theorem joinWords_append_hyphen (start : Bool) (a b : List Char) :
    joinWords start (a ++ '-' :: b) = joinWords start a ++ joinWords true b := by
  induction a generalizing start with
  | nil => rfl
  | cons c rest ih =>
    rw [List.cons_append, joinWords, joinWords]
    split
    · exact ih true
    · split
      · rw [ih, List.append_assoc]
      · rw [ih, List.cons_append]

theorem hyphen_not_mem_joinWords (start : Bool) (s : List Char) : '-' ∉ joinWords start s := by
  induction s generalizing start with
  | nil => nofun
  | cons c rest ih =>
    rw [joinWords]
    split
    · exact ih true
    next other =>
      split
      · rw [List.mem_append, not_or]
        exact ⟨Text.hyphen_not_mem_upperForm other, ih false⟩
      · rw [List.mem_cons, not_or]
        exact ⟨Ne.symm other, ih false⟩

theorem joinWords_eq_nil_iff {start : Bool} {s : List Char} :
    joinWords start s = [] ↔ ∀ c ∈ s, c = '-' := by
  induction s generalizing start with
  | nil => simp [joinWords]
  | cons c rest ih =>
    rw [joinWords, List.forall_mem_cons]
    split
    next hyphen => rw [ih, and_iff_right hyphen]
    next other =>
      refine iff_of_false ?_ fun all => other all.1
      split
      · exact List.append_ne_nil_of_left_ne_nil (Text.upperForm_ne_nil c) _
      · nofun

/-- Within a word nothing is changed. -/
theorem joinWords_false_of_not_mem {s : List Char} (h : '-' ∉ s) : joinWords false s = s := by
  induction s with
  | nil => rfl
  | cons c rest ih =>
    rw [List.mem_cons, not_or] at h
    rw [joinWords, if_neg (Ne.symm h.1), if_neg Bool.false_ne_true, ih h.2]

/-- The first character of a name is capitalized. -/
theorem upperForm_of_joinWords {s t : List Char} {c : Char} (h : joinWords true s = c :: t) :
    Text.upperForm c = [c] := by
  induction s with
  | nil => cases h
  | cons d rest ih =>
    rw [joinWords] at h
    split at h
    · exact ih h
    · rw [if_pos rfl] at h
      obtain ⟨e, form, same⟩ := List.exists_cons_of_ne_nil (Text.upperForm_ne_nil d)
      rw [same, List.cons_append] at h
      cases h
      exact Text.upperForm_of_mem (c := d) (by rw [same]; exact List.mem_cons_self)

theorem joinWords_joinWords (s : List Char) :
    joinWords true (joinWords true s) = joinWords true s := by
  have noHyphen := hyphen_not_mem_joinWords true s
  cases name : joinWords true s with
  | nil => rfl
  | cons c rest =>
    rw [name, List.mem_cons, not_or] at noHyphen
    rw [joinWords, if_neg (Ne.symm noHyphen.1), if_pos rfl, upperForm_of_joinWords name,
      joinWords_false_of_not_mem noHyphen.2]
    rfl

theorem relatedTypeName_append_hyphen (a b : String) :
    relatedTypeName (a ++ "-" ++ b) = relatedTypeName a ++ relatedTypeName b := by
  have joined : (a ++ "-" ++ b).toList = a.toList ++ '-' :: b.toList := by
    simp [String.toList_append]
  rw [relatedTypeName, joined, joinWords_append_hyphen, String.ofList_append]
  rfl

/-- To join two foreign keys by a hyphen is to join their type names; hyphens leave no trace in a
name, which is empty only if there was nothing else, and a name is its own type name. -/
theorem relatedTypeName_forgets_hyphens (a b : String) :
    relatedTypeName (a ++ "-" ++ b) = relatedTypeName a ++ relatedTypeName b ∧
    relatedTypeName ("-" ++ a) = relatedTypeName a ∧
    relatedTypeName (a ++ "-") = relatedTypeName a ∧
    relatedTypeName (a ++ "--" ++ b) = relatedTypeName (a ++ "-" ++ b) ∧
    '-' ∉ (relatedTypeName a).toList ∧
    (relatedTypeName a = "" ↔ ∀ c ∈ a.toList, c = '-') ∧
    relatedTypeName (relatedTypeName a) = relatedTypeName a := by
  have empty : relatedTypeName "" = "" := rfl
  refine ⟨relatedTypeName_append_hyphen a b, ?_, ?_, ?_, ?_, ?_, ?_⟩
  · have leading := relatedTypeName_append_hyphen "" a
    rwa [empty, String.empty_append, String.empty_append] at leading
  · have trailing := relatedTypeName_append_hyphen a ""
    rwa [empty, String.append_empty, String.append_empty] at trailing
  · have repeated : a ++ "--" ++ b = a ++ "-" ++ ("" ++ "-" ++ b) := by
      rw [← String.toList_inj]
      simp [String.toList_append]
    rw [repeated, relatedTypeName_append_hyphen, relatedTypeName_append_hyphen, empty,
      String.empty_append, relatedTypeName_append_hyphen]
  · rw [relatedTypeName, String.toList_ofList]
    exact hyphen_not_mem_joinWords true a.toList
  · rw [relatedTypeName, ← String.toList_inj, String.toList_ofList]
    exact joinWords_eq_nil_iff
  · rw [relatedTypeName, relatedTypeName, String.toList_ofList, joinWords_joinWords]

/-- The sharp s becomes two letters, and a ligature two capitals and not a title-case one. -/
example : relatedTypeName "ßen-ǆ--" = "SSenǄ" := by decide

end InterfaceGen
