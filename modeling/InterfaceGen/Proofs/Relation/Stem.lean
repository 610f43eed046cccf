import Mathlib.Algebra.GroupWithZero.Nat
import Mathlib.Data.List.Basic
import InterfaceGen.Relation.Field

/-!
# The names of relations

The offset at which a key is cut is where its last character but one begins, so the cut never falls
inside a character. A relation has the name of its property just if the key is too short to be cut
and is not made plural.
-/

namespace InterfaceGen

namespace Text

theorem offsets_append (start : Nat) (front back : List Char) :
    offsets start (front ++ back) =
      offsets start front ++ offsets (start + (front.map Char.utf8Size).sum) back := by
  induction front generalizing start with
  | nil => rfl
  | cons c rest ih =>
    rw [List.cons_append, offsets, ih, List.map_cons, List.sum_cons, offsets, List.cons_append,
      Nat.add_assoc]

theorem sum_utf8Size_pos_iff {cs : List Char} : 0 < (cs.map Char.utf8Size).sum ↔ cs ≠ [] := by
  cases cs with
  | nil => simp
  | cons c rest => simpa using Nat.add_pos_left c.utf8Size_pos _

theorem before?_append (front back : List Char) :
    before? (front.map Char.utf8Size).sum (front ++ back) = some front := by
  induction front with
  | nil => cases back <;> rfl
  | cons c rest ih =>
    have positive : 0 < ((c :: rest).map Char.utf8Size).sum := sum_utf8Size_pos_iff.mpr nofun
    obtain ⟨n, size⟩ := Nat.exists_eq_add_one.mpr positive
    have left : n + 1 - c.utf8Size = (rest.map Char.utf8Size).sum := by
      rw [← size, List.map_cons, List.sum_cons, Nat.add_sub_cancel_left]
    have fits : c.utf8Size ≤ n + 1 := by
      rw [← size, List.map_cons, List.sum_cons]
      exact Nat.le_add_right _ _
    rw [size, List.cons_append, before?, if_pos fits, left, ih, Option.map_some]

theorem utf8ByteSize_ofList (cs : List Char) :
    (String.ofList cs).utf8ByteSize = (cs.map Char.utf8Size).sum := by
  induction cs with
  | nil => rfl
  | cons c rest ih =>
    rw [List.map_cons, List.sum_cons, ← ih, String.ofList_cons, String.utf8ByteSize_append,
      String.utf8ByteSize_singleton]

theorem exists_append_of_mem_offsets {start offset : Nat} {cs : List Char} {c : Char}
    (h : (offset, c) ∈ offsets start cs) : ∃ front back, cs = front ++ c :: back ∧
      offset = start + (front.map Char.utf8Size).sum := by
  induction cs generalizing start with
  | nil => cases h
  | cons d rest ih =>
    rw [offsets, List.mem_cons] at h
    rcases h with here | later
    · cases here
      exact ⟨[], rest, rfl, rfl⟩
    · obtain ⟨front, back, rfl, sum⟩ := ih later
      refine ⟨d :: front, back, rfl, ?_⟩
      rw [sum, List.map_cons, List.sum_cons, Nat.add_assoc]

/-- A text can be cut where a character begins, and what is before the cut are its first bytes. -/
theorem cut_of_mem_offsets {s : String} {offset : Nat} {c : Char}
    (h : (offset, c) ∈ offsets 0 s.toList) :
    String.Pos.Raw.IsValid s ⟨offset⟩ ∧ ∃ front : String,
      before? offset s.toList = some front.toList ∧
        front.toByteArray = s.toByteArray.extract 0 offset := by
  obtain ⟨front, back, chars, sum⟩ := exists_append_of_mem_offsets h
  rw [Nat.zero_add, ← utf8ByteSize_ofList] at sum
  have parts : s = String.ofList front ++ String.ofList (c :: back) := by
    rw [← String.ofList_append, ← chars, String.ofList_toList]
  refine ⟨?_, String.ofList front, ?_, ?_⟩
  · rw [String.Pos.Raw.isValid_iff_exists_append]
    exact ⟨_, _, parts, congrArg _ sum⟩
  · rw [chars, sum, utf8ByteSize_ofList, before?_append, String.toList_ofList]
  · rw [sum, ← String.size_toByteArray, parts, String.toByteArray_append,
      ByteArray.extract_append_eq_left rfl]

end Text

namespace Relation

/-- A key of three characters or more loses the last two. -/
def stem (key : List Char) : List Char :=
  if key.length ≤ 2 then key else key.take (key.length - 2)

theorem stem?_eq_stem (key : String) : stem? key = some (stem key.toList) := by
  unfold stem? stem
  -- The cases follow the last two characters.
  rcases List.eq_nil_or_concat key.toList with empty | ⟨front, last, chars⟩
  · rw [empty]
    rfl
  rw [List.concat_eq_append] at chars
  rcases List.eq_nil_or_concat front with rfl | ⟨init, second, rfl⟩
  · rw [chars]
    rfl
  rw [List.concat_eq_append, List.append_assoc] at chars
  have found : (Text.offsets 0 key.toList).reverse[1]? =
      some ((init.map Char.utf8Size).sum, second) := by
    rw [chars, Text.offsets_append, Nat.zero_add, List.reverse_append]
    rfl
  rw [found]
  dsimp only
  rw [chars]
  by_cases short : init = []
  · subst short
    rfl
  · have long : ¬ (init ++ ([second] ++ [last])).length ≤ 2 := by
      have := List.length_pos_iff.mpr short
      simp only [List.length_append, List.length_cons, List.length_nil]
      omega
    rw [if_pos (Text.sum_utf8Size_pos_iff.mpr short), if_neg long, Text.before?_append,
      List.length_append]
    exact congrArg some List.take_left.symm

theorem nameFor_eq (key : String) (kind : Cardinality) :
    nameFor key kind = String.ofList (pluralize kind (stem key.toList)) := by
  rw [nameFor, stem?_eq_stem]
  rfl

theorem length_pluralize_le (kind : Cardinality) (cs : List Char) :
    (pluralize kind cs).length ≤ cs.length + 1 := by
  unfold pluralize
  split
  · exact Nat.le_of_eq List.length_append
  · exact Nat.le_succ _

theorem pluralize_eq_self_iff {kind : Cardinality} {cs : List Char} :
    pluralize kind cs = cs ↔ (kind = .oneToMany → cs.getLast? = some 's') := by
  unfold pluralize
  split
  next plural =>
    have longer : cs ++ ['s'] ≠ cs := by simp
    exact iff_of_false longer fun singular => plural.2 (singular plural.1)
  next singular =>
    exact iff_of_true rfl fun many => Decidable.of_not_not fun last => singular ⟨many, last⟩

theorem nameFor_eq_self_iff {key : String} {kind : Cardinality} : nameFor key kind = key ↔
    key.toList.length ≤ 2 ∧ (kind = .oneToMany → key.toList.getLast? = some 's') := by
  rw [nameFor_eq, ← String.toList_inj, String.toList_ofList]
  by_cases short : key.toList.length ≤ 2
  · rw [stem, if_pos short, pluralize_eq_self_iff, and_iff_right short]
  · refine iff_of_false (fun same => ?_) fun both => short both.1
    have longer := length_pluralize_le kind (stem key.toList)
    rw [same, stem, if_neg short, List.length_take] at longer
    omega

theorem exists_stem_append {key : List Char} (h : 3 ≤ key.length) :
    ∃ a b, key = stem key ++ [a, b] := by
  have last : (key.drop (key.length - 2)).length = 2 := by
    rw [List.length_drop]
    omega
  obtain ⟨a, b, ends⟩ := List.length_eq_two.mp last
  refine ⟨a, b, ?_⟩
  rw [stem, if_neg (by omega), ← ends, List.take_append_drop]

theorem ofList_pluralize (kind : Cardinality) (cs : List Char) :
    String.ofList (pluralize kind cs) =
      if kind = .oneToMany ∧ ¬ ['s'] <:+ cs then String.ofList cs ++ "s" else String.ofList cs := by
  have ends : cs.getLast? = some 's' ↔ ['s'] <:+ cs := by
    rw [List.getLast?_eq_some_iff]
    exact exists_congr fun _ => eq_comm
  rw [pluralize, apply_ite String.ofList, String.ofList_append]
  simp only [ne_eq, ends]

/-- The name of a relation is that of its property without the last two characters, if there are
three or more, and plural if the relation is to many objects; so it is another one. The bytes are
counted to where a character begins, and those before it are the text that is left. -/
theorem nameFor_cuts_characters (key : String) (kind : Cardinality) :
    (∀ offset c, (Text.offsets 0 key.toList).reverse[1]? = some (offset, c) →
      String.Pos.Raw.IsValid key ⟨offset⟩ ∧ ∃ front : String,
        Text.before? offset key.toList = some front.toList ∧
          front.toByteArray = key.toByteArray.extract 0 offset) ∧
    (∃ cut : String, stem? key = some cut.toList ∧
      (3 ≤ key.length → ∃ a b, key.toList = cut.toList ++ [a, b]) ∧
      (key.length ≤ 2 → cut = key) ∧
      nameFor key kind =
        if kind = .oneToMany ∧ ¬ ['s'] <:+ cut.toList then cut ++ "s" else cut) ∧
    (3 ≤ key.length → nameFor key kind ≠ key) ∧
    ∀ p required r, ofProperty? key p required = some r → r.fieldName = nameFor key r.kind := by
  refine ⟨?_, ?_, ?_, ?_⟩
  · intro offset c found
    apply Text.cut_of_mem_offsets (c := c)
    rw [← List.mem_reverse]
    exact List.mem_of_getElem? found
  · refine ⟨String.ofList (stem key.toList), ?_, ?_, ?_, ?_⟩
    · rw [stem?_eq_stem, String.toList_ofList]
    · intro long
      rw [String.toList_ofList]
      exact exists_stem_append long
    · intro short
      rw [← String.length_toList] at short
      rw [stem, if_pos short, String.ofList_toList]
    · rw [nameFor_eq, ofList_pluralize, String.toList_ofList]
  · intro long same
    have short := (nameFor_eq_self_iff.mp same).1
    rw [String.length_toList] at short
    omega
  · intro p required r made
    obtain ⟨⟨foreignKey, kind⟩, -, rfl⟩ := Option.map_eq_some_iff.mp made
    rfl

/-- A key of characters of two, four, two and three bytes, of which the last two are cut off. -/
def wideKey : String := "é😀é€"

def wideProperty : Property := (Property.nullable .string).withForeignKey "user" .oneToMany

theorem nameFor_cuts_characters_wide :
    (Text.offsets 0 wideKey.toList).reverse[1]? = some (6, 'é') ∧
    String.Pos.Raw.IsValid wideKey ⟨6⟩ ∧ 3 ≤ wideKey.length ∧
    (∃ cut, stem? wideKey = some cut ∧ ∃ a b, wideKey.toList = cut ++ [a, b]) ∧
    nameFor wideKey .oneToMany ≠ wideKey ∧
    stem? "€😀" = some "€😀".toList ∧
    ∃ r, ofProperty? wideKey wideProperty none = some r ∧
      r.fieldName = nameFor wideKey .oneToMany ∧ r.fieldName = "é😀s" := by
  obtain ⟨boundary, ⟨cut, found, long, -, -⟩, differs, named⟩ :=
    nameFor_cuts_characters wideKey .oneToMany
  obtain ⟨-, ⟨kept, foundShort, -, short, -⟩, -, -⟩ := nameFor_cuts_characters "€😀" .oneToOne
  refine ⟨by decide, (boundary 6 'é' (by decide)).1, by decide, ⟨_, found, long (by decide)⟩,
    differs (by decide), ?_, ⟨_, rfl, named wideProperty none _ rfl, by decide⟩⟩
  rw [foundShort, short (by decide)]

end Relation

end InterfaceGen
