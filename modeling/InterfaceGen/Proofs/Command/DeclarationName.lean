import Mathlib.Computability.Language
import Mathlib.Data.Char
import Mathlib.Order.Interval.Set.Defs
import InterfaceGen.Command.Compile
import InterfaceGen.Proofs.Relation.TypeName

/-!
# Valid names of declarations

A name is valid if it is an identifier as a whole. That of a file is made from its stem by dropping
hyphens and writing capitals. For a stem in ASCII neither changes whether a character may stand in
an identifier, or at its start: so the stem without its hyphens tells whether the name is valid.
-/

namespace InterfaceGen.Command

open scoped Computability

/-! ### The pattern of identifiers -/

/-- The texts of one character out of a set. -/
def oneOf (chars : Set Char) : Language Char := {s | ∃ c ∈ chars, s = [c]}

def letters : Set Char := Set.Icc 'A' 'Z' ∪ Set.Icc 'a' 'z' ∪ {'_', '$'}

/-- The texts that match `[A-Za-z_$][A-Za-z0-9_$]*` as a whole. -/
def identifiers : Language Char := oneOf letters * (oneOf (letters ∪ Set.Icc '0' '9'))∗

theorem mem_kstar_oneOf_iff {chars : Set Char} {s : List Char} :
    s ∈ (oneOf chars)∗ ↔ ∀ c ∈ s, c ∈ chars := by
  rw [Language.mem_kstar]
  constructor
  · rintro ⟨pieces, rfl, single⟩ c member
    obtain ⟨piece, listed, inside⟩ := List.mem_flatten.mp member
    obtain ⟨d, allowed, rfl⟩ := single piece listed
    rw [List.mem_singleton.mp inside]
    exact allowed
  · intro allowed
    refine ⟨s.map fun c => [c], ?_, ?_⟩
    · rw [← List.flatMap_def, List.flatMap_singleton']
    · intro piece listed
      obtain ⟨c, member, rfl⟩ := List.mem_map.mp listed
      exact ⟨c, allowed c member, rfl⟩

theorem mem_letters_iff {c : Char} : c ∈ letters ↔ isIdentifierStart c = true := by
  have start : isIdentifierStart c = (decide ('A' ≤ c ∧ c ≤ 'Z') ||
      decide ('a' ≤ c) && decide (c ≤ 'z') || c == '_' || c == '$') := rfl
  simp only [letters, start, Set.mem_union, Set.mem_Icc, Set.mem_insert_iff,
    Set.mem_singleton_iff, Bool.or_eq_true, Bool.and_eq_true, decide_eq_true_eq, beq_iff_eq,
    or_assoc]

theorem mem_letters_or_digits_iff {c : Char} :
    c ∈ letters ∪ Set.Icc '0' '9' ↔ isIdentifierChar c = true := by
  have further : isIdentifierChar c =
      (isIdentifierStart c || decide ('0' ≤ c) && decide (c ≤ '9')) := rfl
  simp only [further, Set.mem_union, mem_letters_iff, Set.mem_Icc, Bool.or_eq_true,
    Bool.and_eq_true, decide_eq_true_eq]

theorem isIdentifier_iff {s : String} : isIdentifier s = true ↔ s.toList ∈ identifiers := by
  rw [identifiers, Language.mem_mul, isIdentifier]
  cases s.toList with
  | nil =>
    refine iff_of_false Bool.false_ne_true ?_
    rintro ⟨_, ⟨c, -, rfl⟩, later, -, same⟩
    cases same
  | cons c rest =>
    simp only [Bool.and_eq_true, List.all_eq_true, ← mem_letters_iff,
      ← mem_letters_or_digits_iff]
    constructor
    · rintro ⟨first, later⟩
      exact ⟨[c], ⟨c, first, rfl⟩, rest, mem_kstar_oneOf_iff.mpr later, rfl⟩
    · rintro ⟨_, ⟨d, first, rfl⟩, others, later, same⟩
      obtain ⟨rfl, rfl⟩ := List.cons.inj same
      exact ⟨first, mem_kstar_oneOf_iff.mp later⟩

theorem nil_not_mem_identifiers : [] ∉ identifiers := by
  intro h
  have valid : isIdentifier "" = true := isIdentifier_iff.mpr h
  exact absurd valid (by decide)

theorem mem_letters_or_digits_of_mem {s : List Char} (h : s ∈ identifiers) :
    ∀ c ∈ s, c ∈ letters ∪ Set.Icc '0' '9' := by
  obtain ⟨_, ⟨d, first, rfl⟩, others, later, rfl⟩ := Language.mem_mul.mp h
  rw [List.singleton_append, List.forall_mem_cons]
  exact ⟨.inl first, mem_kstar_oneOf_iff.mp later⟩

/-- In an identifier there are neither control characters nor any beyond ASCII. -/
theorem bounds_of_mem_letters_or_digits {c : Char} (h : c ∈ letters ∪ Set.Icc '0' '9') :
    32 < c.toNat ∧ c.toNat < 128 := by
  simp only [letters, Set.mem_union, Set.mem_Icc, Set.mem_insert_iff, Set.mem_singleton_iff,
    Char.le_def, UInt32.le_iff_toNat_le] at h
  change (((65 ≤ c.toNat ∧ c.toNat ≤ 90) ∨ (97 ≤ c.toNat ∧ c.toNat ≤ 122)) ∨ c = '_' ∨ c = '$') ∨
    (48 ≤ c.toNat ∧ c.toNat ≤ 57) at h
  rcases h with ((upper | lower) | rfl | rfl) | digit
  · omega
  · omega
  · decide
  · decide
  · omega

/-! ### From a stem to a name -/

/-- Whether a character may stand at the start of an identifier, and whether further on. -/
def roles (c : Char) : Bool × Bool := (isIdentifierStart c, isIdentifierChar c)

theorem isIdentifier_congr {s t : String} (h : s.toList.map roles = t.toList.map roles) :
    isIdentifier s = isIdentifier t := by
  have further (l : List Char) : l.all isIdentifierChar = (l.map roles).all Prod.snd := by
    rw [List.all_map]
    rfl
  unfold isIdentifier
  cases hs : s.toList with
  | nil =>
    rw [hs, List.map_nil, eq_comm, List.map_eq_nil_iff] at h
    rw [h]
  | cons c rest =>
    rw [hs, List.map_cons, eq_comm, List.map_eq_cons_iff] at h
    obtain ⟨d, others, ht, same, alike⟩ := h
    rw [ht]
    dsimp only
    rw [further, further, alike, (Prod.mk.inj same).1]

theorem map_roles_upperForm_lower : ∀ n ∈ List.range' 97 26,
    (Text.upperForm (Char.ofNat n)).map roles = [roles (Char.ofNat n)] := by
  decide +kernel

/-- In ASCII the lower-case letters alone have another upper-case form. -/
theorem not_listed_of_ascii {n : Nat} (ascii : n < 128) (h : n ∉ List.range' 97 26) :
    n ∉ Text.listedCodes := by
  have others : n ∈ List.range 97 ++ List.range' 123 5 := by
    rw [List.mem_append, List.mem_range, List.mem_range'_1]
    rw [List.mem_range'_1] at h
    omega
  exact Text.not_mem_of_bitSets (by decide +kernel) others

theorem map_roles_upperForm {c : Char} (h : c.toNat < 128) :
    (Text.upperForm c).map roles = [roles c] := by
  by_cases lower : c.toNat ∈ List.range' 97 26
  · have capital := map_roles_upperForm_lower c.toNat lower
    rwa [Char.ofNat_toNat] at capital
  · rw [Text.upperForm_of_not_listed (not_listed_of_ascii h lower), List.map_singleton]

theorem map_roles_joinWords {s : List Char} (ascii : ∀ c ∈ s, c.toNat < 128) (start : Bool) :
    (joinWords start s).map roles = (s.filter (· ≠ '-')).map roles := by
  induction s generalizing start with
  | nil => rfl
  | cons c rest ih =>
    obtain ⟨here, later⟩ := List.forall_mem_cons.mp ascii
    rw [joinWords]
    split
    next hyphen => rw [List.filter_cons_of_neg (by simpa using hyphen), ih later]
    next other =>
      rw [List.filter_cons_of_pos (by simpa using other), List.map_cons]
      split
      · rw [List.map_append, map_roles_upperForm here, ih later, List.singleton_append]
      · rw [List.map_cons, ih later]

theorem isIdentifier_relatedTypeName_iff {stem : String}
    (ascii : ∀ c ∈ stem.toList, c.toNat < 128) :
    isIdentifier (relatedTypeName stem) = true ↔ stem.toList.filter (· ≠ '-') ∈ identifiers := by
  have alike : isIdentifier (relatedTypeName stem) =
      isIdentifier (String.ofList (stem.toList.filter (· ≠ '-'))) := by
    apply isIdentifier_congr
    rw [relatedTypeName, String.toList_ofList, String.toList_ofList, map_roles_joinWords ascii]
  rw [alike, isIdentifier_iff, String.toList_ofList]

theorem checkName_eq_ok_iff {name n : String} :
    checkName name = .ok n ↔ isIdentifier name = true ∧ n = name := by
  unfold checkName
  split
  next valid => rw [Except.ok.injEq, and_iff_right valid, eq_comm]
  next invalid => exact iff_of_false nofun fun both => invalid both.1

theorem declarationName_given_eq_ok_iff {name path n : String} {inputs : Nat} :
    declarationName (some name) path inputs = .ok n ↔
      inputs ≤ 1 ∧ name.toList ∈ identifiers ∧ n = name := by
  rw [declarationName]
  split
  next several => exact iff_of_false nofun fun all => absurd all.1 (Nat.not_le.mpr several)
  next single => rw [checkName_eq_ok_iff, isIdentifier_iff, and_iff_right (Nat.not_lt.mp single)]

theorem declarationName_eq_ok_iff_of_stem? {path stem n : String} {inputs : Nat}
    (h : Files.Path.stem? path = some stem) :
    declarationName none path inputs = .ok n ↔
      isIdentifier (relatedTypeName stem) = true ∧ n = relatedTypeName stem := by
  rw [declarationName, h]
  exact checkName_eq_ok_iff

theorem mem_identifiers_of_declarationName {given : Option String} {path n : String} {inputs : Nat}
    (h : declarationName given path inputs = .ok n) : n.toList ∈ identifiers := by
  cases given with
  | some name =>
    obtain ⟨-, valid, rfl⟩ := declarationName_given_eq_ok_iff.mp h
    exact valid
  | none =>
    cases found : Files.Path.stem? path with
    | none =>
      rw [declarationName, found] at h
      cases h
    | some stem =>
      obtain ⟨valid, rfl⟩ := (declarationName_eq_ok_iff_of_stem? found).mp h
      exact isIdentifier_iff.mp valid

theorem foreignKey_of_foreignKeyHint {p : Property} {foreignKey : String} {kind : Cardinality}
    (h : p.foreignKeyHint = some (foreignKey, kind)) : p.foreignKey = some foreignKey := by
  unfold Property.foreignKeyHint at h
  split at h
  next key _ => rw [key, ← (Prod.mk.inj (Option.some.inj h)).1]
  next => cases h

theorem length_le_one_iff_of_mem {α : Type} {items : List α} {a : α} (h : a ∈ items) :
    items.length ≤ 1 ↔ items = [a] := by
  constructor
  · intro few
    obtain ⟨b, rfl⟩ := List.length_eq_one_iff.mp
      (Nat.le_antisymm few (List.length_pos_of_mem h))
    rw [List.mem_singleton.mp h]
  · rintro rfl
    exact Nat.le_refl 1

/-- A declaration never gets a name that is no identifier. A name that is given is taken as it is,
for a single input only. A file with a stem in ASCII has a name just if the stem without hyphens is
an identifier, and then it is the one by which relations with the stem as their key refer to it. -/
theorem declarationName_accepts_identifiers (path : String) (inputs : Nat) :
    (∀ given n, declarationName given path inputs = .ok n →
      n.toList ∈ identifiers ∧ ∀ c ∈ n.toList, 32 < c.toNat ∧ c.toNat < 128) ∧
    (∀ stem, Files.Path.stem? path = some stem → (∀ c ∈ stem.toList, c.toNat < 128) →
      ((∃ n, declarationName none path inputs = .ok n) ↔
        stem.toList.filter (· ≠ '-') ≠ [] ∧ stem.toList.filter (· ≠ '-') ∈ identifiers) ∧
      ∀ n, declarationName none path inputs = .ok n → n = relatedTypeName stem ∧
        ∀ key p required r, Relation.ofProperty? key p required = some r →
          p.foreignKey = some stem → r.typeName = n) ∧
    (∀ name n, declarationName (some name) path inputs = .ok n ↔
      inputs ≤ 1 ∧ name.toList ∈ identifiers ∧ n = name) ∧
    ∀ name n (sources : List Source), ∀ source ∈ sources,
      (declarationName (some name) source.path sources.length = .ok n ↔
        sources = [source] ∧ name.toList ∈ identifiers ∧ n = name) := by
  refine ⟨?_, ?_, fun name n => declarationName_given_eq_ok_iff, ?_⟩
  · intro given n named
    have valid := mem_identifiers_of_declarationName named
    exact ⟨valid, fun c member =>
      bounds_of_mem_letters_or_digits (mem_letters_or_digits_of_mem valid c member)⟩
  · intro stem found ascii
    constructor
    · simp only [declarationName_eq_ok_iff_of_stem? found, exists_eq_right,
        isIdentifier_relatedTypeName_iff ascii]
      constructor
      · intro valid
        exact ⟨ne_of_mem_of_not_mem valid nil_not_mem_identifiers, valid⟩
      · exact And.right
    · intro n named
      obtain ⟨-, rfl⟩ := (declarationName_eq_ok_iff_of_stem? found).mp named
      refine ⟨rfl, ?_⟩
      intro key p required r made hint
      obtain ⟨⟨foreignKey, kind⟩, complete, rfl⟩ := Option.map_eq_some_iff.mp made
      rw [foreignKey_of_foreignKeyHint complete] at hint
      cases hint
      rfl
  · intro name n sources source member
    rw [declarationName_given_eq_ok_iff, length_le_one_iff_of_mem member]

/-- A foreign key with hyphens at its ends and two in a row, before a digit. -/
def membership : Property :=
  (Property.nullable .string).withForeignKey "-user--2nd-" .oneToMany

def jobSource : Source := ⟨"job.json", ⟨"object", [], none⟩⟩

theorem declarationName_accepts_identifiers_membership :
    Files.Path.stem? "schemas/-user--2nd-.json" = some "-user--2nd-" ∧
    (∃ n r, declarationName none "schemas/-user--2nd-.json" 3 = .ok n ∧
      Relation.ofProperty? "membersId" membership none = some r ∧ r.typeName = n ∧
      n = "User2nd") ∧
    (¬ ∃ n, declarationName none "schemas/2nd-user.json" 3 = .ok n) ∧
    ∀ n, declarationName (some "Job") jobSource.path [jobSource].length = .ok n ↔ n = "Job" := by
  have found : Files.Path.stem? "schemas/-user--2nd-.json" = some "-user--2nd-" := by decide
  have ascii {s : List Char} (h : (s.all fun c => c.toNat < 128) = true) :
      ∀ c ∈ s, c.toNat < 128 :=
    fun c member => of_decide_eq_true (List.all_eq_true.mp h c member)
  have user2nd : "user2nd".toList ∈ identifiers := isIdentifier_iff.mp (by decide)
  have digitFirst : "2nduser".toList ∉ identifiers := mt isIdentifier_iff.mpr (by decide)
  have job : "Job".toList ∈ identifiers := isIdentifier_iff.mp (by decide)
  obtain ⟨-, stems, -, alone⟩ := declarationName_accepts_identifiers "schemas/-user--2nd-.json" 3
  obtain ⟨accepted, refers⟩ := stems "-user--2nd-" found (ascii (by decide))
  obtain ⟨n, named⟩ := accepted.mpr ⟨by decide, user2nd⟩
  obtain ⟨name, typeName⟩ := refers n named
  refine ⟨found, ⟨n, _, named, rfl, ?_, name.trans (by decide)⟩, ?_, ?_⟩
  · exact typeName "membersId" membership none _ rfl rfl
  · obtain ⟨-, others, -, -⟩ := declarationName_accepts_identifiers "schemas/2nd-user.json" 3
    rw [(others "2nd-user" (by decide) (ascii (by decide))).1]
    exact fun both => digitFirst both.2
  · intro n
    rw [alone "Job" n [jobSource] jobSource List.mem_cons_self]
    exact ⟨fun all => all.2.2, fun same => ⟨rfl, job, same⟩⟩

end InterfaceGen.Command
