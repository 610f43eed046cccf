import InterfaceGen.Proofs.Except
import InterfaceGen.Proofs.OrderedMap
import InterfaceGen.Schema.OfValue
import InterfaceGen.Schema.Printer

/-!
# What the fields of a description say

For each kind of value that a description is made of, what is read from a value. A text, a list of
names, an enumeration and a declared type are read from nothing but what they are printed as. The
fields of a description are read into a draft one after the other, whatever is described.
-/

namespace InterfaceGen

open Json (Value Cause Fault)

theorem name_of_find? {α : Type} {all : List α} {name : α → String} {wanted : String} {a : α}
    (h : (all.find? fun a => name a == wanted) = some a) : name a = wanted := by
  simpa using List.find?_some h

namespace Json.Value

variable {α : Type} {read : Value → Except Fault α} {v : Value}

/-! ### Values of a field -/

theorem toText_eq_ok_iff {s : String} : v.toText = .ok s ↔ v = .string s := by
  cases v <;> simp [toText, mismatch]

theorem toOption_eq_ok_iff {o : Option α} :
    toOption read v = .ok o ↔
      (v = .null ∧ o = none) ∨ v ≠ .null ∧ ∃ a, read v = .ok a ∧ o = some a := by
  cases v with
  | null => simp [toOption, eq_comm]
  | _ =>
    rw [toOption, except_map_eq_ok_iff]
    · simp [eq_comm]
    · simp

theorem readEach_eq_ok_iff {i : Nat} {vs : List Value} {as : List α} :
    readEach read i vs = .ok as ↔ List.Forall₂ (fun v a => read v = .ok a) vs as := by
  induction vs generalizing i as with
  | nil => simp [readEach, eq_comm]
  | cons v rest ih =>
    rw [readEach]
    constructor
    · intro h
      split at h
      next => cases h
      next a here =>
        split at h
        next => cases h
        next as others =>
          cases h
          exact .cons here (ih.mp others)
    · intro h
      cases h with
      | cons here others =>
        rw [here]
        dsimp only
        rw [ih.mpr others]

theorem toList_eq_ok_iff {as : List α} :
    toList read v = .ok as ↔
      ∃ vs, v = .array vs ∧ List.Forall₂ (fun v a => read v = .ok a) vs as := by
  cases v <;> simp [toList, mismatch, readEach_eq_ok_iff]

/-- A list is read from nothing but its items printed one by one. -/
theorem toList_eq_ok_iff_map {print : α → Value}
    (h : ∀ {v : Value} {a : α}, read v = .ok a ↔ v = print a) {as : List α} :
    toList read v = .ok as ↔ v = .array (as.map print) := by
  have printed (vs : List Value) :
      List.Forall₂ (fun v a => read v = .ok a) vs as ↔ vs = as.map print := by
    simp only [h, ← List.forall₂_map_right_iff, List.forall₂_eq_eq_eq]
  simp only [toList_eq_ok_iff, printed]
  constructor
  · rintro ⟨_, rfl, rfl⟩
    rfl
  · rintro rfl
    exact ⟨_, rfl, rfl⟩

theorem toNames_eq_ok_iff {names : List String} :
    v.toNames = .ok names ↔ v = namesToJson names :=
  toList_eq_ok_iff_map toText_eq_ok_iff

theorem toEnumValues_eq_ok_iff {values : EnumValues} :
    v.toEnumValues = .ok values ↔ v = values.toJson := by
  refine toList_eq_ok_iff_map fun {v o} => ?_
  rw [toOption_eq_ok_iff]
  cases o with
  | none => simp
  | some s => simp +contextual [toText_eq_ok_iff]

theorem toTypeDecl_eq_ok_iff {decl : TypeDecl} : v.toTypeDecl = .ok decl ↔ v = decl.toJson := by
  have alternatives (ne : ∀ tag, v ≠ .string tag) :
      v.toTypeDecl = .ok decl ↔ ∃ tags, v.toNames = .ok tags ∧ .alternatives tags = decl := by
    rw [toTypeDecl]
    · cases v.toNames <;> simp
    · exact fun tag same => ne tag same
  cases v with
  | string tag => cases decl <;> simp [toTypeDecl, TypeDecl.toJson, eq_comm]
  | _ =>
    rw [alternatives (by simp)]
    simp only [toNames_eq_ok_iff]
    cases decl with
    | single tag => simp [TypeDecl.toJson]
    | alternatives tags => simp [TypeDecl.toJson, namesToJson]

theorem toUnit_eq_ok_iff : v.toUnit = .ok () ↔ v = .null := by
  cases v <;> simp [toUnit, mismatch]

theorem cardinalityName_injective : Function.Injective Cardinality.name := by
  intro kind kind' h
  cases kind <;> cases kind' <;> first | rfl | exact absurd h (by decide)

theorem ofName_eq_ok_iff {name : String} {kind : Cardinality} :
    Cardinality.ofName name = .ok kind ↔ name = kind.name := by
  unfold Cardinality.ofName
  constructor
  · intro h
    split at h
    next found =>
      cases h
      exact (name_of_find? found).symm
    next => cases h
  · rintro rfl
    rw [Cardinality.ofName?_name]

theorem toCardinality_eq_ok_iff {kind : Cardinality} :
    v.toCardinality = .ok kind ↔ v = .string kind.name ∨ v = .object [(kind.name, .null)] := by
  fun_cases toCardinality v with
  | case1 name => simp [mapError_eq_ok_iff, ofName_eq_ok_iff]
  | case2 name v c refused =>
    simp only [reduceCtorEq, false_iff]
    rintro (⟨⟨⟩⟩ | ⟨⟨⟩⟩)
    rw [ofName_eq_ok_iff.mpr rfl] at refused
    cases refused
  | case3 name v kind' named fault refused =>
    simp only [reduceCtorEq, false_iff]
    rintro (⟨⟨⟩⟩ | ⟨⟨⟩⟩)
    cases refused
  | case4 name v kind' named unit =>
    cases ofName_eq_ok_iff.mp named
    cases toUnit_eq_ok_iff.mp unit
    simp [cardinalityName_injective.eq_iff, eq_comm]
  | case5 members several =>
    simp only [reduceCtorEq, false_iff]
    rintro (⟨⟨⟩⟩ | ⟨⟨⟩⟩)
    exact several _ _ rfl
  | case6 v notText _ notObject =>
    simp only [mismatch, reduceCtorEq, false_iff]
    rintro (rfl | rfl)
    · exact notText _ rfl
    · exact notObject _ rfl

end Json.Value

/-! ### Fields by key and in order -/

section structures

variable {φ δ : Type}

/-- The fields that the members of an object are about, in order and with repetitions. -/
def fieldsOf (ofKey? : String → Option φ) (members : List (String × Value)) : List φ :=
  members.filterMap fun m => ofKey? m.1

theorem fieldsOf_cons_of_none {ofKey? : String → Option φ} {m : String × Value}
    {members : List (String × Value)} (h : ofKey? m.1 = none) :
    fieldsOf ofKey? (m :: members) = fieldsOf ofKey? members := by
  simp [fieldsOf, h]

theorem fieldsOf_cons_of_some {ofKey? : String → Option φ} {m : String × Value} {f : φ}
    {members : List (String × Value)} (h : ofKey? m.1 = some f) :
    fieldsOf ofKey? (m :: members) = f :: fieldsOf ofKey? members := by
  simp [fieldsOf, h]

theorem fieldsOf_append {ofKey? : String → Option φ} (members others : List (String × Value)) :
    fieldsOf ofKey? (members ++ others) = fieldsOf ofKey? members ++ fieldsOf ofKey? others :=
  List.filterMap_append

/-- Reading a field leaves a mark at this field alone. -/
def Marks (has : δ → φ → Bool) (read : φ → δ → Value → Except Fault δ) : Prop :=
  ∀ ⦃f : φ⦄ ⦃d d' : δ⦄ ⦃v : Value⦄, read f d v = .ok d' →
    ∀ g, has d' g = true ↔ has d g = true ∨ g = f

variable {ofKey? : String → Option φ} {fields : List φ} {has : δ → φ → Bool}
  {read : φ → δ → Value → Except Fault δ} {d d' : δ}

theorem readByKey_cons_of_none {m : String × Value} (h : ofKey? m.1 = none)
    (rest : List (String × Value)) :
    readByKey ofKey? read d (m :: rest) = readByKey ofKey? read d rest := by
  rw [readByKey, h]

theorem readByKey_cons_of_ok {m : String × Value} {f : φ} (known : ofKey? m.1 = some f)
    (run : read f d m.2 = .ok d') (rest : List (String × Value)) :
    readByKey ofKey? read d (m :: rest) = readByKey ofKey? read d' rest := by
  rw [readByKey, known]
  dsimp only
  rw [run]

theorem readByKey_cons_eq_ok {m : String × Value} {f : φ} {rest : List (String × Value)}
    (known : ofKey? m.1 = some f) (run : readByKey ofKey? read d (m :: rest) = .ok d') :
    ∃ d₁, read f d m.2 = .ok d₁ ∧ readByKey ofKey? read d₁ rest = .ok d' := by
  rw [readByKey, known] at run
  dsimp only at run
  split at run
  next => cases run
  next d₁ here => exact ⟨d₁, here, run⟩

theorem readByKey_append (before after : List (String × Value)) :
    readByKey ofKey? read d (before ++ after) =
      readByKey ofKey? read d before >>= fun d => readByKey ofKey? read d after := by
  induction before generalizing d with
  | nil => rfl
  | cons m rest ih =>
    rw [List.cons_append, readByKey, readByKey]
    cases ofKey? m.1 with
    | none => exact ih
    | some f =>
      dsimp only
      cases read f d m.2 with
      | error fault => rfl
      | ok d' => exact ih

theorem Marks.eq_false_iff (h : Marks has read) {f : φ} {v : Value} (run : read f d v = .ok d')
    (g : φ) : has d' g = false ↔ has d g = false ∧ g ≠ f := by
  rw [← Bool.not_eq_true, h run g, not_or, Bool.not_eq_true]

theorem Marks.readByKey (h : Marks has read) {members : List (String × Value)}
    (run : readByKey ofKey? read d members = .ok d') (g : φ) :
    has d' g = true ↔ has d g = true ∨ g ∈ fieldsOf ofKey? members := by
  induction members generalizing d with
  | nil =>
    cases run
    simp [fieldsOf]
  | cons m rest ih =>
    cases known : ofKey? m.1 with
    | none =>
      rw [readByKey_cons_of_none known] at run
      rw [ih run, fieldsOf_cons_of_none known]
    | some f =>
      obtain ⟨d₁, here, later⟩ := readByKey_cons_eq_ok known run
      rw [ih later, h here g, or_assoc, fieldsOf_cons_of_some known, List.mem_cons]

theorem Marks.readInOrder (h : Marks has read) {i : Nat} {items : List Value}
    (run : readInOrder fields read i d items = .ok d') (g : φ) :
    has d' g = true ↔ has d g = true ∨ g ∈ (fields.drop i).take items.length := by
  induction items generalizing i d with
  | nil =>
    cases run
    simp
  | cons v rest ih =>
    rw [InterfaceGen.readInOrder] at run
    split at run
    next out =>
      cases run
      rw [List.drop_eq_nil_of_le (List.getElem?_eq_none_iff.mp out)]
      simp
    next f known =>
      split at run
      next => cases run
      next here =>
        obtain ⟨bound, rfl⟩ := List.getElem?_eq_some_iff.mp known
        rw [ih run, h here g, or_assoc, List.drop_eq_getElem_cons bound, List.length_cons,
          List.take_succ_cons, List.mem_cons]

theorem forall_getElem?_cons_iff {fields : List φ} {i : Nat} {v : Value} {items : List Value}
    {f : φ} {fine : φ → Value → Prop} (known : fields[i]? = some f) :
    (∀ {k : Nat} {w : Value} {g : φ}, (v :: items)[k]? = some w → fields[i + k]? = some g →
        fine g w) ↔
      fine f v ∧ ∀ {k : Nat} {w : Value} {g : φ}, items[k]? = some w →
        fields[i + 1 + k]? = some g → fine g w := by
  constructor
  · intro good
    refine ⟨good (k := 0) rfl known, fun {k w g} item known' => good (k := k + 1) item ?_⟩
    rwa [← Nat.add_assoc, Nat.add_right_comm]
  · rintro ⟨first, later⟩ k w g item known'
    cases k with
    | zero =>
      cases item
      cases known.symm.trans known'
      exact first
    | succ k => exact later item (by rwa [Nat.add_right_comm])

/-- Members under unknown keys say nothing. -/
theorem readByKey_filter (members : List (String × Value)) :
    readByKey ofKey? read d (members.filter fun m => (ofKey? m.1).isSome) =
      readByKey ofKey? read d members := by
  induction members generalizing d with
  | nil => rfl
  | cons m rest ih =>
    cases known : ofKey? m.1 with
    | none => simp [readByKey, known, ih]
    | some f => simp [readByKey, known, ih]

end structures

end InterfaceGen
