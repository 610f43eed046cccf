import Mathlib.Algebra.Ring.Int.Defs
import InterfaceGen.Json.Scalar

/-!
# Printed integers

An integer of at most 64 bits is read from its decimal digits, unless what follows them goes on with
the number.
-/

namespace InterfaceGen.Json

/-- A number ends before this text. -/
def EndsNumber (r : List Char) : Prop :=
  ∀ c ∈ r.head?, isDigit c = false ∧ c ≠ '.' ∧ c ≠ 'e' ∧ c ≠ 'E'

theorem endsNumber_nil : EndsNumber [] := nofun

/-! ### Digits -/

theorem isDigit_eq (c : Char) : isDigit c = c.isDigit := rfl

theorem isDigit_of_mem_toDigits {n : Nat} {c : Char} (h : c ∈ Nat.toDigits 10 n) :
    isDigit c = true := by
  rw [isDigit_eq]
  exact Nat.isDigit_of_mem_toDigits (by decide) (by decide) h

theorem toDigits_eq_cons (n : Nat) :
    ∃ d ds, Nat.toDigits 10 n = d :: ds ∧ isDigit d = true := by
  cases digits : Nat.toDigits 10 n with
  | nil => exact absurd digits Nat.toDigits_ne_nil
  | cons d ds => exact ⟨d, ds, rfl, isDigit_of_mem_toDigits (digits ▸ List.mem_cons_self)⟩

/-- The number that digits spell, after others that spell `n`. -/
def digitsValue (n : Nat) (digits : List Char) : Nat :=
  digits.foldl (fun n d => n * 10 + digitValue d) n

theorem digitsValue_toDigits (n : Nat) : digitsValue 0 (Nat.toDigits 10 n) = n := by
  have step (m : Nat) (d : Char) : m * 10 + digitValue d = 10 * m + (d.toNat - '0'.toNat) := by
    rw [Nat.mul_comm]
    rfl
  have spelled : Nat.ofDigitChars 10 (Nat.toDigits 10 n) 0 = n :=
    Nat.ofDigitChars_toDigits (by decide) (by decide)
  simp only [digitsValue, step]
  exact spelled

theorem le_digitsValue (n : Nat) (digits : List Char) : n ≤ digitsValue n digits := by
  induction digits generalizing n with
  | nil => exact Nat.le_refl n
  | cons d ds ih =>
    have := ih (n * 10 + digitValue d)
    rw [digitsValue, List.foldl_cons]
    unfold digitsValue at this
    omega

theorem accumulate_eq {n : Nat} {digits : List Char} (h : digitsValue n digits < UInt64.size) :
    accumulate n digits = (digitsValue n digits, digits.length) := by
  induction digits generalizing n with
  | nil => rfl
  | cons d ds ih =>
    have fits : n * 10 + digitValue d < UInt64.size :=
      Nat.lt_of_le_of_lt (le_digitsValue _ ds) h
    rw [accumulate, if_pos fits, ih h]
    rfl

theorem head?_toDigits_ne_zero {n : Nat} (h : 0 < n) : (Nat.toDigits 10 n).head? ≠ some '0' := by
  induction n using Nat.strongRecOn with
  | ind n ih =>
    by_cases small : n < 10
    · have digits : ∀ m < 10, 0 < m → [Nat.digitChar m].head? ≠ some '0' := by decide
      rw [Nat.toDigits_of_lt_base small]
      exact digits n small h
    · have front := ih (n / 10) (by omega) (by omega)
      obtain ⟨d, ds, digits, -⟩ := toDigits_eq_cons (n / 10)
      rw [Nat.toDigits_of_base_le (by decide) (by omega), digits]
      rwa [digits] at front

theorem spanDigits_append {digits r : List Char} (h : ∀ c ∈ digits, isDigit c = true)
    (ends : EndsNumber r) : spanDigits (digits ++ r) = (digits, r) := by
  have none : r.takeWhile isDigit = [] ∧ r.dropWhile isDigit = r := by
    cases r with
    | nil => exact ⟨rfl, rfl⟩
    | cons c rest =>
      have other := (ends c rfl).1
      exact ⟨List.takeWhile_cons_of_neg (by simp [other]),
        List.dropWhile_cons_of_neg (by simp [other])⟩
  rw [spanDigits, List.takeWhile_append_of_pos h, List.dropWhile_append_of_pos h, none.1, none.2,
    List.append_nil]

/-! ### Numbers -/

theorem readFraction_of_endsNumber (negative : Bool) (n : Nat) {r : List Char}
    (ends : EndsNumber r) :
    readFraction negative n 0 r = .ok (integerOfParts negative n, r) := by
  unfold readFraction
  split
  next => exact absurd rfl (ends _ rfl).2.1
  next => exact absurd rfl (ends _ rfl).2.2.1
  next => exact absurd rfl (ends _ rfl).2.2.2
  next => rw [if_pos rfl]

theorem readUnsigned_toDigits (negative : Bool) {n : Nat} (h : n < UInt64.size) {r : List Char}
    (ends : EndsNumber r) :
    readUnsigned negative (Nat.toDigits 10 n ++ r) = .ok (integerOfParts negative n, r) := by
  have span : spanDigits (Nat.toDigits 10 n ++ r) = (Nat.toDigits 10 n, r) :=
    spanDigits_append (fun _ => isDigit_of_mem_toDigits) ends
  have value := digitsValue_toDigits n
  unfold readUnsigned
  rw [span]
  split
  next none =>
    cases Nat.toDigits_ne_nil (Prod.mk.inj none).1
  next zero =>
    have digits := (Prod.mk.inj zero).1
    by_cases positive : 0 < n
    · exact absurd (by rw [digits]; rfl) (head?_toDigits_ne_zero positive)
    · rw [Nat.eq_zero_of_not_pos positive] at digits
      cases digits
  next same =>
    cases same
    rw [accumulate_eq (by rwa [value]), value]
    dsimp only
    rw [Nat.sub_self]
    exact readFraction_of_endsNumber negative n ends

theorem readNumber_toDigits (n : Nat) (r : List Char) :
    readNumber (Nat.toDigits 10 n ++ r) = readUnsigned false (Nat.toDigits 10 n ++ r) := by
  obtain ⟨d, ds, digits, digit⟩ := toDigits_eq_cons n
  rw [digits, List.cons_append, readNumber]
  intro _ minus
  cases minus
  exact absurd digit (by decide)

theorem Number.text_ofNat (n : Nat) : (Number.integer (.ofNat n)).text = Nat.toDigits 10 n :=
  Nat.toList_repr

theorem Number.text_negSucc (n : Nat) :
    (Number.integer (.negSucc n)).text = '-' :: Nat.toDigits 10 (n + 1) := by
  rw [← Nat.toList_repr]
  exact String.toList_append

/-- An integer that is read as such: one of 64 bits, with a sign or without. -/
def Number.Whole (n : Number) : Prop :=
  ∃ i : Int, n = .integer i ∧ -(2 ^ 63 : Int) ≤ i ∧ i < 2 ^ 64

theorem readNumber_text {n : Number} (h : n.Whole) {r : List Char} (ends : EndsNumber r) :
    readNumber (n.text ++ r) = .ok (n, r) := by
  obtain ⟨i, rfl, lower, upper⟩ := h
  cases i with
  | ofNat m =>
    have fits : m < UInt64.size := Int.ofNat_lt.mp upper
    rw [Number.text_ofNat, readNumber_toDigits, readUnsigned_toDigits false fits ends]
    rfl
  | negSucc m =>
    have small : m + 1 ≤ greatestNegative := by
      rw [Int.negSucc_eq] at lower
      simp only [greatestNegative, UInt64.size]
      omega
    have fits : m + 1 < UInt64.size := Nat.lt_of_le_of_lt small (by decide)
    rw [Number.text_negSucc, List.cons_append, readNumber, readUnsigned_toDigits true fits ends]
    unfold integerOfParts
    rw [if_pos rfl, if_pos ⟨Nat.succ_pos m, small⟩]
    rfl

end InterfaceGen.Json
