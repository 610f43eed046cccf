import InterfaceGen.Text.UpperCase

/-!
# Upper-case forms stay as they are

No character of an upper-case form has another upper-case form, so the first letter of a word that
has been capitalized is capitalized already. Both tables are compared as sets of code points, each
written as one number with a bit for each code point that is in it.
-/

namespace InterfaceGen.Text

/-- The code points that a run is about. -/
def CaseRun.members (r : CaseRun) : List Nat :=
  List.range' r.first ((r.last - r.first) / r.step + 1) r.step

/-- The code points that have an upper-case form other than themselves. -/
def listedCodes : List Nat := longForms.map Prod.fst ++ caseRuns.flatMap CaseRun.members

/-- The code points in the upper-case forms of those. -/
def formCodes : List Nat :=
  longForms.flatMap Prod.snd ++
    caseRuns.flatMap fun r => r.members.map fun (n : Nat) => ((n : Int) + r.shift).toNat

theorem CaseRun.Contains.mem_members {r : CaseRun} {n : Nat} (h : r.Contains n) :
    n ∈ r.members := by
  obtain ⟨above, below, even⟩ := h
  refine List.mem_range'.mpr ⟨(n - r.first) / r.step, ?_, ?_⟩
  · exact Nat.lt_succ_of_le (Nat.div_le_div_right (Nat.sub_le_sub_right below _))
  · have whole := Nat.div_add_mod (n - r.first) r.step
    omega

/-! ### Sets of code points -/

/-- The number whose bits at the given places are set. -/
def bitSet : List Nat → Nat
  | [] => 0
  | n :: rest => 1 <<< n ||| bitSet rest

theorem testBit_bitSet {ns : List Nat} {n : Nat} : (bitSet ns).testBit n = true ↔ n ∈ ns := by
  induction ns with
  | nil => simp [bitSet]
  | cons m rest ih =>
    rw [bitSet, Nat.testBit_or, Nat.one_shiftLeft, Nat.testBit_two_pow, Bool.or_eq_true,
      decide_eq_true_eq, ih, List.mem_cons, eq_comm]

theorem not_mem_of_bitSets {ns ms : List Nat} (h : bitSet ns &&& bitSet ms = 0) {n : Nat}
    (member : n ∈ ns) : n ∉ ms := by
  intro other
  have both : (bitSet ns &&& bitSet ms).testBit n = true := by
    rw [Nat.testBit_and, testBit_bitSet.mpr member, testBit_bitSet.mpr other, Bool.and_self]
  rw [h, Nat.zero_testBit] at both
  cases both

theorem not_listed_of_mem_formCodes {n : Nat} (h : n ∈ formCodes) : n ∉ listedCodes :=
  not_mem_of_bitSets (by decide +kernel) h

theorem isValidChar_of_mem_formCodes : ∀ n ∈ formCodes, n.isValidChar := by decide +kernel

theorem hyphen_not_mem_formCodes : '-'.toNat ∉ formCodes := by
  have apart : bitSet ['-'.toNat] &&& bitSet formCodes = 0 := by decide +kernel
  exact not_mem_of_bitSets apart (List.mem_singleton_self _)

/-! ### Forms -/

theorem toNat_ofNat {n : Nat} (h : n.isValidChar) : (Char.ofNat n).toNat = n := by
  rw [Char.ofNat, dif_pos h]
  rfl

theorem upperForm_of_not_listed {c : Char} (h : c.toNat ∉ listedCodes) : upperForm c = [c] := by
  rw [listedCodes, List.mem_append, not_or] at h
  have long : longForms.find? (·.1 == c.toNat) = none := by
    refine List.find?_eq_none.mpr fun form listed same => h.1 ?_
    exact List.mem_map.mpr ⟨form, listed, by simpa using same⟩
  have short : caseRuns.find? (fun r => decide (r.Contains c.toNat)) = none := by
    refine List.find?_eq_none.mpr fun run listed inside => h.2 ?_
    exact List.mem_flatMap.mpr ⟨run, listed, (of_decide_eq_true inside).mem_members⟩
  rw [upperForm, long, short]

theorem longForms_ne_nil : ∀ form ∈ longForms, form.2 ≠ [] := by decide

/-- A character stands for itself, or its form is in one of the tables. -/
theorem upperForm_cases (c : Char) :
    upperForm c = [c] ∨ ∃ ns, ns ≠ [] ∧ (∀ n ∈ ns, n ∈ formCodes) ∧
      upperForm c = ns.map Char.ofNat := by
  unfold upperForm
  split
  next form found =>
    have listed := List.mem_of_find?_eq_some found
    refine .inr ⟨form, longForms_ne_nil _ listed, fun n member => ?_, rfl⟩
    exact List.mem_append_left _ (List.mem_flatMap.mpr ⟨_, listed, member⟩)
  next =>
    split
    next run found =>
      have inside : run.Contains c.toNat := by simpa using List.find?_some found
      refine .inr ⟨[((c.toNat : Int) + run.shift).toNat], nofun, fun n member => ?_, rfl⟩
      rw [List.mem_singleton.mp member]
      exact List.mem_append_right _ (List.mem_flatMap.mpr
        ⟨run, List.mem_of_find?_eq_some found, List.mem_map.mpr ⟨_, inside.mem_members, rfl⟩⟩)
    next => exact .inl rfl

theorem upperForm_ne_nil (c : Char) : upperForm c ≠ [] := by
  rcases upperForm_cases c with same | ⟨ns, ne, -, form⟩
  · rw [same]
    nofun
  · rw [form]
    simpa using ne

theorem hyphen_not_mem_upperForm {c : Char} (h : c ≠ '-') : '-' ∉ upperForm c := by
  rcases upperForm_cases c with same | ⟨ns, -, codes, form⟩
  · rw [same, List.mem_singleton]
    exact h.symm
  · rw [form, List.mem_map]
    rintro ⟨n, member, hyphen⟩
    have listed := codes n member
    rw [← toNat_ofNat (isValidChar_of_mem_formCodes n listed), hyphen] at listed
    exact hyphen_not_mem_formCodes listed

theorem upperForm_of_mem {c d : Char} (h : d ∈ upperForm c) : upperForm d = [d] := by
  rcases upperForm_cases c with same | ⟨ns, -, codes, form⟩
  · rw [same, List.mem_singleton] at h
    rw [h, same]
  · rw [form, List.mem_map] at h
    obtain ⟨n, member, rfl⟩ := h
    have listed := codes n member
    refine upperForm_of_not_listed ?_
    rw [toNat_ofNat (isValidChar_of_mem_formCodes n listed)]
    exact not_listed_of_mem_formCodes listed

end InterfaceGen.Text
