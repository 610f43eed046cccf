import InterfaceGen.Proofs.Except
import InterfaceGen.Proofs.Json.Printed
import InterfaceGen.Proofs.Json.Skipping

/-!
# Texts that go on

What is read from the front of a text is read from it also if the text goes on. A number is the one
exception: its digits may go on with the text. So a value has to be followed by something already,
and within an array or object it always is, if only by the closing bracket.
-/

namespace InterfaceGen.Json

/-! ### Blanks and words -/

theorem dropWhile_append_of_cons {p : Char → Bool} {s u : List Char} {c : Char}
    (h : s.dropWhile p = c :: u) (t : List Char) : (s ++ t).dropWhile p = c :: (u ++ t) := by
  rw [List.dropWhile_append, h]
  rfl

theorem skipBlanks_append_of_ne_nil {s : List Char} (h : skipBlanks s ≠ []) (t : List Char) :
    skipBlanks (s ++ t) = skipBlanks s ++ t := by
  obtain ⟨c, u, blanks⟩ := List.exists_cons_of_ne_nil h
  rw [blanks, List.cons_append]
  exact dropWhile_append_of_cons blanks t

theorem skipBlanks_append_of_cons {s u : List Char} {c : Char} (h : skipBlanks s = c :: u)
    (t : List Char) : skipBlanks (s ++ t) = c :: (u ++ t) :=
  dropWhile_append_of_cons h t

theorem matchWord_append {w s r : List Char} (h : matchWord w s = .ok r) (t : List Char) :
    matchWord w (s ++ t) = .ok (r ++ t) := by
  induction w generalizing s with
  | nil =>
    cases h
    rw [matchWord]
  | cons c w ih =>
    cases s with
    | nil => cases h
    | cons d s =>
      rw [matchWord] at h
      rw [List.cons_append, matchWord]
      split at h
      next same => rw [if_pos same, ih h]
      next => cases h

/-! ### Strings -/

theorem readHex_append {s r : List Char} {n : Nat} (h : readHex s = .ok (n, r)) (t : List Char) :
    readHex (s ++ t) = .ok (n, r ++ t) := by
  unfold readHex at h
  split at h
  next a b c d rest =>
    split at h
    next quad =>
      cases h
      simp only [List.cons_append, readHex, quad]
    next => cases h
  next => simp at h

theorem readLowSurrogate_append {high : Nat} {s r : List Char} {c : Char}
    (h : readLowSurrogate high s = .ok (c, r)) (t : List Char) :
    readLowSurrogate high (s ++ t) = .ok (c, r ++ t) := by
  unfold readLowSurrogate at h
  split at h
  next => cases h
  next => cases h
  next rest =>
    split at h
    next => cases h
    next hex =>
      split at h
      next low =>
        obtain ⟨rfl, rfl⟩ := Prod.mk.inj (Except.ok.inj h)
        rw [List.cons_append, List.cons_append, readLowSurrogate, readHex_append hex]
        exact if_pos low
      next => cases h
  next => cases h

theorem readEscape_append {s r : List Char} {c : Char} (h : readEscape s = .ok (c, r))
    (t : List Char) : readEscape (s ++ t) = .ok (c, r ++ t) := by
  unfold readEscape at h
  split at h
  case h_10 =>
    split at h
    next => cases h
    next hex =>
      rw [List.cons_append, readEscape, readHex_append hex]
      dsimp only
      split at h
      next => cases h
      next notLow =>
        rw [if_neg notLow]
        split at h
        next high => rw [if_pos high, readLowSurrogate_append h]
        next single =>
          cases h
          rw [if_neg single]
  all_goals cases h
  all_goals rfl

theorem readText_append {acc s r : List Char} {x : String} (h : readText acc s = .ok (x, r))
    (t : List Char) : readText acc (s ++ t) = .ok (x, r ++ t) := by
  fun_induction readText acc s with
  | case1 => cases h
  | case2 =>
    cases h
    rw [List.cons_append, readText]
  | case3 => cases h
  | case4 _ _ _ _ escape ih =>
    rw [List.cons_append, readText_backslash (readEscape_append escape t), ih h]
  | case5 => cases h
  | case6 acc c rest quote backslash plain ih =>
    rw [List.cons_append, readText, if_neg plain, ih h]
    · exact quote
    · exact backslash

theorem skipEscape_append {s r : List Char} (h : skipEscape s = .ok r) (t : List Char) :
    skipEscape (s ++ t) = .ok (r ++ t) := by
  unfold skipEscape at h
  split at h
  next => cases h
  next rest =>
    obtain ⟨⟨n, r'⟩, hex, rfl⟩ := except_map_eq_ok_iff.mp h
    simp only [List.cons_append, skipEscape, readHex_append hex, Except.map]
  next c rest other =>
    split at h
    next known =>
      cases h
      rw [List.cons_append, skipEscape, if_pos known]
      exact other
    next => cases h

theorem skipText_append {s r : List Char} (h : skipText s = .ok r) (t : List Char) :
    skipText (s ++ t) = .ok (r ++ t) := by
  fun_induction skipText s with
  | case1 => cases h
  | case2 =>
    cases h
    rw [List.cons_append, skipText]
  | case3 => cases h
  | case4 _ _ escape ih =>
    rw [List.cons_append, skipText_escape (skipEscape_append escape t), ih h]
  | case5 => cases h
  | case6 c rest quote backslash plain ih =>
    rw [List.cons_append, skipText, if_neg plain, ih h]
    · exact quote
    · exact backslash

/-! ### Numbers -/

theorem ne_nil_of_length_le {s r : List Char} (h : r.length ≤ s.length) (ne : r ≠ []) : s ≠ [] := by
  rintro rfl
  exact ne (List.length_eq_zero_iff.mp (Nat.le_zero.mp h))

theorem spanDigits_append_of_ne_nil {s ds r : List Char} (h : spanDigits s = (ds, r)) (ne : r ≠ [])
    (t : List Char) : spanDigits (s ++ t) = (ds, r ++ t) := by
  obtain ⟨front, back⟩ := Prod.mk.inj h
  obtain ⟨c, u, rfl⟩ := List.exists_cons_of_ne_nil ne
  have shorter : (s.takeWhile isDigit).length ≠ s.length := by
    have whole := congrArg List.length (List.takeWhile_append_dropWhile (p := isDigit) (l := s))
    rw [List.length_append, back, List.length_cons] at whole
    omega
  rw [spanDigits, List.takeWhile_append, if_neg shorter, front, dropWhile_append_of_cons back]
  rfl

theorem map_pair_append {ε α : Type} {x : Except ε α} {a : α} {r : List Char}
    (h : x.map (·, r) = .ok (a, r)) (t : List Char) : x.map (·, r ++ t) = .ok (a, r ++ t) := by
  obtain ⟨b, value, same⟩ := except_map_eq_ok_iff.mp h
  cases same
  rw [value]
  rfl

/-- The digits of an exponent after its sign. -/
def readPower (negative : Bool) (n : Nat) (e : Int) (minus : Bool) (s : List Char) :
    Except SyntaxError (Number × List Char) :=
  match spanDigits s with
  | ([], rest) => .error (noDigit rest)
  | (digits, rest) => (finishExponent negative n e minus digits).map (·, rest)

theorem readPower_append {negative minus : Bool} {n : Nat} {e : Int} {s r : List Char} {v : Number}
    (h : readPower negative n e minus s = .ok (v, r)) (ne : r ≠ []) (t : List Char) :
    readPower negative n e minus (s ++ t) = .ok (v, r ++ t) := by
  unfold readPower at h
  split at h
  next => cases h
  next ds rest some digits =>
    have same := snd_of_map_eq_ok h
    subst same
    rw [readPower, spanDigits_append_of_ne_nil digits ne]
    cases ds with
    | nil => exact absurd rfl some
    | cons d ds => exact map_pair_append h t

theorem readExponent_of_unsigned {c : Char} (plus : c ≠ '+') (minus : c ≠ '-') (negative : Bool)
    (n : Nat) (e : Int) (s : List Char) :
    readExponent negative n e (c :: s) = readPower negative n e false (c :: s) := by
  unfold readExponent
  split
  next sign =>
    split at sign
    next same => cases same; exact absurd rfl plus
    next same => cases same; exact absurd rfl minus
    next =>
      cases sign
      rfl

theorem readExponent_append {negative : Bool} {n : Nat} {e : Int} {s r : List Char} {v : Number}
    (h : readExponent negative n e s = .ok (v, r)) (ne : r ≠ []) (t : List Char) :
    readExponent negative n e (s ++ t) = .ok (v, r ++ t) := by
  cases s with
  | nil => cases h
  | cons c u =>
    by_cases plus : c = '+'
    · subst plus
      have power : readPower negative n e false u = .ok (v, r) := h
      exact readPower_append power ne t
    by_cases minus : c = '-'
    · subst minus
      have power : readPower negative n e true u = .ok (v, r) := h
      exact readPower_append power ne t
    rw [readExponent_of_unsigned plus minus] at h
    rw [List.cons_append, readExponent_of_unsigned plus minus]
    exact readPower_append h ne t

theorem readTail_append {negative : Bool} {n : Nat} {e : Int} {s r : List Char} {v : Number}
    (h : readTail negative n e s = .ok (v, r)) (ne : r ≠ []) (t : List Char) :
    readTail negative n e (s ++ t) = .ok (v, r ++ t) := by
  unfold readTail at h
  split at h
  next => exact readExponent_append h ne t
  next => exact readExponent_append h ne t
  next e E =>
    have same := snd_of_map_eq_ok h
    subst same
    obtain ⟨c, u, rfl⟩ := List.exists_cons_of_ne_nil ne
    rw [List.cons_append, readTail]
    · exact map_pair_append h t
    · rintro u' ⟨⟩
      exact e u rfl
    · rintro u' ⟨⟩
      exact E u rfl

theorem readFraction_append {negative : Bool} {n dropped : Nat} {s r : List Char} {v : Number}
    (h : readFraction negative n dropped s = .ok (v, r)) (ne : r ≠ []) (t : List Char) :
    readFraction negative n dropped (s ++ t) = .ok (v, r ++ t) := by
  unfold readFraction at h
  split at h
  next u =>
    split at h
    next => cases h
    next ds rest some digits =>
      have more := ne_nil_of_length_le (length_readTail_le h) ne
      rw [List.cons_append, readFraction, spanDigits_append_of_ne_nil digits more]
      cases ds with
      | nil => exact absurd rfl some
      | cons d ds => exact readTail_append h ne t
  next => exact readExponent_append h ne t
  next => exact readExponent_append h ne t
  next point e E =>
    have same : r = s := by
      split at h
      next => cases h; rfl
      next => exact snd_of_map_eq_ok h
    subst same
    obtain ⟨c, u, rfl⟩ := List.exists_cons_of_ne_nil ne
    rw [List.cons_append, readFraction]
    · split at h
      next none =>
        cases h
        exact if_pos none
      next some => exact (if_neg some).trans (map_pair_append h t)
    · rintro u' ⟨⟩
      exact point u rfl
    · rintro u' ⟨⟩
      exact e u rfl
    · rintro u' ⟨⟩
      exact E u rfl

theorem readUnsigned_append {negative : Bool} {s r : List Char} {v : Number}
    (h : readUnsigned negative s = .ok (v, r)) (ne : r ≠ []) (t : List Char) :
    readUnsigned negative (s ++ t) = .ok (v, r ++ t) := by
  unfold readUnsigned at h
  split at h
  next => cases h
  next => cases h
  next ds rest empty zero digits =>
    have more := ne_nil_of_length_le (length_readFraction_le h) ne
    unfold readUnsigned
    rw [spanDigits_append_of_ne_nil digits more]
    split
    next same => cases same; exact (empty rfl).elim
    next same => cases same; exact (zero _ _ rfl).elim
    next same => cases same; exact readFraction_append h ne t

theorem readNumber_append {s r : List Char} {v : Number} (h : readNumber s = .ok (v, r))
    (ne : r ≠ []) (t : List Char) : readNumber (s ++ t) = .ok (v, r ++ t) := by
  unfold readNumber at h
  split at h
  next => exact readUnsigned_append h ne t
  next minus =>
    have read := readUnsigned_append h ne t
    cases s with
    | nil => cases h
    | cons c u =>
      rw [List.cons_append, readNumber]
      · exact read
      · rintro u' ⟨⟩
        exact minus u rfl

theorem skipDigits_append {s r : List Char} (h : skipDigits s = .ok r) (ne : r ≠ [])
    (t : List Char) : skipDigits (s ++ t) = .ok (r ++ t) := by
  unfold skipDigits at h
  split at h
  next => cases h
  next ds rest some digits =>
    cases h
    exact skipDigits_of_spanDigits (spanDigits_append_of_ne_nil digits ne t) fun none => some none

theorem skipExponent_append {s r : List Char} (h : skipExponent s = .ok r) (ne : r ≠ [])
    (t : List Char) : skipExponent (s ++ t) = .ok (r ++ t) := by
  unfold skipExponent at h
  split at h
  next => exact skipDigits_append h ne t
  next => exact skipDigits_append h ne t
  next plus minus =>
    have skipped := skipDigits_append h ne t
    cases s with
    | nil => cases h
    | cons c u =>
      rw [List.cons_append, skipExponent]
      · exact skipped
      · rintro u' ⟨⟩
        exact plus u rfl
      · rintro u' ⟨⟩
        exact minus u rfl

theorem skipTail_append {s r : List Char} (h : skipTail s = .ok r) (ne : r ≠ [])
    (t : List Char) : skipTail (s ++ t) = .ok (r ++ t) := by
  unfold skipTail at h
  split at h
  next => exact skipExponent_append h ne t
  next => exact skipExponent_append h ne t
  next e E =>
    cases h
    obtain ⟨c, u, rfl⟩ := List.exists_cons_of_ne_nil ne
    rw [List.cons_append, skipTail]
    · rintro u' ⟨⟩
      exact e u rfl
    · rintro u' ⟨⟩
      exact E u rfl

theorem skipFraction_append {s r : List Char} (h : skipFraction s = .ok r) (ne : r ≠ [])
    (t : List Char) : skipFraction (s ++ t) = .ok (r ++ t) := by
  unfold skipFraction at h
  split at h
  next =>
    split at h
    next => cases h
    next rest digits =>
      have more := ne_nil_of_length_le (length_skipTail_le h) ne
      rw [List.cons_append, skipFraction, skipDigits_append digits more]
      exact skipTail_append h ne t
  next point =>
    have skipped := skipTail_append h ne t
    cases s with
    | nil =>
      cases h
      exact absurd rfl ne
    | cons c u =>
      rw [List.cons_append, skipFraction]
      · exact skipped
      · rintro u' ⟨⟩
        exact point u rfl

theorem skipUnsigned_append {s r : List Char} (h : skipUnsigned s = .ok r) (ne : r ≠ [])
    (t : List Char) : skipUnsigned (s ++ t) = .ok (r ++ t) := by
  unfold skipUnsigned at h
  split at h
  next => cases h
  next => cases h
  next ds rest empty zero digits =>
    have more := ne_nil_of_length_le (length_skipFraction_le h) ne
    unfold skipUnsigned
    rw [spanDigits_append_of_ne_nil digits more]
    split
    next same => cases same; exact (empty rfl).elim
    next same => cases same; exact (zero _ _ rfl).elim
    next same => cases same; exact skipFraction_append h ne t

theorem skipNumber_append {s r : List Char} (h : skipNumber s = .ok r) (ne : r ≠ [])
    (t : List Char) : skipNumber (s ++ t) = .ok (r ++ t) := by
  unfold skipNumber at h
  split at h
  next => exact skipUnsigned_append h ne t
  next minus =>
    have skipped := skipUnsigned_append h ne t
    cases s with
    | nil => cases h
    | cons c u =>
      rw [List.cons_append, skipNumber]
      · exact skipped
      · rintro u' ⟨⟩
        exact minus u rfl

/-! ### Scalars -/

theorem readScalar_append {s r : List Char} {v : Value} (h : readScalar s = .ok (v, r))
    (ne : r ≠ []) (t : List Char) : readScalar (s ++ t) = .ok (v, r ++ t) := by
  unfold readScalar at h
  split at h
  next => cases h
  next =>
    obtain ⟨word, rfl⟩ := map_word_eq_ok_iff.mp h
    exact map_word_eq_ok_iff.mpr ⟨matchWord_append word t, rfl⟩
  next =>
    obtain ⟨word, rfl⟩ := map_word_eq_ok_iff.mp h
    exact map_word_eq_ok_iff.mpr ⟨matchWord_append word t, rfl⟩
  next =>
    obtain ⟨word, rfl⟩ := map_word_eq_ok_iff.mp h
    exact map_word_eq_ok_iff.mpr ⟨matchWord_append word t, rfl⟩
  next =>
    obtain ⟨x, read, rfl⟩ := map_pair_eq_ok_iff.mp h
    exact map_pair_eq_ok_iff.mpr ⟨x, readText_append read t, rfl⟩
  next c rest null true' false' quote =>
    split at h
    next number =>
      obtain ⟨x, read, rfl⟩ := map_pair_eq_ok_iff.mp h
      rw [List.cons_append, readScalar, if_pos number]
      · exact map_pair_eq_ok_iff.mpr ⟨x, readNumber_append read ne t, rfl⟩
      · exact null
      · exact true'
      · exact false'
      · exact quote
    next => cases h

theorem skipScalar_append {s r : List Char} (h : skipScalar s = .ok r) (ne : r ≠ [])
    (t : List Char) : skipScalar (s ++ t) = .ok (r ++ t) := by
  unfold skipScalar at h
  split at h
  next => cases h
  next => exact matchWord_append h t
  next => exact matchWord_append h t
  next => exact matchWord_append h t
  next => exact skipText_append h t
  next c rest null true' false' quote =>
    split at h
    next number =>
      rw [List.cons_append, skipScalar, if_pos number]
      · exact skipNumber_append h ne t
      · exact null
      · exact true'
      · exact false'
      · exact quote
    next => cases h

/-! ### Entries -/

def Next.append (t : List Char) : Next → Next
  | .closed rest => .closed (rest ++ t)
  | .entry rest => .entry (rest ++ t)

theorem nextItem_append {i : Nat} {s : List Char} {next : Next} (h : nextItem i s = .ok next)
    (t : List Char) : nextItem i (s ++ t) = .ok (next.append t) := by
  cases next with
  | closed r =>
    rw [nextItem_eq_closed_iff] at h
    exact nextItem_eq_closed_iff.mpr (skipBlanks_append_of_cons h t)
  | entry r =>
    obtain ⟨⟨c, u, rfl, other⟩, place⟩ := nextItem_eq_entry_iff.mp h
    refine nextItem_eq_entry_iff.mpr ⟨⟨c, u ++ t, rfl, other⟩, ?_⟩
    rcases place with ⟨first, blanks⟩ | ⟨later, v, comma, blanks⟩
    · exact .inl ⟨first, skipBlanks_append_of_cons blanks t⟩
    · exact .inr ⟨later, v ++ t, skipBlanks_append_of_cons comma t,
        skipBlanks_append_of_cons blanks t⟩

theorem closeArray_append {s r : List Char} (h : closeArray s = .ok r) (t : List Char) :
    closeArray (s ++ t) = .ok (r ++ t) := by
  rw [closeArray_eq_ok_iff] at h ⊢
  exact skipBlanks_append_of_cons h t

theorem nextMember_append {first : Bool} {s : List Char} {next : Next}
    (h : nextMember first s = .ok next) (t : List Char) :
    nextMember first (s ++ t) = .ok (next.append t) := by
  cases next with
  | closed r =>
    rw [nextMember_eq_closed_iff] at h
    exact nextMember_eq_closed_iff.mpr (skipBlanks_append_of_cons h t)
  | entry r =>
    refine nextMember_eq_entry_iff.mpr ?_
    rcases nextMember_eq_entry_iff.mp h with ⟨first, quote⟩ | ⟨later, u, comma, quote⟩
    · exact .inl ⟨first, skipBlanks_append_of_cons quote t⟩
    · exact .inr ⟨later, u ++ t, skipBlanks_append_of_cons comma t,
        skipBlanks_append_of_cons quote t⟩

theorem readColon_append {s r : List Char} (h : readColon s = .ok r) (t : List Char) :
    readColon (s ++ t) = .ok (r ++ t) := by
  rw [readColon_eq_ok_iff] at h ⊢
  exact skipBlanks_append_of_cons h t

theorem skipKey_append {s r : List Char} (h : skipKey s = .ok r) (t : List Char) :
    skipKey (s ++ t) = .ok (r ++ t) := by
  unfold skipKey at h
  split at h
  next => cases h
  next quote =>
    split at h
    next => cases h
    next key =>
      split at h
      next => cases h
      next colon =>
        cases h
        simp only [skipKey, skipBlanks_append_of_cons quote, skipText_append key,
          skipBlanks_append_of_cons colon]
      next => cases h
  next => cases h

theorem skipLead_append {e : Enclosure} {s r : List Char} (h : skipLead e s = .ok r)
    (t : List Char) : skipLead e (s ++ t) = .ok (r ++ t) := by
  cases e with
  | list =>
    cases h
    rfl
  | record => exact skipKey_append h t

/-! ### Skipped values -/

/-- Both directions of the mutual recursion at once, by the induction of `length_skip`. -/
theorem skip_append (n : Nat) :
    (∀ {outer : List Enclosure} {s r : List Char}, s.length ≤ n →
      skipValue outer s = .ok r → r ≠ [] → ∀ t, skipValue outer (s ++ t) = .ok (r ++ t)) ∧
    (∀ {comma : Bool} {enclosing : List Enclosure} {s r : List Char}, s.length ≤ n →
      skipRest comma enclosing s = .ok r → r ≠ [] →
        ∀ t, skipRest comma enclosing (s ++ t) = .ok (r ++ t)) := by
  induction n using Nat.strongRecOn with
  | ind n ih =>
    have value {outer : List Enclosure} {s r : List Char} (bound : s.length ≤ n)
        (h : skipValue outer s = .ok r) (ne : r ≠ []) (t : List Char) :
        skipValue outer (s ++ t) = .ok (r ++ t) := by
      obtain ⟨u, bracket, h⟩ | ⟨u, brace, h⟩ | ⟨u, scalar, h⟩ := skipValue_cases h
      · have shorter := length_of_skipBlanks_eq_cons bracket
        rw [skipValue_of_array (skipBlanks_append_of_cons bracket t)]
        exact (ih u.length (by omega)).2 (Nat.le_refl _) h ne t
      · have shorter := length_of_skipBlanks_eq_cons brace
        rw [skipValue_of_object (skipBlanks_append_of_cons brace t)]
        exact (ih u.length (by omega)).2 (Nat.le_refl _) h ne t
      · have shorter := Nat.lt_of_lt_of_le (length_skipScalar_lt scalar) (length_skipBlanks_le s)
        have more := ne_nil_of_length_le ((length_skip _).2 (Nat.le_refl _) h) ne
        have started : skipBlanks s ≠ [] := by
          intro blank
          rw [blank] at scalar
          cases scalar
        obtain ⟨c, rest, blanks⟩ := List.exists_cons_of_ne_nil started
        have longer : skipScalar (skipBlanks (s ++ t)) = .ok (u ++ t) := by
          rw [skipBlanks_append_of_cons blanks, ← List.cons_append, ← blanks]
          exact skipScalar_append scalar more t
        rw [skipValue_of_skipScalar longer]
        exact (ih u.length (by omega)).2 (Nat.le_refl _) h ne t
    refine ⟨value, fun {comma enclosing s r} bound h ne t => ?_⟩
    cases enclosing with
    | nil =>
      rw [skipRest] at h
      cases h
      rw [skipRest]
    | cons inner outer =>
      obtain ⟨u, closing, h⟩ | ⟨rfl, u, v, isComma, lead, h⟩ |
        ⟨rfl, c, u, v, blanks, entry, lead, h⟩ := skipRest_cases h
      · have shorter := length_of_skipBlanks_eq_cons closing
        rw [skipRest_of_closing (skipBlanks_append_of_cons closing t)]
        exact (ih u.length (by omega)).2 (Nat.le_refl _) h ne t
      · have shorter := length_of_skipBlanks_eq_cons isComma
        have near := length_skipLead_le lead
        rw [skipRest_of_comma (skipBlanks_append_of_cons isComma t) (skipLead_append lead t)]
        exact value (by omega) h ne t
      · have start := length_skipBlanks_le s
        have near := length_skipLead_le lead
        rw [← blanks] at near
        rw [skipRest_of_first (skipBlanks_append_of_cons blanks t) entry (skipLead_append lead t)]
        exact value (by omega) h ne t

theorem skipValue_append {outer : List Enclosure} {s r : List Char} (h : skipValue outer s = .ok r)
    (ne : r ≠ []) (t : List Char) : skipValue outer (s ++ t) = .ok (r ++ t) :=
  (skip_append _).1 (Nat.le_refl _) h ne t

/-! ### Readers -/

namespace Reader

variable {α β σ : Type} {reader : Reader α} {enough : List Char → Prop}

/-- What is read stays the same if the text goes on, as long as there was enough behind it. -/
def Steady (enough : List Char → Prop) (reader : Reader α) : Prop :=
  ∀ ⦃s : List Char⦄ ⦃a : α⦄ ⦃r : List Char⦄, reader.run s = .ok (a, r) → enough r →
    ∀ t, reader.run (s ++ t) = .ok (a, r ++ t)

/-- The end of what is read shows in what is read itself. -/
def SelfDelimiting (reader : Reader α) : Prop := reader.Steady fun _ => True

/-- The end of what is read shows at the latest in the character behind it. -/
def Delimited (reader : Reader α) : Prop := reader.Steady (· ≠ [])

theorem SelfDelimiting.steady (h : reader.SelfDelimiting) : reader.Steady enough :=
  fun _ _ _ run _ => h run trivial

namespace Steady

theorem map (h : reader.Steady enough) (f : α → β) : (reader.map f).Steady enough := by
  intro s b r run behind t
  obtain ⟨a, read, same⟩ := run_map_eq_ok_iff.mp run
  exact run_map_eq_ok_iff.mpr ⟨a, h read behind t, same⟩

theorem check (h : reader.Steady enough) (f : α → Except Cause β) :
    (reader.check f).Steady enough := by
  intro s b r run behind t
  obtain ⟨a, read, judged⟩ := run_check_eq_ok_iff.mp run
  exact run_check_eq_ok_iff.mpr ⟨a, h read behind t, judged⟩

end Steady

theorem readItems_append {item : Nat → σ → Option (Reader σ)}
    (h : ∀ i state reader, item i state = some reader → reader.Delimited) {i : Nat}
    {state state' : σ} {s r : List Char} (run : readItems item i state s = .ok (state', r))
    (t : List Char) : readItems item i state (s ++ t) = .ok (state', r ++ t) := by
  fun_induction readItems item i state s with
  | case1 => cases run
  | case2 i state s none rest close =>
    cases run
    rw [readItems_of_none none, closeArray_append close]
  | case3 => cases run
  | case4 i state s reader known rest next =>
    cases run
    exact readItems_of_closed known (nextItem_append next t)
  | case5 => cases run
  | case6 i state s reader known rest next state₁ rest₁ read ih =>
    have more : rest₁ ≠ [] :=
      List.ne_nil_of_length_pos (Nat.zero_lt_of_lt (length_readItems_lt run))
    rw [readItems_of_entry known (nextItem_append next t), h _ _ _ known read more t]
    exact ih run

theorem readMembers_append {keyPlace : Place} {member : σ → String → Except Cause (Reader σ)}
    (h : ∀ state key reader, member state key = .ok reader → reader.Delimited) {first : Bool}
    {state state' : σ} {s r : List Char}
    (run : readMembers keyPlace member first state s = .ok (state', r)) (t : List Char) :
    readMembers keyPlace member first state (s ++ t) = .ok (state', r ++ t) := by
  fun_induction readMembers keyPlace member first state s with
  | case1 => cases run
  | case2 first state s rest next =>
    cases run
    exact readMembers_of_closed (nextMember_append next t)
  | case3 => cases run
  | case4 => cases run
  | case5 => cases run
  | case6 => cases run
  | case7 first state s rest next key afterKey spelled reader known afterColon colon state₁ rest₁
      read ih =>
    have more : rest₁ ≠ [] :=
      List.ne_nil_of_length_pos (Nat.zero_lt_of_lt (length_readMembers_lt run))
    rw [readMembers_of_entry (nextMember_append next t) (readText_append spelled t)
      (readColon_append colon t), known]
    dsimp only
    rw [h _ _ _ known read more t]
    exact ih run

theorem selfDelimiting_items {item : Nat → σ → Option (Reader σ)}
    (h : ∀ i state reader, item i state = some reader → reader.Delimited) (state : σ) :
    (items item state).SelfDelimiting :=
  fun _ _ _ run _ => readItems_append h run

theorem selfDelimiting_members {member : σ → String → Except Cause (Reader σ)}
    (h : ∀ state key reader, member state key = .ok reader → reader.Delimited)
    (keyPlace : Place) (state : σ) : (members keyPlace member state).SelfDelimiting :=
  fun _ _ _ run _ => readMembers_append h run

theorem selfDelimiting_itemsOf (h : reader.Delimited) : (itemsOf reader).SelfDelimiting := by
  refine Steady.map (selfDelimiting_items ?_ []) _
  rintro i acc _ ⟨⟩
  exact h.map _

/-- Steadiness behind an opening bracket, if the bracket is accepted. -/
def SteadyBehind (enough : List Char → Prop) : Except Cause (Reader α) → Prop
  | .error _ => True
  | .ok reader => reader.Steady enough

theorem SteadyBehind.mono {next : Except Cause (Reader α)}
    (h : SteadyBehind (fun _ => True) next) : SteadyBehind enough next := by
  cases next with
  | error c => trivial
  | ok reader => exact SelfDelimiting.steady h

theorem Steady.dispatch {scalar : Value → Except Cause α} {list record : Except Cause (Reader α)}
    (scalars : ∀ v a, scalar v = .ok a → ∀ r, enough r → r ≠ [])
    (lists : SteadyBehind enough list) (records : SteadyBehind enough record) :
    (Reader.dispatch scalar list record).Steady enough := by
  intro s a r run behind t
  rw [run_dispatch_eq_ok_iff] at run ⊢
  rcases run with
    ⟨v, read, judged⟩ | ⟨u, reader, bracket, rfl, read⟩ | ⟨u, reader, brace, rfl, read⟩
  · have more := scalars v a judged r behind
    have blanks := ne_nil_of_length_le (Nat.le_of_lt (length_readScalar_lt read)) more
    refine .inl ⟨v, ?_, judged⟩
    rw [skipBlanks_append_of_ne_nil blanks]
    exact readScalar_append read more t
  · exact .inr (.inl ⟨u ++ t, reader, skipBlanks_append_of_cons bracket t, rfl,
      lists read behind t⟩)
  · exact .inr (.inr ⟨u ++ t, reader, skipBlanks_append_of_cons brace t, rfl,
      records read behind t⟩)

/-- Where scalars are refused, a closing bracket ends what is read. -/
theorem SelfDelimiting.enclosure {wanted : String} {list record : Except Cause (Reader α)}
    (lists : SteadyBehind (fun _ => True) list) (records : SteadyBehind (fun _ => True) record) :
    (Reader.dispatch (refuse wanted) list record).SelfDelimiting :=
  Steady.dispatch (by rintro _ _ ⟨⟩) lists records

namespace Delimited

theorem dispatch {scalar : Value → Except Cause α} {list record : Except Cause (Reader α)}
    (lists : SteadyBehind (fun _ => True) list) (records : SteadyBehind (fun _ => True) record) :
    (Reader.dispatch scalar list record).Delimited :=
  Steady.dispatch (fun _ _ _ _ more => more) lists.mono records.mono

theorem optional (h : reader.Delimited) : reader.optional.Delimited := by
  intro s o r run more t
  rw [run_optional_eq_ok_iff] at run ⊢
  rcases run with ⟨u, null, word, same⟩ | ⟨a, other, read, same⟩
  · exact .inl ⟨u ++ t, skipBlanks_append_of_cons null t, matchWord_append word t, same⟩
  · have blanks := ne_nil_of_length_le (Nat.le_of_lt (reader.shorter read)) more
    refine .inr ⟨a, ?_, ?_, same⟩
    · obtain ⟨c, u, start⟩ := List.exists_cons_of_ne_nil blanks
      rw [skipBlanks_append_of_ne_nil blanks, start]
      rintro v ⟨⟩
      exact other u start
    · rw [skipBlanks_append_of_ne_nil blanks]
      exact h read more t

theorem skip : Reader.skip.Delimited := by
  intro s a r run more t
  unfold Reader.skip at run ⊢
  dsimp only at run ⊢
  split at run
  next => cases run
  next skipped =>
    cases run
    rw [skipValue_append skipped more]

theorem scalar (wanted : String) (accept : Value → Except Cause α) :
    (Reader.scalar wanted accept).Delimited :=
  dispatch trivial trivial

theorem list (h : reader.Delimited) (room : Nat) : (Reader.list room reader).Delimited := by
  refine dispatch ?_ trivial
  cases room with
  | zero => trivial
  | succ room => exact selfDelimiting_itemsOf h

theorem value (room : Nat) : (Reader.value room).Delimited := by
  induction room with
  | zero => exact dispatch trivial trivial
  | succ room ih =>
    refine dispatch (Steady.map (selfDelimiting_itemsOf ih) _)
      (Steady.map (selfDelimiting_members ?_ [] []) _)
    rintro m key _ ⟨⟩
    exact ih.map _

end Delimited

end Reader

end InterfaceGen.Json
