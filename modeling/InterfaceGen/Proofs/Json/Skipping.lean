import InterfaceGen.Proofs.Json.Spelling

/-!
# What is read can be passed over

Passing over a value asks less of a text than reading it does. Wherever a text spells a document,
whatever its depth, the document is passed over and the same text is left.
-/

namespace InterfaceGen.Json

/-! ### Strings -/

theorem skipText_escape {s r : List Char} (h : skipEscape s = .ok r) :
    skipText ('\\' :: s) = skipText r := by
  rw [skipText]
  split
  next e => rw [h] at e; cases e
  next e => rw [h] at e; cases e; rfl

theorem skipText_hex {s r : List Char} {n : Nat} (h : readHex s = .ok (n, r)) :
    skipText ('\\' :: 'u' :: s) = skipText r := by
  apply skipText_escape
  simp only [skipEscape, h, Except.map]

/-- A pair of surrogates is one escape to a reader and two to be passed over. -/
theorem skipText_of_readLowSurrogate {high : Nat} {s r : List Char} {c : Char}
    (h : readLowSurrogate high s = .ok (c, r)) : skipText s = skipText r := by
  unfold readLowSurrogate at h
  split at h
  next => cases h
  next => cases h
  next =>
    split at h
    next => cases h
    next hex =>
      split at h
      next =>
        simp only [Except.ok.injEq, Prod.mk.injEq] at h
        rw [← h.2]
        exact skipText_hex hex
      next => cases h
  next => cases h

theorem skipText_of_readEscape {s r : List Char} {c : Char} (h : readEscape s = .ok (c, r)) :
    skipText ('\\' :: s) = skipText r := by
  unfold readEscape at h
  split at h
  case h_10 =>
    split at h
    next => cases h
    next hex =>
      split at h
      next => cases h
      next =>
        split at h
        next => rw [skipText_hex hex, skipText_of_readLowSurrogate h]
        next =>
          cases h
          exact skipText_hex hex
  all_goals cases h
  all_goals exact skipText_escape (by simp [skipEscape])

theorem skipText_of_readText {acc s r : List Char} {t : String} (h : readText acc s = .ok (t, r)) :
    skipText s = .ok r := by
  fun_induction readText acc s with
  | case1 => cases h
  | case2 =>
    cases h
    rw [skipText]
  | case3 => cases h
  | case4 _ _ _ _ escape ih => rw [skipText_of_readEscape escape, ih h]
  | case5 => cases h
  | case6 acc c rest quote backslash plain ih =>
    rw [skipText, if_neg plain, ih h]
    · exact quote
    · exact backslash

/-! ### Numbers -/

theorem skipDigits_of_spanDigits {s ds r : List Char} (h : spanDigits s = (ds, r)) (ne : ds ≠ []) :
    skipDigits s = .ok r := by
  unfold skipDigits
  rw [h]
  cases ds with
  | nil => exact absurd rfl ne
  | cons d ds => rfl

theorem skipExponent_of_readExponent {negative : Bool} {n : Nat} {e : Int} {s r : List Char}
    {v : Number} (h : readExponent negative n e s = .ok (v, r)) : skipExponent s = .ok r := by
  unfold readExponent at h
  split at h
  next minus t sign =>
    split at h
    next => cases h
    next ds rest ne digits =>
      have same := snd_of_map_eq_ok h
      subst same
      have skipped : skipDigits t = .ok r := skipDigits_of_spanDigits digits ne
      split at sign <;> cases sign
      next => exact skipped
      next => exact skipped
      next plus minus =>
        rw [skipExponent, skipped]
        · exact plus
        · exact minus

theorem skipTail_of_readTail {negative : Bool} {n : Nat} {e : Int} {s r : List Char} {v : Number}
    (h : readTail negative n e s = .ok (v, r)) : skipTail s = .ok r := by
  unfold readTail at h
  split at h
  next => exact skipExponent_of_readExponent h
  next => exact skipExponent_of_readExponent h
  next e E =>
    rw [snd_of_map_eq_ok h, skipTail]
    · exact e
    · exact E

theorem skipFraction_of_readFraction {negative : Bool} {n dropped : Nat} {s r : List Char}
    {v : Number} (h : readFraction negative n dropped s = .ok (v, r)) : skipFraction s = .ok r := by
  unfold readFraction at h
  split at h
  next rest =>
    split at h
    next => cases h
    next ds rest' ne digits =>
      have skipped : skipDigits rest = .ok rest' := skipDigits_of_spanDigits digits ne
      rw [skipFraction, skipped]
      exact skipTail_of_readTail h
  next => exact skipExponent_of_readExponent h
  next => exact skipExponent_of_readExponent h
  next point e E =>
    have same : r = s := by
      split at h
      next => cases h; rfl
      next => exact snd_of_map_eq_ok h
    rw [skipFraction, skipTail, same]
    · exact e
    · exact E
    · exact point

theorem skipUnsigned_of_readUnsigned {negative : Bool} {s r : List Char} {v : Number}
    (h : readUnsigned negative s = .ok (v, r)) : skipUnsigned s = .ok r := by
  unfold readUnsigned at h
  split at h
  next => cases h
  next => cases h
  next ds rest empty zero digits =>
    unfold skipUnsigned
    rw [digits]
    split
    next same => cases same; exact (empty rfl).elim
    next same => cases same; exact (zero _ _ rfl).elim
    next same => cases same; exact skipFraction_of_readFraction h

theorem skipNumber_of_readNumber {s r : List Char} {v : Number} (h : readNumber s = .ok (v, r)) :
    skipNumber s = .ok r := by
  unfold readNumber at h
  split at h
  next => exact skipUnsigned_of_readUnsigned h
  next minus =>
    rw [skipNumber, skipUnsigned_of_readUnsigned h]
    exact minus

theorem skipScalar_of_readScalar {s r : List Char} {v : Value} (h : readScalar s = .ok (v, r)) :
    skipScalar s = .ok r := by
  unfold readScalar at h
  split at h
  next => cases h
  next => exact (map_word_eq_ok_iff.mp h).1
  next => exact (map_word_eq_ok_iff.mp h).1
  next => exact (map_word_eq_ok_iff.mp h).1
  next =>
    obtain ⟨_, read, -⟩ := map_pair_eq_ok_iff.mp h
    exact skipText_of_readText read
  next c rest n t f quote =>
    split at h
    next number =>
      obtain ⟨_, read, -⟩ := map_pair_eq_ok_iff.mp h
      rw [skipScalar, if_pos number, skipNumber_of_readNumber read]
      · exact n
      · exact t
      · exact f
      · exact quote
    next => cases h

theorem skipScalar_bracket (t : List Char) : skipScalar ('[' :: t) = .error .expectedValue := rfl

theorem skipScalar_brace (t : List Char) : skipScalar ('{' :: t) = .error .expectedValue := rfl

/-! ### Entries -/

theorem skipLead_of_member {s t u r : List Char} {name : String} (quote : skipBlanks s = '"' :: t)
    (key : readText [] t = .ok (name, u)) (colon : readColon u = .ok r) :
    skipLead .record s = .ok r := by
  simp only [skipLead, skipKey, quote, skipText_of_readText key, readColon_eq_ok_iff.mp colon]

/-! ### Values -/

section enclosures

variable {inner : Enclosure} {outer : List Enclosure} {s t u r : List Char}

theorem skipRest_of_closing {comma : Bool} (h : skipBlanks s = inner.closing :: r) :
    skipRest comma (inner :: outer) s = skipRest true outer r := by
  rw [skipRest]
  split
  next e => rw [h] at e; cases e
  next e => rw [h] at e; cases e; rw [if_pos rfl]

theorem skipRest_of_first {c : Char} (h : skipBlanks s = c :: t) (entry : c ≠ inner.closing)
    (lead : skipLead inner (c :: t) = .ok u) :
    skipRest false (inner :: outer) s = skipValue (inner :: outer) u := by
  rw [skipRest]
  split
  next e => rw [h] at e; cases e
  next e =>
    rw [h] at e
    cases e
    rw [if_neg entry, if_neg (by simp)]
    split
    next e => rw [lead] at e; cases e
    next e => rw [lead] at e; cases e; rfl

theorem skipRest_of_comma (h : skipBlanks s = ',' :: t) (lead : skipLead inner t = .ok u) :
    skipRest true (inner :: outer) s = skipValue (inner :: outer) u := by
  have entry : ',' ≠ inner.closing := by cases inner <;> decide
  rw [skipRest]
  split
  next e => rw [h] at e; cases e
  next e =>
    rw [h] at e
    cases e
    rw [if_neg entry, if_pos rfl, if_pos rfl]
    split
    next e => rw [lead] at e; cases e
    next e => rw [lead] at e; cases e; rfl

theorem skipValue_of_array (h : skipBlanks s = '[' :: t) :
    skipValue outer s = skipRest false (.list :: outer) t := by
  rw [skipValue]
  split
  next e => rw [h] at e; cases e
  next e => rw [h] at e; cases e; rfl
  next e => rw [h] at e; cases e
  next bracket _ e => rw [h] at e; cases e; exact (bracket rfl).elim

theorem skipValue_of_object (h : skipBlanks s = '{' :: t) :
    skipValue outer s = skipRest false (.record :: outer) t := by
  rw [skipValue]
  split
  next e => rw [h] at e; cases e
  next e => rw [h] at e; cases e
  next e => rw [h] at e; cases e; rfl
  next _ brace e => rw [h] at e; cases e; exact (brace rfl).elim

theorem skipValue_of_skipScalar (h : skipScalar (skipBlanks s) = .ok r) :
    skipValue outer s = skipRest true outer r := by
  rw [skipValue]
  split
  next e => rw [e] at h; cases h
  next e => rw [e, skipScalar_bracket] at h; cases h
  next e => rw [e, skipScalar_brace] at h; cases h
  next e =>
    rw [e] at h
    split
    next e => rw [h] at e; cases e
    next e => rw [h] at e; cases e; rfl

theorem skipValue_of_scalar {v : Value} (h : readScalar (skipBlanks s) = .ok (v, r)) :
    skipValue outer s = skipRest true outer r :=
  skipValue_of_skipScalar (skipScalar_of_readScalar h)

end enclosures

/-- A document is passed over in whatever enclosures it stands. -/
theorem skipValue_of_spells {n : Nat} {s r : List Char} {d : Value} (h : Spells n s d r)
    (outer : List Enclosure) : skipValue outer s = skipRest true outer r := by
  induction n generalizing s d r outer with
  | zero =>
    cases h with
    | scalar h => exact skipValue_of_scalar h
    | array _ read => exact read.elim
    | object _ read => exact read.elim
  | succ n ih =>
    -- Between brackets a comma is wanted before every item but the first, which `skipRest` is told.
    have items {i : Nat} {s r : List Char} {vs : List Value} (h : Items (Spells n) i s vs r) :
        skipRest (i != 0) (.list :: outer) s = skipRest true outer r := by
      induction h with
      | closed next => exact skipRest_of_closing (nextItem_eq_closed_iff.mp next)
      | @entry i s t u r v vs next here _ rest =>
        rw [← rest]
        obtain ⟨⟨c, t', rfl, ne⟩, ⟨rfl, blanks⟩ | ⟨later, t', comma, blanks⟩⟩ :=
          nextItem_eq_entry_iff.mp next
        · have entry : c ≠ Enclosure.list.closing := ne
          rw [bne_self_eq_false, skipRest_of_first blanks entry rfl, ih here]
          rfl
        · rw [← blanks, spells_skipBlanks_iff] at here
          rw [bne_iff_ne.mpr later, skipRest_of_comma comma rfl, ih here]
          rfl
    have members {first : Bool} {s r : List Char} {ms : List (String × Value)}
        (h : Members (Spells n) first s ms r) :
        skipRest (!first) (.record :: outer) s = skipRest true outer r := by
      induction h with
      | closed next => exact skipRest_of_closing (nextMember_eq_closed_iff.mp next)
      | @entry _ s t u v w r name x ms next key colon here _ rest =>
        rw [← rest]
        rcases nextMember_eq_entry_iff.mp next with ⟨rfl, quote⟩ | ⟨rfl, t', comma, quote⟩
        · have lead := skipLead_of_member (skipBlanks_cons (by decide) t) key colon
          rw [Bool.not_true, skipRest_of_first quote (by decide) lead, ih here]
          rfl
        · have lead := skipLead_of_member quote key colon
          rw [Bool.not_false, skipRest_of_comma comma lead, ih here]
    cases h with
    | scalar h => exact skipValue_of_scalar h
    | array bracket read =>
      rw [skipValue_of_array bracket]
      exact items read
    | object brace read =>
      rw [skipValue_of_object brace]
      exact members read

theorem Reader.Reads.skip (n : Nat) : Reader.skip.Reads (Spells n) fun _ _ => True := by
  intro s d r spelled a rest
  have skipped : skipValue [] s = .ok r := by
    rw [skipValue_of_spells spelled, skipRest]
  unfold Reader.skip
  dsimp only
  rw [skipped]
  simp [eq_comm]

end InterfaceGen.Json
