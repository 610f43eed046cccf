import InterfaceGen.Json.Scalar

/-!
# Skipping a value

A value that nobody looks at is passed over without being decoded: its numbers may be out of
range, its escapes may be unpaired surrogates, and it may nest to any depth. Its brackets,
commas, words and the spelling of its numbers are still checked.
-/

namespace InterfaceGen.Json

inductive Enclosure
  | list
  | record
deriving DecidableEq

def Enclosure.closing : Enclosure → Char
  | .list => ']'
  | .record => '}'

def Enclosure.atEnd : Enclosure → SyntaxError
  | .list => .endInArray
  | .record => .endInObject

def Enclosure.commaWanted : Enclosure → SyntaxError
  | .list => .expectedCommaOrBracket
  | .record => .expectedCommaOrBrace

def skipEscape : List Char → Except SyntaxError (List Char)
  | [] => .error .endInString
  | 'u' :: rest => (readHex rest).map Prod.snd
  | c :: rest =>
    if c ∈ ['"', '\\', '/', 'b', 'f', 'n', 'r', 't'] then .ok rest else .error .invalidEscape

theorem length_skipEscape_lt {s r : List Char} (h : skipEscape s = .ok r) :
    r.length < s.length := by
  unfold skipEscape at h
  split at h
  · cases h
  · cases hx : readHex _ <;> rw [hx] at h <;> cases h
    exact Nat.lt_succ_of_lt (length_readHex_lt hx)
  · split at h <;> cases h
    simp

def skipText (s : List Char) : Except SyntaxError (List Char) :=
  match s with
  | [] => .error .endInString
  | '"' :: rest => .ok rest
  | '\\' :: rest =>
    match _h : skipEscape rest with
    | .error e => .error e
    | .ok rest' => skipText rest'
  | c :: rest => if c.toNat < 0x20 then .error .controlCharacter else skipText rest
termination_by s.length
decreasing_by
  · have := length_skipEscape_lt _h
    simp only [List.length_cons]
    omega
  · simp

theorem length_skipText_lt {s r : List Char} (h : skipText s = .ok r) : r.length < s.length := by
  fun_induction skipText s with
  | case1 => cases h
  | case2 =>
    cases h
    simp
  | case3 => cases h
  | case4 _ _ hx ih =>
    have := ih h
    have := length_skipEscape_lt hx
    simp only [List.length_cons]
    omega
  | case5 => cases h
  | case6 _ _ _ _ _ ih =>
    have := ih h
    simp only [List.length_cons]
    omega

def skipDigits (s : List Char) : Except SyntaxError (List Char) :=
  match spanDigits s with
  | ([], _) => .error .invalidNumber
  | (_, rest) => .ok rest

def skipExponent (s : List Char) : Except SyntaxError (List Char) :=
  match s with
  | '+' :: rest => skipDigits rest
  | '-' :: rest => skipDigits rest
  | _ => skipDigits s

def skipTail (s : List Char) : Except SyntaxError (List Char) :=
  match s with
  | 'e' :: rest => skipExponent rest
  | 'E' :: rest => skipExponent rest
  | _ => .ok s

def skipFraction (s : List Char) : Except SyntaxError (List Char) :=
  match s with
  | '.' :: rest =>
    match skipDigits rest with
    | .error e => .error e
    | .ok rest' => skipTail rest'
  | _ => skipTail s

def skipUnsigned (s : List Char) : Except SyntaxError (List Char) :=
  match spanDigits s with
  | ([], _) => .error .invalidNumber
  | ('0' :: _ :: _, _) => .error .invalidNumber
  | (_, rest) => skipFraction rest

def skipNumber : List Char → Except SyntaxError (List Char)
  | '-' :: rest => skipUnsigned rest
  | s => skipUnsigned s

theorem length_skipDigits_lt {s r : List Char} (h : skipDigits s = .ok r) :
    r.length < s.length := by
  unfold skipDigits at h
  split at h
  · cases h
  · next ds _ _ hd =>
    cases h
    cases ds with
    | nil => simp_all
    | cons d ds => exact length_spanDigits_snd_lt hd

theorem length_skipExponent_lt {s r : List Char} (h : skipExponent s = .ok r) :
    r.length < s.length := by
  unfold skipExponent at h
  split at h
  · exact Nat.lt_succ_of_lt (length_skipDigits_lt h)
  · exact Nat.lt_succ_of_lt (length_skipDigits_lt h)
  · exact length_skipDigits_lt h

theorem length_skipTail_le {s r : List Char} (h : skipTail s = .ok r) : r.length ≤ s.length := by
  unfold skipTail at h
  split at h
  · exact Nat.le_succ_of_le (Nat.le_of_lt (length_skipExponent_lt h))
  · exact Nat.le_succ_of_le (Nat.le_of_lt (length_skipExponent_lt h))
  · cases h
    exact Nat.le_refl _

theorem length_skipFraction_le {s r : List Char} (h : skipFraction s = .ok r) :
    r.length ≤ s.length := by
  unfold skipFraction at h
  split at h
  · split at h
    · cases h
    · next hd =>
      have := length_skipDigits_lt hd
      have := length_skipTail_le h
      simp only [List.length_cons]
      omega
  · exact length_skipTail_le h

theorem length_skipUnsigned_lt {s r : List Char} (h : skipUnsigned s = .ok r) :
    r.length < s.length := by
  unfold skipUnsigned at h
  split at h
  · cases h
  · cases h
  · next ds _ _ _ hd =>
    have hle := length_skipFraction_le h
    cases ds with
    | nil => simp_all
    | cons d ds => exact Nat.lt_of_le_of_lt hle (length_spanDigits_snd_lt hd)

theorem length_skipNumber_lt {s r : List Char} (h : skipNumber s = .ok r) :
    r.length < s.length := by
  unfold skipNumber at h
  split at h
  · exact Nat.lt_succ_of_lt (length_skipUnsigned_lt h)
  · exact length_skipUnsigned_lt h

def skipScalar : List Char → Except SyntaxError (List Char)
  | [] => .error .endInValue
  | 'n' :: rest => matchWord ['u', 'l', 'l'] rest
  | 't' :: rest => matchWord ['r', 'u', 'e'] rest
  | 'f' :: rest => matchWord ['a', 'l', 's', 'e'] rest
  | '"' :: rest => skipText rest
  | c :: rest =>
    if c = '-' || isDigit c then skipNumber (c :: rest) else .error .expectedValue

theorem length_skipScalar_lt {s r : List Char} (h : skipScalar s = .ok r) :
    r.length < s.length := by
  unfold skipScalar at h
  split at h
  · cases h
  · exact Nat.lt_succ_of_le (length_matchWord_le h)
  · exact Nat.lt_succ_of_le (length_matchWord_le h)
  · exact Nat.lt_succ_of_le (length_matchWord_le h)
  · exact Nat.lt_succ_of_lt (length_skipText_lt h)
  · split at h
    · exact length_skipNumber_lt h
    · cases h

def skipKey (s : List Char) : Except SyntaxError (List Char) :=
  match skipBlanks s with
  | [] => .error .endInObject
  | '"' :: rest =>
    match skipText rest with
    | .error e => .error e
    | .ok rest' =>
      match skipBlanks rest' with
      | [] => .error .endInObject
      | ':' :: rest'' => .ok rest''
      | _ => .error .expectedColon
  | _ => .error .keyNotString

theorem length_of_skipBlanks_eq_cons {s r : List Char} {c : Char} (h : skipBlanks s = c :: r) :
    r.length < s.length := by
  have := length_skipBlanks_le s
  rw [h] at this
  exact this

theorem length_skipKey_lt {s r : List Char} (h : skipKey s = .ok r) : r.length < s.length := by
  unfold skipKey at h
  split at h
  · cases h
  · next hs =>
    split at h
    · cases h
    · next ht =>
      have := length_skipText_lt ht
      have := length_of_skipBlanks_eq_cons hs
      split at h
      · cases h
      · next hc =>
        cases h
        have := length_of_skipBlanks_eq_cons hc
        omega
      · cases h
  · cases h

/-- What precedes the next value of an enclosure: nothing in an array, a key in an object. -/
def skipLead : Enclosure → List Char → Except SyntaxError (List Char)
  | .list, s => .ok s
  | .record, s => skipKey s

theorem length_skipLead_le {e : Enclosure} {s r : List Char} (h : skipLead e s = .ok r) :
    r.length ≤ s.length := by
  cases e with
  | list =>
    cases h
    exact Nat.le_refl _
  | record => exact Nat.le_of_lt (length_skipKey_lt h)

mutual

def skipValue (enclosing : List Enclosure) (s : List Char) : Except SyntaxError (List Char) :=
  match _h : skipBlanks s with
  | [] => .error .endInValue
  | '[' :: rest => skipRest false (.list :: enclosing) rest
  | '{' :: rest => skipRest false (.record :: enclosing) rest
  | c :: rest =>
    match _hs : skipScalar (c :: rest) with
    | .error e => .error e
    | .ok rest' => skipRest true enclosing rest'
termination_by 2 * s.length
decreasing_by
  · have := length_of_skipBlanks_eq_cons _h
    omega
  · have := length_of_skipBlanks_eq_cons _h
    omega
  · have := length_skipScalar_lt _hs
    have := length_skipBlanks_le s
    rw [_h] at this
    omega

/-- Passes over what is left of the open enclosures. After a value (`comma`) a comma or the
closing bracket must follow; after an opening bracket, a value or the closing bracket. -/
def skipRest (comma : Bool) (enclosing : List Enclosure) (s : List Char) :
    Except SyntaxError (List Char) :=
  match enclosing with
  | [] => .ok s
  | inner :: outer =>
    match _h : skipBlanks s with
    | [] => .error inner.atEnd
    | c :: rest =>
      if c = inner.closing then skipRest true outer rest
      else if comma then
        if c = ',' then
          match _hl : skipLead inner rest with
          | .error e => .error e
          | .ok rest' => skipValue (inner :: outer) rest'
        else .error inner.commaWanted
      else
        match _hl : skipLead inner (c :: rest) with
        | .error e => .error e
        | .ok rest' => skipValue (inner :: outer) rest'
termination_by 2 * s.length + 1
decreasing_by
  · have := length_of_skipBlanks_eq_cons _h
    omega
  · have := length_skipLead_le _hl
    have := length_of_skipBlanks_eq_cons _h
    omega
  · have := length_skipLead_le _hl
    have := length_skipBlanks_le s
    rw [_h] at this
    omega

end

theorem skipValue_cases {outer : List Enclosure} {s r : List Char}
    (h : skipValue outer s = .ok r) :
    (∃ t, skipBlanks s = '[' :: t ∧ skipRest false (.list :: outer) t = .ok r) ∨
      (∃ t, skipBlanks s = '{' :: t ∧ skipRest false (.record :: outer) t = .ok r) ∨
        ∃ t, skipScalar (skipBlanks s) = .ok t ∧ skipRest true outer t = .ok r := by
  rw [skipValue] at h
  split at h
  next => cases h
  next t bracket => exact .inl ⟨t, bracket, h⟩
  next t brace => exact .inr (.inl ⟨t, brace, h⟩)
  next blanks =>
    split at h
    next => cases h
    next t scalar =>
      rw [← blanks] at scalar
      exact .inr (.inr ⟨t, scalar, h⟩)

theorem skipRest_cases {comma : Bool} {inner : Enclosure} {outer : List Enclosure}
    {s r : List Char} (h : skipRest comma (inner :: outer) s = .ok r) :
    (∃ t, skipBlanks s = inner.closing :: t ∧ skipRest true outer t = .ok r) ∨
      (comma = true ∧ ∃ t u, skipBlanks s = ',' :: t ∧ skipLead inner t = .ok u ∧
        skipValue (inner :: outer) u = .ok r) ∨
      (comma = false ∧ ∃ c t u, skipBlanks s = c :: t ∧ c ≠ inner.closing ∧
        skipLead inner (c :: t) = .ok u ∧ skipValue (inner :: outer) u = .ok r) := by
  rw [skipRest] at h
  split at h
  next => cases h
  next c t blanks =>
    split at h
    next closing =>
      rw [closing] at blanks
      exact .inl ⟨t, blanks, h⟩
    next entry =>
      split at h
      next later =>
        split at h
        next isComma =>
          split at h
          next => cases h
          next u lead =>
            rw [isComma] at blanks
            exact .inr (.inl ⟨later, t, u, blanks, lead, h⟩)
        next => cases h
      next first =>
        split at h
        next => cases h
        next u lead =>
          exact .inr (.inr ⟨Bool.not_eq_true _ ▸ first, c, t, u, blanks, entry, lead, h⟩)

/-- Both directions of the mutual recursion at once, by induction on what is left to read. What
follows a value is shorter, but a value may begin where the enclosure goes on, so values come first
at every length. -/
theorem length_skip (n : Nat) :
    (∀ {outer : List Enclosure} {s r : List Char}, s.length ≤ n →
      skipValue outer s = .ok r → r.length < s.length) ∧
    (∀ {comma : Bool} {enclosing : List Enclosure} {s r : List Char}, s.length ≤ n →
      skipRest comma enclosing s = .ok r → r.length ≤ s.length) := by
  induction n using Nat.strongRecOn with
  | ind n ih =>
    have value {outer : List Enclosure} {s r : List Char} (bound : s.length ≤ n)
        (h : skipValue outer s = .ok r) : r.length < s.length := by
      obtain ⟨t, bracket, h⟩ | ⟨t, brace, h⟩ | ⟨t, scalar, h⟩ := skipValue_cases h
      · have shorter := length_of_skipBlanks_eq_cons bracket
        exact Nat.lt_of_le_of_lt ((ih t.length (by omega)).2 (Nat.le_refl _) h) shorter
      · have shorter := length_of_skipBlanks_eq_cons brace
        exact Nat.lt_of_le_of_lt ((ih t.length (by omega)).2 (Nat.le_refl _) h) shorter
      · have shorter := Nat.lt_of_lt_of_le (length_skipScalar_lt scalar) (length_skipBlanks_le s)
        exact Nat.lt_of_le_of_lt ((ih t.length (by omega)).2 (Nat.le_refl _) h) shorter
    refine ⟨value, fun {comma enclosing s r} bound h => ?_⟩
    cases enclosing with
    | nil =>
      rw [skipRest] at h
      cases h
      exact Nat.le_refl _
    | cons inner outer =>
      obtain ⟨t, closing, h⟩ | ⟨-, t, u, isComma, lead, h⟩ | ⟨-, c, t, u, blanks, -, lead, h⟩ :=
        skipRest_cases h
      · have shorter := length_of_skipBlanks_eq_cons closing
        have rest := (ih t.length (by omega)).2 (Nat.le_refl _) h
        omega
      · have shorter := length_of_skipBlanks_eq_cons isComma
        have near := length_skipLead_le lead
        have rest := value (by omega) h
        omega
      · have start := length_skipBlanks_le s
        have near := length_skipLead_le lead
        rw [← blanks] at near
        have rest := value (by omega) h
        omega

theorem length_skipValue_lt {enclosing : List Enclosure} {s r : List Char}
    (h : skipValue enclosing s = .ok r) : r.length < s.length :=
  (length_skip _).1 (Nat.le_refl _) h

end InterfaceGen.Json
