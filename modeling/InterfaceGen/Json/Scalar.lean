import InterfaceGen.Json.Fault

/-!
# Words, strings and numbers of a JSON text

Each function here takes one lexical piece off the front of a text and returns what it spells
together with the rest, which is shorter.
-/

namespace InterfaceGen.Json

def isSeparator (c : Char) : Bool := c = ' ' || c = '\n' || c = '\t' || c = '\r'

def skipBlanks (s : List Char) : List Char := s.dropWhile isSeparator

theorem length_skipBlanks_le (s : List Char) : (skipBlanks s).length ≤ s.length :=
  (List.dropWhile_suffix _).length_le

/-! ### Words -/

def matchWord : List Char → List Char → Except SyntaxError (List Char)
  | [], s => .ok s
  | _ :: _, [] => .error .endInValue
  | w :: ws, c :: s => if c = w then matchWord ws s else .error .expectedWord

theorem length_matchWord_le {w s r : List Char} (h : matchWord w s = .ok r) :
    r.length ≤ s.length := by
  induction w generalizing s with
  | nil =>
    cases h
    exact Nat.le_refl _
  | cons w ws ih =>
    cases s with
    | nil => cases h
    | cons c s =>
      rw [matchWord] at h
      split at h
      · exact Nat.le_succ_of_le (ih h)
      · cases h

/-! ### Strings -/

def hexValue? (c : Char) : Option Nat :=
  if '0' ≤ c ∧ c ≤ '9' then some (c.toNat - 48)
  else if 'a' ≤ c ∧ c ≤ 'f' then some (c.toNat - 87)
  else if 'A' ≤ c ∧ c ≤ 'F' then some (c.toNat - 55)
  else none

def hexQuad? (a b c d : Char) : Option Nat := do
  let a ← hexValue? a
  let b ← hexValue? b
  let c ← hexValue? c
  let d ← hexValue? d
  return ((a * 16 + b) * 16 + c) * 16 + d

/-- Four hexadecimal digits. A text with fewer than four bytes left has ended too early. -/
def readHex : List Char → Except SyntaxError (Nat × List Char)
  | a :: b :: c :: d :: rest =>
    match hexQuad? a b c d with
    | some n => .ok (n, rest)
    | none => .error .invalidEscape
  | s => .error (if 4 ≤ (String.ofList s).utf8ByteSize then .invalidEscape else .endInString)

theorem length_readHex_lt {s r : List Char} {n : Nat} (h : readHex s = .ok (n, r)) :
    r.length < s.length := by
  unfold readHex at h
  split at h
  · split at h
    · simp only [Except.ok.injEq, Prod.mk.injEq] at h
      rw [← h.2]
      simp only [List.length_cons]
      omega
    · cases h
  · simp at h

/-- The second half of a surrogate pair, after the number of the first. -/
def readLowSurrogate (high : Nat) : List Char → Except SyntaxError (Char × List Char)
  | [] => .error .endInString
  | '\\' :: [] => .error .endInString
  | '\\' :: 'u' :: rest =>
    match readHex rest with
    | .error e => .error e
    | .ok (low, rest') =>
      if 0xDC00 ≤ low ∧ low ≤ 0xDFFF then
        .ok (Char.ofNat ((high - 0xD800) * 0x400 + (low - 0xDC00) + 0x10000), rest')
      else .error .loneSurrogate
  | _ => .error .unfinishedSurrogatePair

theorem length_readLowSurrogate_lt {high : Nat} {s r : List Char} {c : Char}
    (h : readLowSurrogate high s = .ok (c, r)) : r.length < s.length := by
  unfold readLowSurrogate at h
  split at h
  · cases h
  · cases h
  · split at h
    · cases h
    · next hx =>
      split at h
      · simp only [Except.ok.injEq, Prod.mk.injEq] at h
        have := length_readHex_lt hx
        rw [← h.2]
        simp only [List.length_cons]
        omega
      · cases h
  · cases h

def readEscape : List Char → Except SyntaxError (Char × List Char)
  | [] => .error .endInString
  | '"' :: rest => .ok ('"', rest)
  | '\\' :: rest => .ok ('\\', rest)
  | '/' :: rest => .ok ('/', rest)
  | 'b' :: rest => .ok ('\x08', rest)
  | 'f' :: rest => .ok ('\x0c', rest)
  | 'n' :: rest => .ok ('\n', rest)
  | 'r' :: rest => .ok ('\r', rest)
  | 't' :: rest => .ok ('\t', rest)
  | 'u' :: rest =>
    match readHex rest with
    | .error e => .error e
    | .ok (n, rest') =>
      if 0xDC00 ≤ n ∧ n ≤ 0xDFFF then .error .loneSurrogate
      else if 0xD800 ≤ n ∧ n ≤ 0xDBFF then readLowSurrogate n rest'
      else .ok (Char.ofNat n, rest')
  | _ => .error .invalidEscape

theorem length_readEscape_lt {s r : List Char} {c : Char} (h : readEscape s = .ok (c, r)) :
    r.length < s.length := by
  unfold readEscape at h
  split at h
  case h_10 =>
    split at h
    · cases h
    · next hx =>
      have hlt := length_readHex_lt hx
      split at h
      · cases h
      · split at h
        · have := length_readLowSurrogate_lt h
          simp only [List.length_cons]
          omega
        · cases h
          simp only [List.length_cons]
          omega
  all_goals cases h
  all_goals simp

/-- Reads a string after its opening quote; `acc` holds the characters so far, last first. -/
def readText (acc : List Char) (s : List Char) : Except SyntaxError (String × List Char) :=
  match s with
  | [] => .error .endInString
  | '"' :: rest => .ok (String.ofList acc.reverse, rest)
  | '\\' :: rest =>
    match _h : readEscape rest with
    | .error e => .error e
    | .ok (c, rest') => readText (c :: acc) rest'
  | c :: rest => if c.toNat < 0x20 then .error .controlCharacter else readText (c :: acc) rest
termination_by s.length
decreasing_by
  · have := length_readEscape_lt _h
    simp only [List.length_cons]
    omega
  · simp

theorem length_readText_lt {acc s r : List Char} {t : String}
    (h : readText acc s = .ok (t, r)) : r.length < s.length := by
  fun_induction readText acc s with
  | case1 => cases h
  | case2 =>
    cases h
    simp
  | case3 => cases h
  | case4 _ _ _ _ hx ih =>
    have := ih h
    have := length_readEscape_lt hx
    simp only [List.length_cons]
    omega
  | case5 => cases h
  | case6 _ _ _ _ _ _ ih =>
    have := ih h
    simp only [List.length_cons]
    omega

/-! ### Numbers -/

def isDigit (c : Char) : Bool := '0' ≤ c && c ≤ '9'

def digitValue (c : Char) : Nat := c.toNat - 48

def spanDigits (s : List Char) : List Char × List Char := (s.takeWhile isDigit, s.dropWhile isDigit)

theorem length_spanDigits_snd_le (s : List Char) : (spanDigits s).2.length ≤ s.length :=
  (List.dropWhile_suffix _).length_le

/-- Appends digits to a significand as long as it fits 64 bits. The second component
counts the digits taken; those after the first that does not fit are left out. -/
def accumulate (significand : Nat) : List Char → Nat × Nat
  | [] => (significand, 0)
  | d :: ds =>
    if significand * 10 + digitValue d < UInt64.size then
      let (n, taken) := accumulate (significand * 10 + digitValue d) ds
      (n, taken + 1)
    else (significand, 0)

/-- Powers of ten up to this exponent are finite. -/
def greatestPower : Nat := 308

def powerOfTen (k : Nat) : Float := Float.ofScientific 1 false k

/-- `f * 10 ^ e` with one multiplication or division by a power of ten, after as many divisions
by the greatest one as a very small exponent takes. The third such division already gives zero,
so three `steps` are enough. -/
def scaleByTen : Nat → Float → Int → Except SyntaxError Float
  | steps, f, e =>
    if 0 ≤ e then
      if e.toNat ≤ greatestPower then
        let product := f * powerOfTen e.toNat
        if product.isInf then .error .numberOutOfRange else .ok product
      else if f == 0 then .ok f else .error .numberOutOfRange
    else if (-e).toNat ≤ greatestPower then .ok (f / powerOfTen (-e).toNat)
    else
      match steps with
      | 0 => .ok f
      | steps + 1 =>
        if f == 0 then .ok f
        else scaleByTen steps (f / powerOfTen greatestPower) (e + greatestPower)

def floatOfParts (negative : Bool) (significand : Nat) (exponent : Int) :
    Except SyntaxError Number :=
  match scaleByTen 3 (UInt64.ofNat significand).toFloat exponent with
  | .error e => .error e
  | .ok f => .ok (.real (if negative then -f else f))

def greatestNegative : Nat := UInt64.size / 2

/-- An integer of at most 64 bits; a zero with a sign and whatever is larger are floating-point
numbers. -/
def integerOfParts (negative : Bool) (significand : Nat) : Number :=
  if negative then
    if 0 < significand ∧ significand ≤ greatestNegative then .integer (-(significand : Int))
    else .real (-(UInt64.ofNat significand).toFloat)
  else .integer significand

/-- Exponents of this size and more are not told apart. -/
def exponentLimit : Nat := UInt32.size / 2 - 1

def finishExponent (negative : Bool) (significand : Nat) (exponent : Int) (minus : Bool)
    (digits : List Char) : Except SyntaxError Number :=
  let power := digits.foldl (fun n d => n * 10 + digitValue d) 0
  if exponentLimit < power then
    if significand ≠ 0 ∧ !minus then .error .numberOutOfRange
    else .ok (.real (if negative then -0.0 else 0.0))
  else floatOfParts negative significand (if minus then exponent - power else exponent + power)

/-- Where a digit is wanted: the end of the text is told from any other character. -/
def noDigit : List Char → SyntaxError
  | [] => .endInValue
  | _ :: _ => .invalidNumber

def readExponent (negative : Bool) (significand : Nat) (exponent : Int) (s : List Char) :
    Except SyntaxError (Number × List Char) :=
  let (minus, s) := match s with
    | '+' :: rest => (false, rest)
    | '-' :: rest => (true, rest)
    | _ => (false, s)
  match spanDigits s with
  | ([], rest) => .error (noDigit rest)
  | (digits, rest) => (finishExponent negative significand exponent minus digits).map (·, rest)

def readTail (negative : Bool) (significand : Nat) (exponent : Int) (s : List Char) :
    Except SyntaxError (Number × List Char) :=
  match s with
  | 'e' :: rest => readExponent negative significand exponent rest
  | 'E' :: rest => readExponent negative significand exponent rest
  | _ => (floatOfParts negative significand exponent).map (·, s)

/-- What may follow the integer digits: a fraction, an exponent, or nothing. `dropped` counts
the integer digits that did not fit the significand. -/
def readFraction (negative : Bool) (significand dropped : Nat) (s : List Char) :
    Except SyntaxError (Number × List Char) :=
  match s with
  | '.' :: rest =>
    match spanDigits rest with
    | ([], rest) => .error (noDigit rest)
    | (digits, rest) =>
      let (significand, taken) := accumulate significand digits
      readTail negative significand ((dropped : Int) - taken) rest
  | 'e' :: rest => readExponent negative significand dropped rest
  | 'E' :: rest => readExponent negative significand dropped rest
  | _ =>
    if dropped = 0 then .ok (integerOfParts negative significand, s)
    else (floatOfParts negative significand dropped).map (·, s)

def readUnsigned (negative : Bool) (s : List Char) : Except SyntaxError (Number × List Char) :=
  match spanDigits s with
  | ([], rest) => .error (noDigit rest)
  | ('0' :: _ :: _, _) => .error .invalidNumber
  | (digits, rest) =>
    let (significand, taken) := accumulate 0 digits
    readFraction negative significand (digits.length - taken) rest

def readNumber : List Char → Except SyntaxError (Number × List Char)
  | '-' :: rest => readUnsigned true rest
  | s => readUnsigned false s

theorem length_spanDigits_snd_lt {s ds r : List Char} {d : Char}
    (h : spanDigits s = (d :: ds, r)) : r.length < s.length := by
  have happ : s = (d :: ds) ++ r := by
    rw [← List.takeWhile_append_dropWhile (p := isDigit) (l := s)]
    simp only [spanDigits, Prod.mk.injEq] at h
    rw [h.1, h.2]
  rw [happ, List.length_append, List.length_cons]
  omega

theorem length_spanDigits_snd_le_of_eq {s ds r : List Char} (h : spanDigits s = (ds, r)) :
    r.length ≤ s.length := by
  have := length_spanDigits_snd_le s
  rwa [h] at this

theorem snd_of_map_eq_ok {ε α : Type} {x : Except ε α} {a : α} {r t : List Char}
    (h : x.map (·, t) = .ok (a, r)) : r = t := by
  cases x with
  | error e => cases h
  | ok b =>
    cases h
    rfl

theorem length_readExponent_lt {negative : Bool} {n : Nat} {e : Int} {s r : List Char}
    {v : Number} (h : readExponent negative n e s = .ok (v, r)) : r.length < s.length := by
  unfold readExponent at h
  split at h
  next hs =>
    split at h
    next => cases h
    next hd =>
      have hr := snd_of_map_eq_ok h
      subst hr
      rename_i t _ ds _
      cases ds with
      | nil => simp_all
      | cons d ds =>
        have hlt := length_spanDigits_snd_lt hd
        split at hs <;> cases hs
        · simp only [List.length_cons]
          omega
        · simp only [List.length_cons]
          omega
        · exact hlt

theorem length_readTail_le {negative : Bool} {n : Nat} {e : Int} {s r : List Char} {v : Number}
    (h : readTail negative n e s = .ok (v, r)) : r.length ≤ s.length := by
  unfold readTail at h
  split at h
  · have := length_readExponent_lt h
    simp only [List.length_cons]
    omega
  · have := length_readExponent_lt h
    simp only [List.length_cons]
    omega
  · exact Nat.le_of_eq (congrArg _ (snd_of_map_eq_ok h))

theorem length_readFraction_le {negative : Bool} {n k : Nat} {s r : List Char} {v : Number}
    (h : readFraction negative n k s = .ok (v, r)) : r.length ≤ s.length := by
  unfold readFraction at h
  split at h
  · split at h
    · cases h
    · next hd =>
      have := length_readTail_le h
      have := length_spanDigits_snd_le_of_eq hd
      simp only [List.length_cons]
      omega
  · have := length_readExponent_lt h
    simp only [List.length_cons]
    omega
  · have := length_readExponent_lt h
    simp only [List.length_cons]
    omega
  · split at h
    · cases h
      exact Nat.le_refl _
    · exact Nat.le_of_eq (congrArg _ (snd_of_map_eq_ok h))

theorem length_readUnsigned_lt {negative : Bool} {s r : List Char} {v : Number}
    (h : readUnsigned negative s = .ok (v, r)) : r.length < s.length := by
  unfold readUnsigned at h
  split at h
  · cases h
  · cases h
  · next ds t _ _ hd =>
    have hle := length_readFraction_le h
    cases ds with
    | nil => simp_all
    | cons d ds => exact Nat.lt_of_le_of_lt hle (length_spanDigits_snd_lt hd)

theorem length_readNumber_lt {s r : List Char} {v : Number} (h : readNumber s = .ok (v, r)) :
    r.length < s.length := by
  unfold readNumber at h
  split at h
  · exact Nat.lt_succ_of_lt (length_readUnsigned_lt h)
  · exact length_readUnsigned_lt h

/-! ### Scalars -/

def readScalar : List Char → Except SyntaxError (Value × List Char)
  | [] => .error .endInValue
  | 'n' :: rest => (matchWord ['u', 'l', 'l'] rest).map (Value.null, ·)
  | 't' :: rest => (matchWord ['r', 'u', 'e'] rest).map (Value.boolean true, ·)
  | 'f' :: rest => (matchWord ['a', 'l', 's', 'e'] rest).map (Value.boolean false, ·)
  | '"' :: rest => (readText [] rest).map fun (t, r) => (Value.string t, r)
  | c :: rest =>
    if c = '-' || isDigit c then
      (readNumber (c :: rest)).map fun (n, r) => (Value.number n, r)
    else .error .expectedValue

theorem length_readScalar_lt {s r : List Char} {v : Value} (h : readScalar s = .ok (v, r)) :
    r.length < s.length := by
  unfold readScalar at h
  split at h
  · cases h
  · cases hw : matchWord ['u', 'l', 'l'] _ <;> rw [hw] at h <;> cases h
    exact Nat.lt_succ_of_le (length_matchWord_le hw)
  · cases hw : matchWord ['r', 'u', 'e'] _ <;> rw [hw] at h <;> cases h
    exact Nat.lt_succ_of_le (length_matchWord_le hw)
  · cases hw : matchWord ['a', 'l', 's', 'e'] _ <;> rw [hw] at h <;> cases h
    exact Nat.lt_succ_of_le (length_matchWord_le hw)
  · cases ht : readText [] _ <;> rw [ht] at h <;> cases h
    exact Nat.lt_succ_of_lt (length_readText_lt ht)
  · split at h
    · cases hn : readNumber _ <;> rw [hn] at h <;> cases h
      exact length_readNumber_lt hn
    · cases h

end InterfaceGen.Json
