import InterfaceGen.Json.Scalar
import InterfaceGen.Text.Blank

/-!
# Tokens of a query

A query is cut into tokens, each as long as possible. Between tokens there may be blanks and
comments.
-/

namespace InterfaceGen.Query

inductive Token
  | word (name : String)
  | variable (name : String)
  | field (name : String)
  | number (text : List Char)
  | string (s : String)
  | symbol (s : String)
deriving DecidableEq

/-! ### Between tokens -/

inductive Gap
  | blank
  /-- Inside a comment, after an odd or an even number of backslashes and perhaps one carriage
  return. Behind an odd number the end of the line does not end the comment. -/
  | comment (odd afterReturn : Bool)

namespace Gap

def commentAfter (odd afterReturn : Bool) (c : Char) : Gap :=
  if c = '\\' then .comment (afterReturn || !odd) false
  else if c = '\r' then .comment (odd && !afterReturn) true
  else .comment false false

end Gap

def skipGap : Gap → List Char → List Char
  | _, [] => []
  | .blank, c :: rest =>
    if Text.isBlank c then skipGap .blank rest
    else if c = '#' then skipGap (.comment false false) rest
    else c :: rest
  | .comment odd afterReturn, c :: rest =>
    if c = '\n' then skipGap (if odd then .comment false false else .blank) rest
    else skipGap (Gap.commentAfter odd afterReturn c) rest

theorem length_skipGap_le (gap : Gap) (s : List Char) : (skipGap gap s).length ≤ s.length := by
  induction s generalizing gap with
  | nil => cases gap <;> exact Nat.le_refl _
  | cons c rest ih =>
    cases gap with
    | blank =>
      rw [skipGap]
      split
      · exact Nat.le_succ_of_le (ih _)
      · split
        · exact Nat.le_succ_of_le (ih _)
        · exact Nat.le_refl _
    | comment odd afterReturn =>
      rw [skipGap]
      split
      · exact Nat.le_succ_of_le (ih _)
      · exact Nat.le_succ_of_le (ih _)

/-! ### Runs of characters -/

def isNameStart (c : Char) : Bool := c.isAlpha || c == '_'

def isNameChar (c : Char) : Bool := c.isAlphanum || c == '_'

def isOperatorChar (c : Char) : Bool :=
  ['|', '=', '!', '<', '>', '+', '*', '/', '%'].contains c

def isPunctuation (c : Char) : Bool :=
  [',', ':', ';', '?', '(', ')', '[', ']', '{', '}'].contains c

theorem length_dropWhile_le (p : Char → Bool) (s : List Char) :
    (s.dropWhile p).length ≤ s.length :=
  (List.dropWhile_suffix p).length_le

/-! ### Numbers -/

def spanDigits (s : List Char) : Option (List Char × List Char) :=
  match s.takeWhile Char.isDigit with
  | [] => none
  | digits => some (digits, s.dropWhile Char.isDigit)

def spanScale (s : List Char) : Option (List Char × List Char) :=
  match s with
  | [] => some ([], [])
  | c :: rest =>
    if c = 'e' || c = 'E' then
      match rest with
      | '+' :: rest' => (spanDigits rest').map fun (digits, r) => (c :: '+' :: digits, r)
      | '-' :: rest' => (spanDigits rest').map fun (digits, r) => (c :: '-' :: digits, r)
      | _ => (spanDigits rest).map fun (digits, r) => (c :: digits, r)
    else some ([], c :: rest)

def spanFraction (s : List Char) : Option (List Char × List Char) :=
  match s with
  | '.' :: rest => (spanDigits rest).map fun (digits, r) => ('.' :: digits, r)
  | s => some ([], s)

def spanNumber (whole s : List Char) : Option (List Char × List Char) :=
  (spanFraction s).bind fun (fraction, afterFraction) =>
    (spanScale afterFraction).map fun (scale, rest) => (whole ++ fraction ++ scale, rest)

theorem length_spanDigits_le {s text rest : List Char}
    (h : spanDigits s = some (text, rest)) : rest.length ≤ s.length := by
  unfold spanDigits at h
  split at h
  · cases h
  · cases h
    exact length_dropWhile_le _ _

theorem length_spanScale_le {s text rest : List Char} (h : spanScale s = some (text, rest)) :
    rest.length ≤ s.length := by
  unfold spanScale at h
  split at h
  · cases h
    exact Nat.le_refl _
  · split at h
    · split at h <;>
      · obtain ⟨⟨digits, r⟩, hr, he⟩ := Option.map_eq_some_iff.mp h
        cases he
        have := length_spanDigits_le hr
        simp only [List.length_cons] at *
        omega
    · cases h
      exact Nat.le_refl _

theorem length_spanFraction_le {s text rest : List Char}
    (h : spanFraction s = some (text, rest)) : rest.length ≤ s.length := by
  unfold spanFraction at h
  split at h
  · obtain ⟨⟨digits, r⟩, hr, he⟩ := Option.map_eq_some_iff.mp h
    cases he
    exact Nat.le_succ_of_le (length_spanDigits_le hr)
  · cases h
    exact Nat.le_refl _

theorem length_spanNumber_le {whole s text rest : List Char}
    (h : spanNumber whole s = some (text, rest)) : rest.length ≤ s.length := by
  unfold spanNumber at h
  obtain ⟨⟨fraction, afterFraction⟩, hf, hs⟩ := Option.bind_eq_some_iff.mp h
  obtain ⟨⟨scale, r⟩, hr, he⟩ := Option.map_eq_some_iff.mp hs
  cases he
  exact Nat.le_trans (length_spanScale_le hr) (length_spanFraction_le hf)

/-! ### Strings -/

def escaped? : Char → Option Char
  | '"' => some '"'
  | '\\' => some '\\'
  | '/' => some '/'
  | 'b' => some '\x08'
  | 'f' => some '\x0c'
  | 'n' => some '\n'
  | 'r' => some '\r'
  | 't' => some '\t'
  | _ => none

/-- A code point that is no half of a surrogate pair. -/
def scalar? (n : Nat) : Option Char := if 0xD800 ≤ n ∧ n ≤ 0xDFFF then none else some (Char.ofNat n)

def readString (acc : List Char) : List Char → Option (String × List Char)
  | [] => none
  | '"' :: rest => some (String.ofList acc.reverse, rest)
  | '\\' :: 'u' :: a :: b :: c :: d :: rest =>
    match (Json.hexQuad? a b c d).bind scalar? with
    | some x => readString (x :: acc) rest
    | none => none
  | '\\' :: c :: rest =>
    match escaped? c with
    | some x => readString (x :: acc) rest
    | none => none
  | c :: rest => if c = '\\' then none else readString (c :: acc) rest

theorem length_readString_lt {acc s rest : List Char} {text : String}
    (h : readString acc s = some (text, rest)) : rest.length < s.length := by
  fun_induction readString acc s with
  | case1 => cases h
  | case2 =>
    cases h
    exact Nat.lt_succ_self _
  | case3 _ _ _ _ _ _ _ _ ih =>
    have := ih h
    simp only [List.length_cons]
    omega
  | case4 => cases h
  | case5 _ _ _ _ _ _ ih =>
    have := ih h
    simp only [List.length_cons]
    omega
  | case6 => cases h
  | case7 => cases h
  | case8 _ _ _ _ _ _ _ ih => exact Nat.lt_succ_of_lt (ih h)

/-! ### Tokens -/

/-- A hyphen is a token without what follows it, so that it can stand behind another operator. -/
def readHyphen : List Char → Token × List Char
  | '=' :: rest => (.symbol "-=", rest)
  | s => (.symbol "-", s)

theorem length_readHyphen_le (s : List Char) : (readHyphen s).2.length ≤ s.length := by
  unfold readHyphen
  split
  · exact Nat.le_succ _
  · exact Nat.le_refl _

def readToken (c : Char) (s : List Char) : Option (Token × List Char) :=
  if isNameStart c then
    some (.word (String.ofList (c :: s.takeWhile isNameChar)), s.dropWhile isNameChar)
  else if c.isDigit then
    (spanNumber (c :: s.takeWhile Char.isDigit) (s.dropWhile Char.isDigit)).map
      fun (text, rest) => (.number text, rest)
  else if c = '-' then some (readHyphen s)
  else if isOperatorChar c then
    some (.symbol (String.ofList (c :: s.takeWhile isOperatorChar)), s.dropWhile isOperatorChar)
  else if isPunctuation c then some (.symbol (String.singleton c), s)
  else if c = '"' then (readString [] s).map fun (text, rest) => (.string text, rest)
  else
    match s with
    | [] => if c = '.' then some (.symbol ".", []) else none
    | d :: rest =>
      let name := String.ofList (d :: rest.takeWhile isNameChar)
      if c = '$' then
        if isNameStart d then some (.variable name, rest.dropWhile isNameChar) else none
      else if c = '.' then
        if d = '.' then some (.symbol "..", rest)
        else if isNameStart d then some (.field name, rest.dropWhile isNameChar)
        else some (.symbol ".", d :: rest)
      else none

theorem length_readToken_le {c : Char} {s rest : List Char} {t : Token}
    (h : readToken c s = some (t, rest)) : rest.length ≤ s.length := by
  unfold readToken at h
  split at h
  · cases h
    exact length_dropWhile_le _ _
  split at h
  · obtain ⟨⟨text, r⟩, hr, he⟩ := Option.map_eq_some_iff.mp h
    cases he
    exact Nat.le_trans (length_spanNumber_le hr) (length_dropWhile_le _ _)
  split at h
  · have hs := length_readHyphen_le s
    rw [Option.some.inj h] at hs
    exact hs
  split at h
  · cases h
    exact length_dropWhile_le _ _
  split at h
  · cases h
    exact Nat.le_refl _
  split at h
  · obtain ⟨⟨text, r⟩, hr, he⟩ := Option.map_eq_some_iff.mp h
    cases he
    exact Nat.le_of_lt (length_readString_lt hr)
  split at h
  · split at h <;> cases h
    exact Nat.le_refl _
  · have hd := length_dropWhile_le isNameChar
    split at h
    · split at h <;> cases h
      exact Nat.le_succ_of_le (hd _)
    · split at h
      · split at h
        · cases h
          exact Nat.le_succ _
        · split at h <;> cases h
          · exact Nat.le_succ_of_le (hd _)
          · exact Nat.le_refl _
      · cases h

def tokens (s : List Char) : Option (List Token) :=
  match _hs : skipGap .blank s with
  | [] => some []
  | c :: rest =>
    match _ht : readToken c rest with
    | none => none
    | some (t, rest') => (tokens rest').map (t :: ·)
termination_by s.length
decreasing_by
  have := length_skipGap_le .blank s
  have := length_readToken_le _ht
  simp only [_hs, List.length_cons] at *
  omega

end InterfaceGen.Query
