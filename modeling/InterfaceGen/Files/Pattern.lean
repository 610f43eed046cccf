import InterfaceGen.Text.Split

/-!
# File name patterns

A pattern is a text in which `?` stands for any character, `*` for any run of characters,
`[…]` for one character out of a class and `[!…]` for one outside of it. The piece `**` stands
for any number of directories.
-/

namespace InterfaceGen.Files

structure CharRange where
  first : Char
  last : Char
deriving DecidableEq

inductive PatternToken
  | char (c : Char)
  | any
  | sequence
  | directories
  | within (ranges : List CharRange)
  | outside (ranges : List CharRange)
deriving DecidableEq

inductive PatternError
  | tooManyStars (position : Nat)
  | starsNotAlone (position : Nat)
  | unclosedClass (position : Nat)
deriving DecidableEq

namespace PatternError

def position : PatternError → Nat
  | .tooManyStars position => position
  | .starsNotAlone position => position
  | .unclosedClass position => position

def reason : PatternError → String
  | .tooManyStars _ => "wildcards are either regular `*` or recursive `**`"
  | .starsNotAlone _ => "recursive wildcards must form a single path component"
  | .unclosedClass _ => "invalid range pattern"

def message (e : PatternError) : String :=
  "Pattern syntax error near position " ++ e.position.repr ++ ": " ++ e.reason

end PatternError

namespace Pattern

/-- The ranges of a class: a character, a hyphen and a character, or a single character. -/
def classRanges : List Char → List CharRange
  | a :: '-' :: b :: rest => ⟨a, b⟩ :: classRanges rest
  | a :: rest => ⟨a, a⟩ :: classRanges rest
  | [] => []

/-- The members of a class up to its closing bracket, which cannot be the first of them. -/
def spanClass : List Char → Option (List Char × List Char)
  | [] => none
  | c :: rest =>
    match rest.dropWhile (· ≠ ']') with
    | [] => none
    | _ :: after => some (c :: rest.takeWhile (· ≠ ']'), after)

theorem length_spanClass_lt {s members rest : List Char} (h : spanClass s = some (members, rest)) :
    rest.length < s.length := by
  unfold spanClass at h
  split at h
  · cases h
  · next s' =>
    have hle := (List.dropWhile_suffix (l := s') fun c => decide (c ≠ ']')).length_le
    split at h
    · cases h
    · next hd =>
      cases h
      simp only [ne_eq] at hd hle
      rw [hd] at hle
      simp only [List.length_cons] at *
      omega

/-- What follows the two stars of a `**`: the end or a slash, which belongs to it. -/
def afterStars (position : Nat) : List Char → Except PatternError (List Char)
  | [] => .ok []
  | c :: rest => if c = '/' then .ok rest else .error (.starsNotAlone (position + 2))

theorem length_afterStars_le {position : Nat} {s rest : List Char}
    (h : afterStars position s = .ok rest) : rest.length ≤ s.length := by
  unfold afterStars at h
  split at h
  · cases h
    exact Nat.le_refl _
  · split at h
    · cases h
      exact Nat.le_succ _
    · cases h

/-- Reads a pattern from a position on. `atStart` says whether a piece starts there, which alone
may hold two stars. -/
def tokens (position : Nat) (atStart : Bool) (s : List Char) :
    Except PatternError (List PatternToken) :=
  match s with
  | [] => .ok []
  | '?' :: rest => (tokens (position + 1) false rest).map (.any :: ·)
  | '*' :: '*' :: '*' :: _ => .error (.tooManyStars (position + 2))
  | '*' :: '*' :: rest =>
    if atStart then
      match _h : afterStars position rest with
      | .error e => .error e
      | .ok rest' =>
        (tokens (position + 2 + (rest.length - rest'.length)) true rest').map (.directories :: ·)
    else .error (.starsNotAlone (position - 1))
  | '*' :: rest => (tokens (position + 1) false rest).map (.sequence :: ·)
  | '[' :: '!' :: rest =>
    match _h : spanClass rest with
    | none => .error (.unclosedClass position)
    | some (members, rest') =>
      (tokens (position + 2 + (rest.length - rest'.length)) false rest').map
        (.outside (classRanges members) :: ·)
  | '[' :: rest =>
    match _h : spanClass rest with
    | none => .error (.unclosedClass position)
    | some (members, rest') =>
      (tokens (position + 1 + (rest.length - rest'.length)) false rest').map
        (.within (classRanges members) :: ·)
  | c :: rest => (tokens (position + 1) (c == '/') rest).map (.char c :: ·)
termination_by s.length
decreasing_by
  all_goals simp only [List.length_cons]
  · omega
  · have := length_afterStars_le _h
    omega
  · omega
  · have := length_spanClass_lt _h
    omega
  · have := length_spanClass_lt _h
    omega
  · omega

def contains (ranges : List CharRange) (c : Char) : Bool :=
  ranges.any fun r => r.first ≤ c && c ≤ r.last

def suffixes : List Char → List (List Char)
  | [] => [[]]
  | c :: rest => (c :: rest) :: suffixes rest

def isMatch : List PatternToken → List Char → Bool
  | [], s => s.isEmpty
  | .sequence :: ts, s => (suffixes s).any fun rest => isMatch ts rest
  | .directories :: ts, s => (suffixes s).any fun rest => isMatch ts rest
  | .char _ :: _, [] => false
  | .any :: _, [] => false
  | .within _ :: _, [] => false
  | .outside _ :: _, [] => false
  | .char c' :: ts, c :: rest => c == c' && isMatch ts rest
  | .any :: ts, _ :: rest => isMatch ts rest
  | .within ranges :: ts, c :: rest => contains ranges c && isMatch ts rest
  | .outside ranges :: ts, c :: rest => !contains ranges c && isMatch ts rest

def literal? : List PatternToken → Option (List Char)
  | [] => some []
  | .char c :: ts => (literal? ts).map (c :: ·)
  | _ => none

def isPattern (s : String) : Bool := s.toList.any fun c => ['*', '?', '[', '{'].contains c

end Pattern

end InterfaceGen.Files
