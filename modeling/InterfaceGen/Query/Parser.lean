import InterfaceGen.Query.Token

/-!
# Parsers over tokens

A parser takes one phrase off the front of a list of tokens and leaves fewer tokens than there
were, so that it can be repeated as often as it succeeds.
-/

namespace InterfaceGen.Query

structure Parser (α : Type) where
  run : List Token → Option (α × List Token)
  shorter : ∀ {s : List Token} {a : α} {r : List Token},
    run s = some (a, r) → r.length < s.length

namespace Parser

variable {α β : Type}

def accept (meaning : Token → Option α) : Parser α where
  run
    | [] => none
    | t :: rest => (meaning t).map fun a => (a, rest)
  shorter {s a r} h := by
    cases s with
    | nil => cases h
    | cons t rest =>
      obtain ⟨b, _, he⟩ := Option.map_eq_some_iff.mp h
      cases he
      exact Nat.lt_succ_self _

def token (t : Token) : Parser Unit := accept fun t' => if t' = t then some () else none

def symbol (s : String) : Parser Unit := token (.symbol s)

def keyword (name : String) : Parser Unit := token (.word name)

def fail : Parser α where
  run _ := none
  shorter h := by cases h

def map (f : α → β) (p : Parser α) : Parser β where
  run s := (p.run s).map fun (a, r) => (f a, r)
  shorter h := by
    obtain ⟨⟨a, r⟩, hr, he⟩ := Option.map_eq_some_iff.mp h
    cases he
    exact p.shorter hr

def andThen (p : Parser α) (next : α → Parser β) : Parser β where
  run s := (p.run s).bind fun (a, r) => (next a).run r
  shorter h := by
    obtain ⟨⟨a, r⟩, hr, hn⟩ := Option.bind_eq_some_iff.mp h
    exact Nat.lt_trans ((next a).shorter hn) (p.shorter hr)

/-- A phrase and then one whose meaning does not matter. -/
def before (p : Parser α) (q : Parser β) : Parser α := p.andThen fun a => q.map fun _ => a

/-- A phrase after one whose meaning does not matter. -/
def after (p : Parser α) (q : Parser β) : Parser α := q.andThen fun _ => p

def orElse (p q : Parser α) : Parser α where
  run s := (p.run s).or (q.run s)
  shorter {s a r} h := by
    rcases Option.or_eq_some_iff.mp h with h | h
    · exact p.shorter h
    · exact q.shorter h.2

def andMaybe (p : Parser α) (q : Parser β) : Parser (α × Option β) where
  run s := (p.run s).map fun (a, r) =>
    match q.run r with
    | some (b, r') => ((a, some b), r')
    | none => ((a, none), r)
  shorter h := by
    obtain ⟨⟨a, r⟩, hr, he⟩ := Option.map_eq_some_iff.mp h
    have hp := p.shorter hr
    simp only at he
    split at he
    · next hq =>
      cases he
      exact Nat.lt_trans (q.shorter hq) hp
    · cases he
      exact hp

def takeAll (p : Parser α) (s : List Token) : List α × List Token :=
  match _h : p.run s with
  | none => ([], s)
  | some (a, r) =>
    let (rest, r') := takeAll p r
    (a :: rest, r')
termination_by s.length
decreasing_by exact p.shorter _h

theorem length_takeAll_le (p : Parser α) (s : List Token) :
    (takeAll p s).2.length ≤ s.length := by
  fun_induction takeAll p s with
  | case1 => exact Nat.le_refl _
  | case2 s a r h rest r' ht ih =>
    rw [ht] at ih
    exact Nat.le_of_lt (Nat.lt_of_le_of_lt ih (p.shorter h))

def andAll (p : Parser α) (q : Parser β) : Parser (α × List β) where
  run s := (p.run s).map fun (a, r) =>
    let taken := takeAll q r
    ((a, taken.1), taken.2)
  shorter h := by
    obtain ⟨⟨a, r⟩, hr, he⟩ := Option.map_eq_some_iff.mp h
    cases he
    exact Nat.lt_of_le_of_lt (length_takeAll_le q r) (p.shorter hr)

def separatedBy (p : Parser α) (separator : String) : Parser (List α) :=
  (p.andAll (p.after (symbol separator))).map fun (a, rest) => a :: rest

/-- A phrase to which all the tokens belong. -/
def whole (p : Parser α) (s : List Token) : Option α :=
  match p.run s with
  | some (a, []) => some a
  | _ => none

end Parser

end InterfaceGen.Query
