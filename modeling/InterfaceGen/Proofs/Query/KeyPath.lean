import InterfaceGen.Proofs.Json.Pointer
import InterfaceGen.Proofs.Query.Printed

/-!
# Paths of keys

A query that names keys one inside the other: a point, and each key as a string between brackets.
It is cut into tokens and parsed to the access to parts under these keys, whatever characters the
keys have.
-/

namespace InterfaceGen.Query

def bracketed (keys : List String) : List Char :=
  keys.flatMap fun key => '[' :: Json.stringText key ++ [']']

def keyPath (keys : List String) : String := String.ofList ('.' :: bracketed keys)

def keyTokens (keys : List String) : List Token :=
  keys.flatMap fun key => [.symbol "[", .string key, .symbol "]"]

theorem keyTokens_cons (key : String) (rest : List String) : keyTokens (key :: rest) =
    .symbol "[" :: .string key :: .symbol "]" :: keyTokens rest := rfl

def keyPart (key : String) : Part := .key (.text key) false

/-- A path without keys is the value itself. -/
def keyTerm (keys : List String) : Term :=
  if (keys.map keyPart).isEmpty then .identity else .access .identity (keys.map keyPart)

/-! ### Tokens -/

theorem readString_letter {l c : Char} (h : (l, c) ∈ Json.letterEscapes) (acc r : List Char) :
    readString acc ('\\' :: l :: r) = readString (c :: acc) r := by
  have all : ∀ p ∈ Json.letterEscapes,
      readString acc ('\\' :: p.1 :: r) = readString (p.2 :: acc) r := by
    simp only [Json.letterEscapes, List.forall_mem_cons]
    exact ⟨rfl, rfl, rfl, rfl, rfl, rfl, rfl, List.forall_mem_nil _⟩
  exact all (l, c) h

theorem readString_numeric {c : Char} (h : c.toNat < 0x20) (acc r : List Char) :
    readString acc (Json.numericEscape c ++ r) = readString (c :: acc) r := by
  have quad := Json.hexQuad?_control c.toNat h
  have scalar : scalar? c.toNat = some c := by
    rw [scalar?, if_neg (by omega), Char.ofNat_toNat]
  simp only [Json.numericEscape, List.cons_append, List.nil_append]
  rw [readString, quad, Option.bind_some, scalar]

theorem readString_escapedAs {c : Char} {t : List Char} (h : Json.EscapedAs c t)
    (acc r : List Char) : readString acc (t ++ r) = readString (c :: acc) r := by
  cases h with
  | itself quote backslash _ =>
    rw [List.singleton_append, readString]
    · rw [if_neg backslash]
    · exact quote
    · intro _ _ _ _ _ same
      exact absurd same backslash
    · intro _ _ same
      exact absurd same backslash
  | letter known => exact readString_letter known acc r
  | numeric control => exact readString_numeric control acc r

theorem readToken_quote (s : List Char) :
    readToken '"' s = (readString [] s).map fun (text, rest) => (.string text, rest) := rfl

theorem readToken_stringText (s : String) (r : List Char) :
    readToken '"' (s.toList.flatMap Json.escapeChar ++ '"' :: r) = some (.string s, r) := by
  rw [readToken_quote,
    Json.read_flatMap fun c => readString_escapedAs (Json.escapedAs_escapeChar c), readString,
    List.append_nil, List.reverse_reverse, String.ofList_toList]
  rfl

theorem tokens_of_readToken {c : Char} {s r : List Char} {t : Token}
    (blank : Text.isBlank c = false) (comment : c ≠ '#') (h : readToken c s = some (t, r)) :
    tokens (c :: s) = (tokens r).map (t :: ·) := by
  have start : skipGap .blank (c :: s) = c :: s := by
    rw [skipGap, blank, if_neg (by decide), if_neg comment]
  rw [tokens]
  split
  next e => rw [start] at e; cases e
  next e =>
    rw [start] at e
    cases e
    split
    next none => rw [h] at none; cases none
    next some => rw [h] at some; cases some; rfl

theorem bracketed_cons (key : String) (rest : List String) :
    bracketed (key :: rest) =
      '[' :: '"' :: (key.toList.flatMap Json.escapeChar ++ '"' :: ']' :: bracketed rest) := by
  simp [bracketed, Json.stringText]

theorem tokens_bracketed (keys : List String) :
    tokens (bracketed keys) = some (keyTokens keys) := by
  induction keys with
  | nil =>
    rw [bracketed, List.flatMap_nil, tokens]
    rfl
  | cons key rest ih =>
    rw [bracketed_cons, tokens_of_readToken (by decide) (by decide) rfl,
      tokens_of_readToken (by decide) (by decide) (readToken_stringText key _),
      tokens_of_readToken (by decide) (by decide) rfl, ih]
    rfl

theorem tokens_keyPath (keys : List String) :
    tokens (keyPath keys).toList = some (.symbol "." :: keyTokens keys) := by
  have point : readToken '.' (bracketed keys) = some (.symbol ".", bracketed keys) := by
    cases keys with
    | nil => rfl
    | cons key rest =>
      rw [bracketed_cons]
      rfl
  rw [keyPath, String.toList_ofList, tokens_of_readToken (by decide) (by decide) point,
    tokens_bracketed, Option.map_some]

/-! ### Parsing -/

namespace Parser

variable {α β : Type} {p : Parser α} {s r : List Token}

theorem takeAll_of_none (h : p.run s = none) : takeAll p s = ([], s) := by
  rw [takeAll]
  split
  next => rfl
  next some => rw [h] at some; cases some

theorem takeAll_of_some {a : α} (h : p.run s = some (a, r)) :
    takeAll p s = (a :: (takeAll p r).1, (takeAll p r).2) := by
  rw [takeAll]
  split
  next none => rw [h] at none; cases none
  next some => rw [h] at some; cases some; rfl

theorem run_andThen_of_none {next : α → Parser β} (h : p.run s = none) :
    (p.andThen next).run s = none := by
  simp only [andThen, h, Option.bind_none]

end Parser

namespace Grammar

open Query.Parser

theorem run_part_nil (term : Parser Term) : (part term).run [] = none := rfl

theorem run_part_close (term : Parser Term) (s : List Token) :
    (part term).run (.symbol "]" :: s) = none := rfl

theorem run_path_string (term : Parser Term) (k : String) (s : List Token) :
    (path term).run (.string k :: s) = none := rfl

theorem run_operator_close (comma : Bool) (s : List Token) :
    (operator comma).run (.symbol "]" :: s) = none := rfl

theorem run_operator_nil (comma : Bool) : (operator comma).run [] = none := rfl

theorem run_head_string (term value operand : Parser Term) (k : String) (s : List Token) :
    (head term value operand).run (.string k :: s) = some (.text k, s) := rfl

/-- A term stands for a key wherever it is read from the key in brackets. -/
def ReadsKey (term : Parser Term) (k : String) : Prop :=
  ∀ s, term.run (.string k :: .symbol "]" :: s) = some (.text k, .symbol "]" :: s)

variable {term inner : Parser Term} {s r : List Token}

theorem run_withParts {first : Parser Term} {t : Term} (h : first.run s = some (t, r))
    (unmarked : (symbol "?").run r = none) :
    (withParts term first).run s =
      some (if (takeAll (part term) r).1.isEmpty then t else .access t (takeAll (part term) r).1,
        (takeAll (part term) r).2) := by
  simp only [withParts, map, andAll, h, Option.map_some, takeAll_of_none unmarked]
  rfl

theorem run_operation {t : Term} {comma : Bool} (h : inner.run s = some (t, r))
    (last : (operator comma).run r = none) : (operation inner comma).run s = some (t, r) := by
  simp only [operation, map, andAll, h, Option.map_some, takeAll_of_none (run_andThen_of_none last)]
  rfl

theorem readsKey_operand (levels : Nat) (k : String) : ReadsKey (operand (levels + 1)) k := by
  intro s
  simp only [operand, orElse, run_path_string, Option.none_or]
  rw [run_withParts (run_head_string _ _ _ k _) rfl, takeAll_of_none (run_part_close _ s)]
  rfl

theorem readsKey_operation {k : String} (h : ReadsKey term k) (comma : Bool) :
    ReadsKey (operation term comma) k :=
  fun s => run_operation (h s) (run_operator_close comma s)

theorem run_selection_string {k : String} (h : ReadsKey term k) (s : List Token) :
    (selection term).run (.string k :: .symbol "]" :: s) =
      some (Part.key (.text k), .symbol "]" :: s) := by
  simp only [selection, orElse, map, andMaybe, h s, Option.map_some]
  rfl

theorem run_part_key {k : String} (h : ReadsKey term k)
    (unmarked : (symbol "?").run s = none) :
    (part term).run (.symbol "[" :: .string k :: .symbol "]" :: s) = some (keyPart k, s) := by
  have inside : (bracketed "[" "]" (selection term)).run
      (.symbol "[" :: .string k :: .symbol "]" :: s) = some (Part.key (.text k), s) := by
    have opened : (bracketed "[" "]" (selection term)).run
        (.symbol "[" :: .string k :: .symbol "]" :: s) =
          ((selection term).run (.string k :: .symbol "]" :: s)).bind fun (a, r) =>
            ((symbol "]").run r).map fun (_, r) => (a, r) := rfl
    rw [opened, run_selection_string h]
    rfl
  -- no name stands after the bracket, so the part is the one in brackets
  have chosen : (namedPart.orElse (brackets term)).run
      (.symbol "[" :: .string k :: .symbol "]" :: s) = some (Part.key (.text k), s) := inside
  simp only [part, lenient, map, andAll, chosen, Option.map_some, takeAll_of_none unmarked]
  rfl

theorem takeAll_keyTokens {keys : List String} (h : ∀ k ∈ keys, ReadsKey term k) :
    takeAll (part term) (keyTokens keys) = (keys.map keyPart, []) := by
  induction keys with
  | nil => exact takeAll_of_none (run_part_nil term)
  | cons key rest ih =>
    obtain ⟨here, later⟩ := List.forall_mem_cons.mp h
    have unmarked : (symbol "?").run (keyTokens rest) = none := by cases rest <;> rfl
    rw [keyTokens_cons, takeAll_of_some (run_part_key here unmarked), ih later]
    rfl

theorem run_path_keyTokens {keys : List String} (h : ∀ k ∈ keys, ReadsKey term k) :
    (path term).run (.symbol "." :: keyTokens keys) = some (keyTerm keys, []) := by
  have unmarked : (symbol "?").run (keyTokens keys) = none := by cases keys <;> rfl
  have point : (path term).run (.symbol "." :: keyTokens keys) =
      (withParts term ((symbol ".").map fun _ => .identity)).run
        (.symbol "." :: keyTokens keys) := by
    cases keys <;> rfl
  rw [point, run_withParts rfl unmarked, takeAll_keyTokens h]
  rfl

theorem length_keyTokens (keys : List String) : (keyTokens keys).length = 3 * keys.length := by
  induction keys with
  | nil => rfl
  | cons key rest ih =>
    rw [keyTokens_cons, List.length_cons, List.length_cons, List.length_cons, List.length_cons, ih]
    omega

theorem run_operand_keyTokens (keys : List String) :
    (operand ((keyTokens keys).length + 1)).run (.symbol "." :: keyTokens keys) =
      some (keyTerm keys, []) := by
  have reads : ∀ k ∈ keys, ReadsKey (operation (operand (keyTokens keys).length) true) k := by
    intro k member
    -- a key has tokens of its own, so the levels are not used up inside the brackets
    have positive := List.length_pos_of_mem member
    obtain ⟨levels, same⟩ : ∃ m, (keyTokens keys).length = m + 1 :=
      Nat.exists_eq_add_one.mpr (by rw [length_keyTokens]; omega)
    rw [same]
    exact readsKey_operation (readsKey_operand levels k) true
  simp only [operand, orElse, run_path_keyTokens reads, Option.some_or]

end Grammar

theorem ofText?_keyPath (keys : List String) :
    Term.ofText? (keyPath keys) = some (keyTerm keys) := by
  have read := Grammar.run_operation (Grammar.run_operand_keyTokens keys)
    (Grammar.run_operator_nil true)
  rw [Term.ofText?, tokens_keyPath]
  change (Parser.whole _ (.symbol "." :: keyTokens keys)) = _
  rw [Parser.whole, List.length_cons, read]

/-! ### Evaluation -/

theorem unbound_keyTerm (bound : List Name) (keys : List String) :
    (keyTerm keys).unbound bound = [] := by
  have parts : unboundInParts bound (keys.map keyPart) = [] := by
    induction keys with
    | nil => rw [List.map_nil, unboundInParts]
    | cons key rest ih =>
      rw [List.map_cons, keyPart, unboundInParts, ih, Term.text, Term.unbound, List.append_nil]
  unfold keyTerm
  split
  next => rw [Term.unbound]
  next => rw [Term.unbound, Term.unbound, parts, List.append_nil]

def keyRoute (keys : List String) : Route := keys.map fun key => ⟨.key (.string key), false⟩

theorem routes_keys (m : Machine) (scope : Scope) (v : Value) (keys : List String) :
    routes m scope v (keys.map keyPart) = .last (keyRoute keys) := by
  induction keys with
  | nil => rw [List.map_nil, routes]; rfl
  | cons key rest ih =>
    rw [List.map_cons, keyPart, routes, ih, Term.text, Term.eval]
    rfl

theorem eval_keyTerm (m : Machine) (scope : Scope) (v : Value) (keys : List String) :
    (keyTerm keys).eval m scope v = (keyRoute keys).select v := by
  unfold keyTerm
  split
  next none =>
    rw [List.isEmpty_iff, List.map_eq_nil_iff] at none
    rw [Term.eval, none]
    rfl
  next =>
    rw [Term.eval, Term.eval, Results.bind_last, routes_keys, Results.bind_last]

theorem select_keyRoute {v w : Json.Value} {keys : List String} (h : v.Reaches keys w) :
    (keyRoute keys).select (.ofJson v) = .last (.ofJson w) := by
  induction h with
  | here v => rfl
  | @child members key keys v _ found _ ih =>
    have part : (Value.ofJson (.object members)).lookup (.string key) = .ok (.ofJson v) := by
      rw [Value.ofJson, Value.lookup, Value.ofJsonMembers_eq_map, OrderedMap.find?_map, found]
      rfl
    have leg : Route.Leg.select ⟨.key (.string key), false⟩ (.ofJson (.object members)) =
        .last (.ofJson v) := by
      rw [Route.Leg.select, Selector.select, part]
      rfl
    rw [keyRoute, List.map_cons, Route.select, leg, Results.bind_last]
    exact ih

theorem run_keyPath {v w : Json.Value} {keys : List String} (h : v.Reaches keys w) :
    run (keyPath keys) v = readAll [] (.last (String.ofList (Value.ofJson w).text)) := by
  have results : interpreter (keyPath keys) v =
      .ok (.last (String.ofList (Value.ofJson w).text)) := by
    unfold interpreter
    rw [ofText?_keyPath]
    dsimp only
    rw [unbound_keyTerm]
    dsimp only
    rw [eval_keyTerm, select_keyRoute h]
    rfl
  rw [run, runWith, results]
  rfl

end InterfaceGen.Query
