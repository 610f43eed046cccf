import InterfaceGen.Json.Skip

/-!
# Readers

A reader takes one value off the front of a text and returns what it means together with the
rest. Since the rest is shorter, a reader can be used inside a loop over the items of an array
or the members of an object, and the loop ends.
-/

namespace InterfaceGen.Json

structure Reader (α : Type) where
  run : List Char → Except Fault (α × List Char)
  shorter : ∀ {s : List Char} {a : α} {r : List Char}, run s = .ok (a, r) → r.length < s.length

/-- What stands at the next place of an array or object: its end, or an entry. -/
inductive Next
  | closed (rest : List Char)
  | entry (rest : List Char)

def Next.rest : Next → List Char
  | .closed rest => rest
  | .entry rest => rest

def nextItem (i : Nat) (s : List Char) : Except SyntaxError Next :=
  match skipBlanks s with
  | [] => .error .endInArray
  | ']' :: rest => .ok (.closed rest)
  | c :: rest =>
    if i = 0 then .ok (.entry (c :: rest))
    else if c = ',' then
      match skipBlanks rest with
      | [] => .error .endInValue
      | ']' :: _ => .error .trailingComma
      | s' => .ok (.entry s')
    else .error .expectedCommaOrBracket

/-- The end of an array that has as many items as are wanted. -/
def closeArray (s : List Char) : Except SyntaxError (List Char) :=
  match skipBlanks s with
  | [] => .error .endInArray
  | ']' :: rest => .ok rest
  | ',' :: rest =>
    match skipBlanks rest with
    | ']' :: _ => .error .trailingComma
    | _ => .error .trailingCharacters
  | _ => .error .trailingCharacters

def nextMember (first : Bool) (s : List Char) : Except SyntaxError Next :=
  match skipBlanks s with
  | [] => .error .endInObject
  | '}' :: rest => .ok (.closed rest)
  | c :: rest =>
    if first then if c = '"' then .ok (.entry rest) else .error .keyNotString
    else if c = ',' then
      match skipBlanks rest with
      | [] => .error .endInValue
      | '"' :: rest' => .ok (.entry rest')
      | '}' :: _ => .error .trailingComma
      | _ => .error .keyNotString
    else .error .expectedCommaOrBrace

def readColon (s : List Char) : Except SyntaxError (List Char) :=
  match skipBlanks s with
  | [] => .error .endInObject
  | ':' :: rest => .ok rest
  | _ => .error .expectedColon

theorem length_nextItem_le {i : Nat} {s : List Char} {next : Next}
    (h : nextItem i s = .ok next) : next.rest.length ≤ s.length := by
  have hle := length_skipBlanks_le s
  unfold nextItem at h
  split at h
  · cases h
  · next hs =>
    cases h
    exact Nat.le_of_lt (length_of_skipBlanks_eq_cons hs)
  · next rest _ hs =>
    rw [hs] at hle
    split at h
    · cases h
      exact hle
    · split at h
      · have hle' := length_skipBlanks_le rest
        split at h
        · cases h
        · cases h
        · cases h
          simp only [Next.rest, List.length_cons] at *
          omega
      · cases h

theorem length_nextItem_closed_lt {i : Nat} {s r : List Char}
    (h : nextItem i s = .ok (.closed r)) : r.length < s.length := by
  unfold nextItem at h
  split at h
  · cases h
  · next hs =>
    cases h
    exact length_of_skipBlanks_eq_cons hs
  · split at h
    · cases h
    · split at h
      · split at h <;> cases h
      · cases h

theorem length_closeArray_lt {s r : List Char} (h : closeArray s = .ok r) :
    r.length < s.length := by
  unfold closeArray at h
  split at h
  · cases h
  · next hs =>
    cases h
    exact length_of_skipBlanks_eq_cons hs
  · split at h <;> cases h
  · cases h

theorem length_nextMember_lt {first : Bool} {s : List Char} {next : Next}
    (h : nextMember first s = .ok next) : next.rest.length < s.length := by
  unfold nextMember at h
  split at h
  · cases h
  · next hs =>
    cases h
    exact length_of_skipBlanks_eq_cons hs
  · next hs =>
    have hlt := length_of_skipBlanks_eq_cons hs
    split at h
    · split at h <;> cases h
      exact hlt
    · split at h
      · split at h
        · cases h
        · next hr =>
          cases h
          exact Nat.lt_trans (length_of_skipBlanks_eq_cons hr) hlt
        · cases h
        · cases h
      · cases h

theorem length_readColon_lt {s r : List Char} (h : readColon s = .ok r) :
    r.length < s.length := by
  unfold readColon at h
  split at h
  · cases h
  · next hs =>
    cases h
    exact length_of_skipBlanks_eq_cons hs
  · cases h

variable {α β σ : Type}

/-- Reads the items of an array after its opening bracket. `item i state` reads item `i`; where
it is absent, the array has to end. A fault inside an item is placed below the item's index. -/
def readItems (item : Nat → σ → Option (Reader σ)) (i : Nat) (state : σ) (s : List Char) :
    Except Fault (σ × List Char) :=
  match item i state with
  | none =>
    match closeArray s with
    | .error e => .error (.here e)
    | .ok rest => .ok (state, rest)
  | some reader =>
    match _hn : nextItem i s with
    | .error e => .error (.here e)
    | .ok (.closed rest) => .ok (state, rest)
    | .ok (.entry rest) =>
      match _hr : reader.run rest with
      | .error f => .error (f.within (.index i))
      | .ok (state', rest') => readItems item (i + 1) state' rest'
termination_by s.length
decreasing_by
  have := length_nextItem_le _hn
  have := reader.shorter _hr
  simp only [Next.rest] at *
  omega

theorem length_readItems_lt {item : Nat → σ → Option (Reader σ)} {i : Nat} {state state' : σ}
    {s r : List Char} (h : readItems item i state s = .ok (state', r)) :
    r.length < s.length := by
  fun_induction readItems item i state s with
  | case1 => cases h
  | case2 _ _ _ _ _ hc =>
    cases h
    exact length_closeArray_lt hc
  | case3 => cases h
  | case4 _ _ _ _ _ _ hn =>
    cases h
    exact length_nextItem_closed_lt hn
  | case5 => cases h
  | case6 _ _ _ reader _ _ hn _ _ hr ih =>
    have := ih h
    have := length_nextItem_le hn
    have := reader.shorter hr
    simp only [Next.rest] at *
    omega

/-- Reads the members of an object after its opening brace. `member state key` reads the value
under a key, or refuses the key. A fault inside a value is placed below its key, and one in the
spelling of a key at `keyPlace`. -/
def readMembers (keyPlace : Place) (member : σ → String → Except Cause (Reader σ))
    (first : Bool) (state : σ) (s : List Char) : Except Fault (σ × List Char) :=
  match _hn : nextMember first s with
  | .error e => .error ⟨keyPlace, e⟩
  | .ok (.closed rest) => .ok (state, rest)
  | .ok (.entry rest) =>
    match _hk : readText [] rest with
    | .error e => .error ⟨keyPlace, e⟩
    | .ok (key, afterKey) =>
      match member state key with
      | .error c => .error (.here c)
      | .ok reader =>
        match _hc : readColon afterKey with
        | .error e => .error (.here e)
        | .ok afterColon =>
          match _hr : reader.run afterColon with
          | .error f => .error (f.within (.key key))
          | .ok (state', rest') => readMembers keyPlace member false state' rest'
termination_by s.length
decreasing_by
  have := length_nextMember_lt _hn
  have := length_readText_lt _hk
  have := length_readColon_lt _hc
  have := reader.shorter _hr
  simp only [Next.rest] at *
  omega

theorem length_readMembers_lt {keyPlace : Place}
    {member : σ → String → Except Cause (Reader σ)} {first : Bool} {state state' : σ}
    {s r : List Char} (h : readMembers keyPlace member first state s = .ok (state', r)) :
    r.length < s.length := by
  fun_induction readMembers keyPlace member first state s with
  | case1 => cases h
  | case2 _ _ _ _ hn =>
    cases h
    exact length_nextMember_lt hn
  | case3 => cases h
  | case4 => cases h
  | case5 => cases h
  | case6 => cases h
  | case7 _ _ _ _ hn _ _ hk reader _ _ hc _ _ hr ih =>
    have := ih h
    have := length_nextMember_lt hn
    have := length_readText_lt hk
    have := length_readColon_lt hc
    have := reader.shorter hr
    simp only [Next.rest] at *
    omega

namespace Reader

def map (f : α → β) (reader : Reader α) : Reader β where
  run s :=
    match reader.run s with
    | .error e => .error e
    | .ok (a, rest) => .ok (f a, rest)
  shorter h := by
    split at h
    · cases h
    · next hr =>
      cases h
      exact reader.shorter hr

def check (f : α → Except Cause β) (reader : Reader α) : Reader β where
  run s :=
    match reader.run s with
    | .error e => .error e
    | .ok (a, rest) =>
      match f a with
      | .error c => .error (.here c)
      | .ok b => .ok (b, rest)
  shorter h := by
    split at h
    · cases h
    · next hr =>
      split at h
      · cases h
      · cases h
        exact reader.shorter hr

def items (item : Nat → σ → Option (Reader σ)) (state : σ) : Reader σ where
  run := readItems item 0 state
  shorter := length_readItems_lt

def members (keyPlace : Place) (member : σ → String → Except Cause (Reader σ)) (state : σ) :
    Reader σ where
  run := readMembers keyPlace member true state
  shorter := length_readMembers_lt

/-- Reads one value: a scalar is judged by `scalar`; after an opening bracket `list` goes on, and
after an opening brace `record`. -/
def dispatch (scalar : Value → Except Cause α) (list record : Except Cause (Reader α)) :
    Reader α where
  run s :=
    match skipBlanks s with
    | '[' :: rest =>
      match list with
      | .error c => .error (.here c)
      | .ok reader => reader.run rest
    | '{' :: rest =>
      match record with
      | .error c => .error (.here c)
      | .ok reader => reader.run rest
    | s' =>
      match readScalar s' with
      | .error e => .error (.here e)
      | .ok (v, rest) =>
        match scalar v with
        | .error c => .error (.here c)
        | .ok a => .ok (a, rest)
  shorter {s} _ _ h := by
    have hle := length_skipBlanks_le s
    split at h
    · next hs =>
      split at h
      · cases h
      · next reader =>
        exact Nat.lt_trans (reader.shorter h) (length_of_skipBlanks_eq_cons hs)
    · next hs =>
      split at h
      · cases h
      · next reader =>
        exact Nat.lt_trans (reader.shorter h) (length_of_skipBlanks_eq_cons hs)
    · split at h
      · cases h
      · next hv =>
        have hlt := length_readScalar_lt hv
        split at h
        · cases h
        · cases h
          omega

def optional (reader : Reader α) : Reader (Option α) where
  run s :=
    match skipBlanks s with
    | 'n' :: rest =>
      match matchWord ['u', 'l', 'l'] rest with
      | .error e => .error (.here e)
      | .ok rest' => .ok (none, rest')
    | s' =>
      match reader.run s' with
      | .error e => .error e
      | .ok (a, rest) => .ok (some a, rest)
  shorter {s} _ _ h := by
    have hle := length_skipBlanks_le s
    split at h
    · next hs =>
      split at h
      · cases h
      · next hw =>
        cases h
        have := length_matchWord_le hw
        have := length_of_skipBlanks_eq_cons hs
        omega
    · split at h
      · cases h
      · next hr =>
        cases h
        have := reader.shorter hr
        omega

def skip : Reader Unit where
  run s :=
    match skipValue [] s with
    | .error e => .error (.here e)
    | .ok rest => .ok ((), rest)
  shorter h := by
    split at h
    · cases h
    · next hs =>
      cases h
      exact length_skipValue_lt hs

def scalar (wanted : String) (accept : Value → Except Cause α) : Reader α :=
  dispatch accept (.error (.wrongType .sequence wanted)) (.error (.wrongType .map wanted))

def refuse (wanted : String) (v : Value) : Except Cause α := .error (.wrongType v.found wanted)

def string : Reader String :=
  scalar "a string" fun
    | .string s => .ok s
    | v => refuse "a string" v

def unit : Reader Unit :=
  scalar "unit" fun
    | .null => .ok ()
    | v => refuse "unit" v

def itemsOf (reader : Reader α) : Reader (List α) :=
  (items (fun _ (acc : List α) => some (reader.map (· :: acc))) []).map List.reverse

/-- A reader for what stands between brackets, as long as the text may nest deeper. The first
argument counts how much deeper. -/
def nested : Nat → (Nat → Reader α) → Except Cause (Reader α)
  | 0, _ => .error SyntaxError.tooDeep
  | room + 1, reader => .ok (reader room)

def list (room : Nat) (reader : Reader α) : Reader (List α) :=
  dispatch (refuse "a sequence") (nested room fun _ => itemsOf reader)
    (.error (.wrongType .map "a sequence"))

/-- Any value. A key that occurs again overwrites the member that it named first. -/
def value : Nat → Reader Value
  | 0 => dispatch .ok (.error SyntaxError.tooDeep) (.error SyntaxError.tooDeep)
  | room + 1 =>
    dispatch .ok (.ok ((itemsOf (value room)).map Value.array))
      (.ok ((members []
        (fun (m : OrderedMap Value) key => .ok ((value room).map (m.insert key))) []).map
          Value.object))

def greatestDepth : Nat := 127

def runAll (reader : Reader α) (s : String) : Except Fault α :=
  match reader.run s.toList with
  | .error f => .error f
  | .ok (a, rest) =>
    match skipBlanks rest with
    | [] => .ok a
    | _ => .error (.here SyntaxError.trailingCharacters)

/-- Reads the value at the front of a text, whatever follows it. -/
def runFront (reader : Reader α) (s : String) : Except Fault α :=
  match reader.run s.toList with
  | .error f => .error f
  | .ok (a, _) => .ok a

end Reader

def Value.ofText (s : String) : Except Fault Value := (Reader.value Reader.greatestDepth).runAll s

end InterfaceGen.Json
