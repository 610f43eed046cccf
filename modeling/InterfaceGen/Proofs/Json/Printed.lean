import InterfaceGen.Json.Printer
import InterfaceGen.Proofs.Json.Integers
import InterfaceGen.Proofs.Json.Merged

/-!
# Printed values spell themselves

A compact text of a value spells this value if its numbers are integers that are read as such, and
if arrays and objects nest no deeper in it than a text may nest. The members of an object are all
there, in their order, also those under a key that occurs twice. What is said here holds of every
way to print values that has escapes of its own for characters.
-/

namespace InterfaceGen.Json

/-! ### Strings -/

/-- The letters of escapes, and the characters that they stand for. -/
def letterEscapes : List (Char × Char) :=
  [('"', '"'), ('\\', '\\'), ('n', '\n'), ('r', '\r'), ('t', '\t'), ('b', '\x08'), ('f', '\x0c')]

/-- How a character may be spelled in a string. -/
inductive EscapedAs (c : Char) : List Char → Prop
  | itself (quote : c ≠ '"') (backslash : c ≠ '\\') (visible : 0x20 ≤ c.toNat) : EscapedAs c [c]
  | letter {l : Char} (known : (l, c) ∈ letterEscapes) : EscapedAs c ['\\', l]
  | numeric (control : c.toNat < 0x20) : EscapedAs c (numericEscape c)

theorem hexQuad?_control :
    ∀ n < 32, hexQuad? '0' '0' (hexDigit (n / 16)) (hexDigit (n % 16)) = some n := by
  decide

theorem readEscape_letter {l c : Char} (h : (l, c) ∈ letterEscapes) (r : List Char) :
    readEscape (l :: r) = .ok (c, r) := by
  have all : ∀ p ∈ letterEscapes, readEscape (p.1 :: r) = .ok (p.2, r) := by
    simp only [letterEscapes, List.forall_mem_cons]
    exact ⟨rfl, rfl, rfl, rfl, rfl, rfl, rfl, nofun⟩
  exact all (l, c) h

theorem readEscape_numeric {c : Char} (h : c.toNat < 0x20) (r : List Char) :
    readEscape ('u' :: '0' :: '0' :: hexDigit (c.toNat / 16) :: hexDigit (c.toNat % 16) :: r) =
      .ok (c, r) := by
  have quad := hexQuad?_control c.toNat h
  rw [readEscape, readHex, quad]
  dsimp only
  rw [if_neg (by omega), if_neg (by omega), Char.ofNat_toNat]

theorem escapedAs_escapeChar (c : Char) : EscapedAs c (escapeChar c) := by
  unfold escapeChar
  split
  next same => subst same; exact .letter (by decide)
  next quote =>
  split
  next same => subst same; exact .letter (by decide)
  next backslash =>
  split
  next visible => exact .itself quote backslash visible
  next control =>
  split
  next same => subst same; exact .letter (by decide)
  next =>
  split
  next same => subst same; exact .letter (by decide)
  next =>
  split
  next same => subst same; exact .letter (by decide)
  next =>
  split
  next same => subst same; exact .letter (by decide)
  next =>
  split
  next same => subst same; exact .letter (by decide)
  next => exact .numeric (Nat.lt_of_not_le control)

theorem readText_backslash {t r : List Char} {c : Char} (h : readEscape t = .ok (c, r))
    (acc : List Char) : readText acc ('\\' :: t) = readText (c :: acc) r := by
  rw [readText]
  split
  next e => rw [h] at e; cases e
  next e => rw [h] at e; cases e; rfl

theorem readText_escapedAs {c : Char} {t : List Char} (h : EscapedAs c t) (acc r : List Char) :
    readText acc (t ++ r) = readText (c :: acc) r := by
  cases h with
  | itself quote backslash visible =>
    rw [List.singleton_append, readText]
    · rw [if_neg (Nat.not_lt_of_le visible)]
    · exact quote
    · exact backslash
  | letter known => exact readText_backslash (readEscape_letter known r) acc
  | numeric control => exact readText_backslash (readEscape_numeric control r) acc

/-- A text between quotes, with some escapes. -/
def quotedBy (escape : Char → List Char) (s : String) : List Char :=
  '"' :: s.toList.flatMap escape ++ ['"']

theorem quotedBy_append (escape : Char → List Char) (s : String) (r : List Char) :
    quotedBy escape s ++ r = '"' :: (s.toList.flatMap escape ++ '"' :: r) := by
  simp [quotedBy]

/-- What reads the spelling of one character reads those of many. -/
theorem read_flatMap {ρ : Type} {read : List Char → List Char → ρ} {escape : Char → List Char}
    (step : ∀ c acc r, read acc (escape c ++ r) = read (c :: acc) r) (cs acc r : List Char) :
    read acc (cs.flatMap escape ++ r) = read (cs.reverse ++ acc) r := by
  induction cs generalizing acc with
  | nil => rfl
  | cons c cs ih =>
    rw [List.flatMap_cons, List.append_assoc, step, ih, List.reverse_cons, List.append_assoc]
    rfl

theorem readText_quotedBy {escape : Char → List Char} (escaped : ∀ c, EscapedAs c (escape c))
    (s : String) (r : List Char) :
    readText [] (s.toList.flatMap escape ++ '"' :: r) = .ok (s, r) := by
  rw [read_flatMap fun c => readText_escapedAs (escaped c), readText, List.append_nil,
    List.reverse_reverse, String.ofList_toList]

/-! ### Numbers -/

def startsNumber (c : Char) : Bool := c = '-' || isDigit c

theorem Number.Whole.text_eq_cons {n : Number} (h : n.Whole) :
    ∃ c u, n.text = c :: u ∧ startsNumber c = true := by
  obtain ⟨i, rfl, -⟩ := h
  cases i with
  | ofNat m =>
    obtain ⟨d, ds, digits, digit⟩ := toDigits_eq_cons m
    exact ⟨d, ds, by rw [Number.text_ofNat, digits], by rw [startsNumber, digit, Bool.or_true]⟩
  | negSucc m => exact ⟨'-', _, Number.text_negSucc m, rfl⟩

theorem ne_of_startsNumber {c d : Char} (h : startsNumber c = true)
    (other : startsNumber d = false) : c ≠ d := by
  rintro rfl
  rw [h] at other
  cases other

theorem isSeparator_of_startsNumber {c : Char} (h : startsNumber c = true) :
    isSeparator c = false := by
  by_contra blank
  simp only [isSeparator, Bool.not_eq_false, Bool.or_eq_true, decide_eq_true_eq] at blank
  rcases blank with ((rfl | rfl) | rfl) | rfl <;> cases h

theorem readScalar_number {n : Number} (h : n.Whole) {r : List Char} (ends : EndsNumber r) :
    readScalar (skipBlanks (n.text ++ r)) = .ok (.number n, r) := by
  obtain ⟨c, u, same, start⟩ := h.text_eq_cons
  have read := readNumber_text h ends
  rw [same, List.cons_append] at read ⊢
  rw [skipBlanks_cons (isSeparator_of_startsNumber start), readScalar]
  · refine (if_pos start).trans ?_
    rw [read]
    rfl
  all_goals exact ne_of_startsNumber start rfl

/-! ### Enclosures -/

/-- What may stand between two tokens. -/
def Blanks (gap : List Char) : Prop := ∀ c ∈ gap, isSeparator c = true

theorem blanks_nil : Blanks [] := nofun

theorem skipBlanks_append {gap : List Char} (h : Blanks gap) (s : List Char) :
    skipBlanks (gap ++ s) = skipBlanks s :=
  List.dropWhile_append_of_pos h

theorem commaSeparated_cons (t : List Char) (rest : List (List Char)) :
    commaSeparated (t :: rest) = t ++ rest.flatMap (',' :: ·) := by
  induction rest generalizing t with
  | nil => simp [commaSeparated]
  | cons u rest ih =>
    show t ++ ',' :: commaSeparated (u :: rest) = _
    rw [ih, List.flatMap_cons, List.cons_append]

/-- No text of a value begins with a blank or with a closing bracket. -/
def StartsEntry (t : List Char) : Prop :=
  ∃ c u, t = c :: u ∧ isSeparator c = false ∧ c ≠ ']'

theorem StartsEntry.skipBlanks_append {t : List Char} (h : StartsEntry t) {gap : List Char}
    (blanks : Blanks gap) (r : List Char) : skipBlanks (gap ++ (t ++ r)) = t ++ r := by
  obtain ⟨c, u, rfl, blank, -⟩ := h
  rw [Json.skipBlanks_append blanks, List.cons_append, skipBlanks_cons blank]

theorem nextItem_of_startsEntry {gap t : List Char} (blanks : Blanks gap) (h : StartsEntry t)
    (r : List Char) : nextItem 0 (gap ++ (t ++ r)) = .ok (.entry (t ++ r)) ∧
      ∀ i, nextItem (i + 1) (',' :: (gap ++ (t ++ r))) = .ok (.entry (t ++ r)) := by
  have stands := h.skipBlanks_append blanks r
  obtain ⟨c, u, rfl, -, bracket⟩ := h
  constructor
  · exact nextItem_eq_entry_iff.mpr ⟨⟨c, u ++ r, rfl, bracket⟩, .inl ⟨rfl, stands⟩⟩
  · intro i
    refine nextItem_eq_entry_iff.mpr
      ⟨⟨c, u ++ r, rfl, bracket⟩, .inr ⟨i.succ_ne_zero, _, ?_, stands⟩⟩
    exact skipBlanks_cons (by decide) _

theorem nextItem_bracket {gap : List Char} (blanks : Blanks gap) (i : Nat) (r : List Char) :
    nextItem i (gap ++ ']' :: r) = .ok (.closed r) :=
  nextItem_eq_closed_iff.mpr (skipBlanks_append blanks _)

theorem nextMember_brace {gap : List Char} (blanks : Blanks gap) (first : Bool) (r : List Char) :
    nextMember first (gap ++ '}' :: r) = .ok (.closed r) :=
  nextMember_eq_closed_iff.mpr (skipBlanks_append blanks _)

theorem nextMember_quote {gap : List Char} (blanks : Blanks gap) (r : List Char) :
    nextMember true (gap ++ '"' :: r) = .ok (.entry r) :=
  nextMember_eq_entry_iff.mpr (.inl ⟨rfl, skipBlanks_append blanks _⟩)

theorem nextMember_comma {gap : List Char} (blanks : Blanks gap) (r : List Char) :
    nextMember false (',' :: (gap ++ '"' :: r)) = .ok (.entry r) :=
  nextMember_eq_entry_iff.mpr
    (.inr ⟨rfl, _, skipBlanks_cons (by decide) _, skipBlanks_append blanks _⟩)

theorem endsNumber_of_isSeparator {c : Char} (h : isSeparator c = true) (r : List Char) :
    EndsNumber (c :: r) := by
  rintro d ⟨⟩
  simp only [isSeparator, Bool.or_eq_true, decide_eq_true_eq] at h
  rcases h with ((rfl | rfl) | rfl) | rfl <;> decide

theorem endsNumber_entries (ts : List (List Char)) {gap : List Char} (blanks : Blanks gap)
    {c : Char} (h : c = ']' ∨ c = '}') (r : List Char) :
    EndsNumber (ts.flatMap (',' :: ·) ++ (gap ++ c :: r)) := by
  cases ts with
  | cons t rest =>
    rintro d ⟨⟩
    decide
  | nil =>
    cases gap with
    | cons b rest => exact endsNumber_of_isSeparator (blanks b List.mem_cons_self) _
    | nil =>
      rintro d ⟨⟩
      rcases h with rfl | rfl <;> decide

section enclosures

variable {spelling : Spelling Value} {text : Value → List Char} {gap close : List Char}

theorem items_of_printed (gaps : Blanks gap) (closes : Blanks close) {items : List Value}
    (r : List Char) (starts : ∀ v ∈ items, StartsEntry (text v))
    (below : ∀ v ∈ items, ∀ r, EndsNumber r → spelling (text v ++ r) v r) :
    Items spelling 0 (commaSeparated (items.map fun v => gap ++ text v) ++ (close ++ ']' :: r))
      items r := by
  -- Behind the first item each further one has its comma in front, so the induction is on these.
  have tail (i : Nat) {rest : List Value} (starts : ∀ v ∈ rest, StartsEntry (text v))
      (below : ∀ v ∈ rest, ∀ r, EndsNumber r → spelling (text v ++ r) v r) :
      Items spelling (i + 1)
        ((rest.map fun v => gap ++ text v).flatMap (',' :: ·) ++ (close ++ ']' :: r)) rest r := by
    induction rest generalizing i with
    | nil => exact .closed (nextItem_bracket closes _ r)
    | cons v rest ih =>
      obtain ⟨start, starts⟩ := List.forall_mem_cons.mp starts
      obtain ⟨here, below⟩ := List.forall_mem_cons.mp below
      rw [List.map_cons, List.flatMap_cons, List.append_assoc, List.cons_append, List.append_assoc]
      exact .entry ((nextItem_of_startsEntry gaps start _).2 i)
        (here _ (endsNumber_entries _ closes (.inl rfl) r)) (ih (i + 1) starts below)
  cases items with
  | nil => exact .closed (nextItem_bracket closes 0 r)
  | cons v rest =>
    obtain ⟨start, starts⟩ := List.forall_mem_cons.mp starts
    obtain ⟨here, below⟩ := List.forall_mem_cons.mp below
    rw [List.map_cons, commaSeparated_cons, List.append_assoc, List.append_assoc]
    exact .entry (nextItem_of_startsEntry gaps start _).1
      (here _ (endsNumber_entries _ closes (.inl rfl) r)) (tail 0 starts below)

variable {escape : Char → List Char}

def memberBy (escape : Char → List Char) (text : Value → List Char) (m : String × Value) :
    List Char :=
  quotedBy escape m.1 ++ ':' :: text m.2

theorem memberBy_append (m : String × Value) (r : List Char) : memberBy escape text m ++ r =
    '"' :: (m.1.toList.flatMap escape ++ '"' :: ':' :: (text m.2 ++ r)) := by
  rw [memberBy, List.append_assoc, quotedBy_append, List.cons_append]

theorem members_of_printed (gaps : Blanks gap) (closes : Blanks close)
    {members : List (String × Value)} (r : List Char) (escaped : ∀ c, EscapedAs c (escape c))
    (below : ∀ m ∈ members, ∀ r, EndsNumber r → spelling (text m.2 ++ r) m.2 r) :
    Members spelling true
      (commaSeparated (members.map fun m => gap ++ memberBy escape text m) ++ (close ++ '}' :: r))
      members r := by
  have tail {rest : List (String × Value)}
      (below : ∀ m ∈ rest, ∀ r, EndsNumber r → spelling (text m.2 ++ r) m.2 r) :
      Members spelling false
        ((rest.map fun m => gap ++ memberBy escape text m).flatMap (',' :: ·) ++
          (close ++ '}' :: r)) rest r := by
    induction rest with
    | nil => exact .closed (nextMember_brace closes false r)
    | cons m rest ih =>
      obtain ⟨here, below⟩ := List.forall_mem_cons.mp below
      rw [List.map_cons, List.flatMap_cons, List.append_assoc, List.cons_append, List.append_assoc,
        memberBy_append]
      exact .entry (nextMember_comma gaps _) (readText_quotedBy escaped m.1 _) rfl
        (here _ (endsNumber_entries _ closes (.inr rfl) r)) (ih below)
  cases members with
  | nil => exact .closed (nextMember_brace closes true r)
  | cons m rest =>
    obtain ⟨here, below⟩ := List.forall_mem_cons.mp below
    rw [List.map_cons, commaSeparated_cons, List.append_assoc, List.append_assoc, memberBy_append]
    exact .entry (nextMember_quote gaps _) (readText_quotedBy escaped m.1 _) rfl
      (here _ (endsNumber_entries _ closes (.inr rfl) r)) (tail below)

end enclosures

/-! ### Values -/

mutual

/-- How deep arrays and objects nest in a value. -/
def Value.depth : Value → Nat
  | .array items => itemsDepth items + 1
  | .object members => membersDepth members + 1
  | .null => 0
  | .boolean _ => 0
  | .number _ => 0
  | .string _ => 0

def itemsDepth : List Value → Nat
  | [] => 0
  | v :: rest => max v.depth (itemsDepth rest)

def membersDepth : List (String × Value) → Nat
  | [] => 0
  | (_, v) :: rest => max v.depth (membersDepth rest)

end

theorem itemsDepth_le_iff {items : List Value} {n : Nat} :
    itemsDepth items ≤ n ↔ ∀ v ∈ items, v.depth ≤ n := by
  induction items with
  | nil => simp [itemsDepth]
  | cons v rest ih => rw [itemsDepth, Nat.max_le, ih, List.forall_mem_cons]

theorem membersDepth_le_iff {members : List (String × Value)} {n : Nat} :
    membersDepth members ≤ n ↔ ∀ m ∈ members, m.2.depth ≤ n := by
  induction members with
  | nil => simp [membersDepth]
  | cons m rest ih => rw [membersDepth, Nat.max_le, ih, List.forall_mem_cons]

/-- All numbers in the value are integers that are read as such. -/
inductive Value.WholeNumbers : Value → Prop
  | null : WholeNumbers .null
  | boolean (b : Bool) : WholeNumbers (.boolean b)
  | number {n : Number} (whole : n.Whole) : WholeNumbers (.number n)
  | string (s : String) : WholeNumbers (.string s)
  | array {items : List Value} (below : ∀ v ∈ items, WholeNumbers v) : WholeNumbers (.array items)
  | object {members : List (String × Value)} (below : ∀ m ∈ members, WholeNumbers m.2) :
      WholeNumbers (.object members)

attribute [simp] Value.WholeNumbers.null Value.WholeNumbers.boolean Value.WholeNumbers.string

@[simp] theorem Value.wholeNumbers_number_iff {n : Number} :
    (Value.number n).WholeNumbers ↔ n.Whole :=
  ⟨fun | .number whole => whole, .number⟩

@[simp] theorem Value.wholeNumbers_array_iff {items : List Value} :
    (Value.array items).WholeNumbers ↔ ∀ v ∈ items, v.WholeNumbers :=
  ⟨fun | .array below => below, .array⟩

@[simp] theorem Value.wholeNumbers_object_iff {members : List (String × Value)} :
    (Value.object members).WholeNumbers ↔ ∀ m ∈ members, m.2.WholeNumbers :=
  ⟨fun | .object below => below, .object⟩

inductive Value.NumberFree : Value → Prop
  | null : NumberFree .null
  | boolean (b : Bool) : NumberFree (.boolean b)
  | string (s : String) : NumberFree (.string s)
  | array {items : List Value} (below : ∀ v ∈ items, NumberFree v) : NumberFree (.array items)
  | object {members : List (String × Value)} (below : ∀ m ∈ members, NumberFree m.2) :
      NumberFree (.object members)

theorem Value.NumberFree.wholeNumbers {v : Value} (h : v.NumberFree) : v.WholeNumbers := by
  induction h with
  | null => exact .null
  | boolean b => exact .boolean b
  | string s => exact .string s
  | array _ ih => exact .array ih
  | object _ ih => exact .object ih

/-- A way to print values compactly, with its own escapes. -/
structure Printing (text : Value → List Char) (escape : Char → List Char) : Prop where
  escaped (c : Char) : EscapedAs c (escape c)
  null : text .null = Value.null.compact
  boolean (b : Bool) : text (.boolean b) = (Value.boolean b).compact
  number (n : Number) : text (.number n) = n.text
  string (s : String) : text (.string s) = quotedBy escape s
  array (items : List Value) : text (.array items) = listText (items.map text)
  object (members : List (String × Value)) :
    text (.object members) = recordText (members.map (memberBy escape text))

theorem compactItems_eq_map (items : List Value) :
    Value.compactItems items = items.map Value.compact := by
  induction items with
  | nil => rw [Value.compactItems, List.map_nil]
  | cons v rest ih => rw [Value.compactItems, ih, List.map_cons]

theorem compactMembers_eq_map (members : List (String × Value)) :
    Value.compactMembers members = members.map fun m => memberText m.1 m.2.compact := by
  induction members with
  | nil => rw [Value.compactMembers, List.map_nil]
  | cons m rest ih => rw [Value.compactMembers, ih, List.map_cons]

theorem printing_compact : Printing Value.compact escapeChar where
  escaped := escapedAs_escapeChar
  null := rfl
  boolean _ := rfl
  number n := by rw [Value.compact]
  string s := by rw [Value.compact]; rfl
  array items := by rw [Value.compact, compactItems_eq_map]
  object members := by rw [Value.compact, compactMembers_eq_map]; rfl

theorem spells_of_scalar {n : Nat} {s r : List Char} {v : Value}
    (h : readScalar (skipBlanks s) = .ok (v, r)) : Spells n s v r := by
  cases n <;> exact .scalar h

namespace Printing

variable {text : Value → List Char} {escape : Char → List Char}

theorem startsEntry (h : Printing text escape) {v : Value} (whole : v.WholeNumbers) :
    StartsEntry (text v) := by
  cases whole with
  | null => rw [h.null]; exact ⟨_, _, rfl, by decide, by decide⟩
  | boolean b => rw [h.boolean]; cases b <;> exact ⟨_, _, rfl, by decide, by decide⟩
  | number whole =>
    obtain ⟨c, u, same, start⟩ := whole.text_eq_cons
    rw [h.number, same]
    exact ⟨c, u, rfl, isSeparator_of_startsNumber start, ne_of_startsNumber start rfl⟩
  | string s => rw [h.string]; exact ⟨_, _, rfl, by decide, by decide⟩
  | array below => rw [h.array]; exact ⟨_, _, rfl, by decide, by decide⟩
  | object below => rw [h.object]; exact ⟨_, _, rfl, by decide, by decide⟩

/-- A printed value is spelled by its text, if the text may nest so deep. -/
theorem spells (h : Printing text escape) {v : Value} (whole : v.WholeNumbers) {n : Nat}
    (fits : v.depth ≤ n) {r : List Char} (ends : EndsNumber r) : Spells n (text v ++ r) v r := by
  induction whole generalizing n r with
  | null => exact h.null ▸ spells_of_scalar rfl
  | boolean b => cases b <;> exact h.boolean _ ▸ spells_of_scalar rfl
  | number whole => exact h.number _ ▸ spells_of_scalar (readScalar_number whole ends)
  | string s =>
    refine spells_of_scalar ?_
    rw [h.string, quotedBy_append, skipBlanks_cons (by decide), readScalar,
      readText_quotedBy h.escaped]
    rfl
  | @array items below ih =>
    rw [Value.depth] at fits
    obtain ⟨n, rfl⟩ : ∃ m, n = m + 1 := ⟨n - 1, by omega⟩
    have inside := itemsDepth_le_iff.mp (Nat.le_of_succ_le_succ fits)
    rw [h.array]
    refine .array (t := commaSeparated (items.map text) ++ ']' :: r) ?_ ?_
    · simp [listText, skipBlanks_cons (c := '[') (by decide)]
    · exact items_of_printed blanks_nil blanks_nil r
        (fun v member => h.startsEntry (below v member))
        fun v member r ends => ih v member (inside v member) ends
  | @object members below ih =>
    rw [Value.depth] at fits
    obtain ⟨n, rfl⟩ : ∃ m, n = m + 1 := ⟨n - 1, by omega⟩
    have inside := membersDepth_le_iff.mp (Nat.le_of_succ_le_succ fits)
    rw [h.object]
    refine .object (t := commaSeparated (members.map (memberBy escape text)) ++ '}' :: r) ?_ ?_
    · simp [recordText, skipBlanks_cons (c := '{') (by decide)]
    · exact members_of_printed blanks_nil blanks_nil r h.escaped
        fun m member r ends => ih m member (inside m member) ends

end Printing

end InterfaceGen.Json
