import Mathlib.Data.List.DropRight
import InterfaceGen.Json.Reader
import InterfaceGen.Proofs.OrderedMap

/-!
# Texts that spell a document

`Spells n s v r` says that the text `s` begins with a spelling of the document `v`, whose arrays and
objects nest at most `n` deep, and that the text `r` follows it. The members of an object are all
listed, also those whose key occurs again. Where a text spells a document, what a reader makes of
the text depends on the document alone: `Reader.Reads` says so of a reader, and each way to put
readers together has a lemma here.
-/

namespace InterfaceGen.Json

/-- What stands at the front of a text, and what follows it. -/
abbrev Spelling (δ : Type) := List Char → δ → List Char → Prop

/-- The items of an array from index `i` on, and its closing bracket. -/
inductive Items (item : Spelling Value) : Nat → List Char → List Value → List Char → Prop
  | closed {i : Nat} {s r : List Char} (h : nextItem i s = .ok (.closed r)) : Items item i s [] r
  | entry {i : Nat} {s t u r : List Char} {v : Value} {vs : List Value}
      (h : nextItem i s = .ok (.entry t)) (here : item t v u)
      (rest : Items item (i + 1) u vs r) : Items item i s (v :: vs) r

/-- The members of an object in order, and its closing brace. -/
inductive Members (value : Spelling Value) :
    Bool → List Char → List (String × Value) → List Char → Prop
  | closed {first : Bool} {s r : List Char} (h : nextMember first s = .ok (.closed r)) :
      Members value first s [] r
  | entry {first : Bool} {s t u v w r : List Char} {name : String} {x : Value}
      {ms : List (String × Value)} (h : nextMember first s = .ok (.entry t))
      (key : readText [] t = .ok (name, u)) (colon : readColon u = .ok v) (here : value v x w)
      (rest : Members value false w ms r) : Members value first s ((name, x) :: ms) r

/-- One document: a scalar, or what `items` or `members` say after an opening bracket or brace. -/
inductive Spelled (items : Spelling (List Value)) (members : Spelling (List (String × Value))) :
    List Char → Value → List Char → Prop
  | scalar {s r : List Char} {v : Value} (h : readScalar (skipBlanks s) = .ok (v, r)) :
      Spelled items members s v r
  | array {s t r : List Char} {vs : List Value} (h : skipBlanks s = '[' :: t)
      (read : items t vs r) : Spelled items members s (.array vs) r
  | object {s t r : List Char} {ms : List (String × Value)} (h : skipBlanks s = '{' :: t)
      (read : members t ms r) : Spelled items members s (.object ms) r

def Spells : Nat → Spelling Value
  | 0 => Spelled (fun _ _ _ => False) fun _ _ _ => False
  | n + 1 => Spelled (Items (Spells n) 0) (Members (Spells n) true)

/-! ### Scalars -/

theorem map_pair_eq_ok_iff {ε α β γ : Type} {x : Except ε (α × β)} {f : α → γ} {c : γ} {b : β} :
    (x.map fun p => (f p.1, p.2)) = .ok (c, b) ↔ ∃ a, x = .ok (a, b) ∧ f a = c := by
  cases x with
  | error e => simp [Except.map]
  | ok p =>
    obtain ⟨a, b'⟩ := p
    constructor
    · intro h
      cases h
      exact ⟨a, rfl, rfl⟩
    · rintro ⟨a', h, rfl⟩
      cases h
      rfl

theorem map_word_eq_ok_iff {ε α β : Type} {x : Except ε β} {a c : α} {b : β} :
    x.map (a, ·) = .ok (c, b) ↔ x = .ok b ∧ c = a := by
  cases x with
  | error e => simp [Except.map]
  | ok b' => simp [Except.map, and_comm, eq_comm]

theorem readScalar_bracket (t : List Char) : readScalar ('[' :: t) = .error .expectedValue := rfl

theorem readScalar_brace (t : List Char) : readScalar ('{' :: t) = .error .expectedValue := rfl

/-- Only its first letter tells a null from other scalars. -/
theorem readScalar_null_iff {s r : List Char} :
    readScalar s = .ok (.null, r) ↔ ∃ t, s = 'n' :: t ∧ matchWord ['u', 'l', 'l'] t = .ok r := by
  constructor
  · intro h
    unfold readScalar at h
    split at h
    · cases h
    · exact ⟨_, rfl, (map_word_eq_ok_iff.mp h).1⟩
    · cases (map_word_eq_ok_iff.mp h).2
    · cases (map_word_eq_ok_iff.mp h).2
    · obtain ⟨_, _, h⟩ := map_pair_eq_ok_iff.mp h
      cases h
    · split at h
      · obtain ⟨_, _, h⟩ := map_pair_eq_ok_iff.mp h
        cases h
      · cases h
  · rintro ⟨t, rfl, h⟩
    rw [readScalar, h]
    rfl

theorem readScalar_string_iff {s r : List Char} {text : String} :
    readScalar s = .ok (.string text, r) ↔ ∃ t, s = '"' :: t ∧ readText [] t = .ok (text, r) := by
  constructor
  · intro h
    unfold readScalar at h
    split at h
    · cases h
    · cases (map_word_eq_ok_iff.mp h).2
    · cases (map_word_eq_ok_iff.mp h).2
    · cases (map_word_eq_ok_iff.mp h).2
    · obtain ⟨_, read, same⟩ := map_pair_eq_ok_iff.mp h
      cases same
      exact ⟨_, rfl, read⟩
    · split at h
      · obtain ⟨_, _, same⟩ := map_pair_eq_ok_iff.mp h
        cases same
      · cases h
  · rintro ⟨t, rfl, h⟩
    rw [readScalar, h]
    rfl

theorem readScalar_ne_enclosure {s r : List Char} {v : Value} (h : readScalar s = .ok (v, r)) :
    (∀ vs, v ≠ .array vs) ∧ ∀ ms, v ≠ .object ms := by
  unfold readScalar at h
  split at h
  · cases h
  · cases (map_word_eq_ok_iff.mp h).2
    simp
  · cases (map_word_eq_ok_iff.mp h).2
    simp
  · cases (map_word_eq_ok_iff.mp h).2
    simp
  · obtain ⟨_, _, rfl⟩ := map_pair_eq_ok_iff.mp h
    simp
  · split at h
    · obtain ⟨_, _, rfl⟩ := map_pair_eq_ok_iff.mp h
      simp
    · cases h

@[simp] theorem skipBlanks_skipBlanks (s : List Char) : skipBlanks (skipBlanks s) = skipBlanks s :=
  List.dropWhile_idempotent isSeparator s

theorem skipBlanks_cons {c : Char} (h : isSeparator c = false) (s : List Char) :
    skipBlanks (c :: s) = c :: s :=
  List.dropWhile_cons_of_neg (by simp [h])

/-- Blanks before a document are no part of it. -/
theorem spelled_skipBlanks_iff {items : Spelling (List Value)}
    {members : Spelling (List (String × Value))} {s r : List Char} {v : Value} :
    Spelled items members (skipBlanks s) v r ↔ Spelled items members s v r := by
  constructor <;> intro h
  · cases h with
    | scalar h => exact .scalar (by rwa [skipBlanks_skipBlanks] at h)
    | array h read => exact .array (by rwa [skipBlanks_skipBlanks] at h) read
    | object h read => exact .object (by rwa [skipBlanks_skipBlanks] at h) read
  · cases h with
    | scalar h => exact .scalar (by rwa [skipBlanks_skipBlanks])
    | array h read => exact .array (by rwa [skipBlanks_skipBlanks]) read
    | object h read => exact .object (by rwa [skipBlanks_skipBlanks]) read

theorem spells_skipBlanks_iff {n : Nat} {s r : List Char} {v : Value} :
    Spells n (skipBlanks s) v r ↔ Spells n s v r := by
  cases n <;> exact spelled_skipBlanks_iff

/-! ### What stands next -/

section next

variable {i : Nat} {first : Bool} {s t r : List Char}

theorem nextItem_eq_closed_iff : nextItem i s = .ok (.closed r) ↔ skipBlanks s = ']' :: r := by
  constructor
  · intro h
    unfold nextItem at h
    split at h
    next => cases h
    next bracket => cases h; exact bracket
    next =>
      split at h
      next => cases h
      next =>
        split at h
        next => split at h <;> cases h
        next => cases h
  · intro bracket
    rw [nextItem, bracket]
    rfl

/-- The first item stands where it is; before a later one there is a comma. -/
theorem nextItem_eq_entry_iff : nextItem i s = .ok (.entry t) ↔ (∃ c u, t = c :: u ∧ c ≠ ']') ∧
    (i = 0 ∧ skipBlanks s = t ∨ i ≠ 0 ∧ ∃ u, skipBlanks s = ',' :: u ∧ skipBlanks u = t) := by
  constructor
  · intro h
    unfold nextItem at h
    split at h
    next => cases h
    next => cases h
    next c rest bracket blanks =>
      split at h
      next isFirst =>
        cases h
        exact ⟨⟨c, rest, rfl, fun same => bracket (by rw [same])⟩, .inl ⟨isFirst, blanks⟩⟩
      next later =>
        split at h
        next comma =>
          split at h
          next => cases h
          next => cases h
          next some other =>
            cases h
            obtain ⟨d, u, inner⟩ := List.exists_cons_of_ne_nil some
            refine ⟨⟨d, u, inner, fun same => other u (by rw [inner, same])⟩,
              .inr ⟨later, rest, ?_⟩⟩
            exact ⟨by rw [blanks, comma], rfl⟩
        next => cases h
  · rintro ⟨⟨c, u, rfl, other⟩, ⟨rfl, blanks⟩ | ⟨later, v, comma, blanks⟩⟩
    · rw [nextItem, blanks]
      split
      next same => cases same
      next same => cases same; exact absurd rfl other
      next same => cases same; rfl
    · rw [nextItem, comma]
      split
      next same => cases same
      next same => cases same
      next same =>
        cases same
        rw [if_neg later, if_pos rfl, blanks]
        split
        next same => cases same
        next same => cases same; exact absurd rfl other
        next => rfl

theorem closeArray_eq_ok_iff : closeArray s = .ok r ↔ skipBlanks s = ']' :: r := by
  constructor
  · intro h
    unfold closeArray at h
    split at h
    next => cases h
    next bracket => cases h; exact bracket
    next => split at h <;> cases h
    next => cases h
  · intro bracket
    rw [closeArray, bracket]
    rfl

theorem nextMember_eq_closed_iff :
    nextMember first s = .ok (.closed r) ↔ skipBlanks s = '}' :: r := by
  constructor
  · intro h
    unfold nextMember at h
    split at h
    next => cases h
    next brace => cases h; exact brace
    next =>
      split at h
      next => split at h <;> cases h
      next =>
        split at h
        next => split at h <;> cases h
        next => cases h
  · intro brace
    rw [nextMember, brace]
    rfl

theorem nextMember_eq_entry_iff : nextMember first s = .ok (.entry t) ↔
    first = true ∧ skipBlanks s = '"' :: t ∨
      first = false ∧ ∃ u, skipBlanks s = ',' :: u ∧ skipBlanks u = '"' :: t := by
  constructor
  · intro h
    unfold nextMember at h
    split at h
    next => cases h
    next => cases h
    next blanks =>
      split at h
      next isFirst =>
        split at h
        next quote =>
          cases h
          exact .inl ⟨isFirst, by rw [blanks, quote]⟩
        next => cases h
      next later =>
        split at h
        next comma =>
          split at h
          next => cases h
          next quote =>
            cases h
            exact .inr ⟨by simpa using later, _, by rw [blanks, comma], quote⟩
          next => cases h
          next => cases h
        next => cases h
  · rintro (⟨rfl, quote⟩ | ⟨rfl, u, comma, quote⟩)
    · rw [nextMember, quote]
      rfl
    · rw [nextMember, comma]
      split
      next same => cases same
      next same => cases same
      next same =>
        cases same
        rw [if_neg Bool.false_ne_true, if_pos rfl, quote]
        rfl

theorem readColon_eq_ok_iff : readColon s = .ok r ↔ skipBlanks s = ':' :: r := by
  constructor
  · intro h
    unfold readColon at h
    split at h
    next => cases h
    next colon => cases h; exact colon
    next => cases h
  · intro colon
    rw [readColon, colon]
    rfl

end next

/-! ### Loops, one entry at a time -/

section loops

variable {σ : Type} {item : Nat → σ → Option (Reader σ)} {i : Nat} {state : σ} {s t r : List Char}

theorem readItems_of_none (h : item i state = none) :
    readItems item i state s =
      match closeArray s with
      | .error e => .error (.here e)
      | .ok rest => .ok (state, rest) := by
  have unfolded := readItems.eq_def item i state s
  rw [h] at unfolded
  exact unfolded

theorem readItems_of_closed {reader : Reader σ} (h : item i state = some reader)
    (next : nextItem i s = .ok (.closed r)) : readItems item i state s = .ok (state, r) := by
  rw [readItems, h]
  dsimp only
  split
  next e => rw [next] at e; cases e
  next e => rw [next] at e; cases e; rfl
  next e => rw [next] at e; cases e

theorem readItems_of_entry {reader : Reader σ} (h : item i state = some reader)
    (next : nextItem i s = .ok (.entry t)) :
    readItems item i state s =
      match reader.run t with
      | .error f => .error (f.within (.index i))
      | .ok (state', rest) => readItems item (i + 1) state' rest := by
  rw [readItems, h]
  dsimp only
  split
  next e => rw [next] at e; cases e
  next e => rw [next] at e; cases e
  next e =>
    rw [next] at e
    cases e
    split
    next run => rw [run]
    next run => rw [run]

variable {keyPlace : Place} {member : σ → String → Except Cause (Reader σ)} {first : Bool}
  {u : List Char} {name : String}

theorem readMembers_of_closed (next : nextMember first s = .ok (.closed r)) :
    readMembers keyPlace member first state s = .ok (state, r) := by
  rw [readMembers]
  split
  next e => rw [next] at e; cases e
  next e => rw [next] at e; cases e; rfl
  next e => rw [next] at e; cases e

theorem readMembers_of_entry {v : List Char} (next : nextMember first s = .ok (.entry t))
    (key : readText [] t = .ok (name, u)) (colon : readColon u = .ok v) :
    readMembers keyPlace member first state s =
      match member state name with
      | .error c => .error (.here c)
      | .ok reader =>
        match reader.run v with
        | .error f => .error (f.within (.key name))
        | .ok (state', rest) => readMembers keyPlace member false state' rest := by
  rw [readMembers]
  split
  next e => rw [next] at e; cases e
  next e => rw [next] at e; cases e
  next e =>
    rw [next] at e
    cases e
    split
    next e => rw [key] at e; cases e
    next e =>
      rw [key] at e
      cases e
      cases member state name with
      | error c => rfl
      | ok reader =>
        dsimp only
        split
        next e => rw [colon] at e; cases e
        next e =>
          rw [colon] at e
          cases e
          split
          next run => rw [run]
          next run => rw [run]

end loops

/-! ### Readers of a document -/

/-- Where `spelling` says that a text begins with a document, the reader succeeds just if the
document means something, and with what it means. -/
def Reader.Reads {α δ : Type} (spelling : Spelling δ) (reader : Reader α) (means : δ → α → Prop) :
    Prop :=
  ∀ ⦃s : List Char⦄ ⦃d : δ⦄ ⦃r : List Char⦄, spelling s d r →
    ∀ {a : α} {rest : List Char}, reader.run s = .ok (a, rest) ↔ means d a ∧ rest = r

namespace Reader

variable {α β δ σ : Type} {spelling : Spelling δ} {reader : Reader α} {means : δ → α → Prop}
  {s r : List Char}

theorem run_map_eq_ok_iff {f : α → β} {b : β} :
    (reader.map f).run s = .ok (b, r) ↔ ∃ a, reader.run s = .ok (a, r) ∧ f a = b := by
  unfold map
  dsimp only
  split
  next e => simp [e]
  next a rest e => simp [e, and_comm, eq_comm]

theorem run_check_eq_ok_iff {f : α → Except Cause β} {b : β} :
    (reader.check f).run s = .ok (b, r) ↔ ∃ a, reader.run s = .ok (a, r) ∧ f a = .ok b := by
  unfold check
  dsimp only
  split
  next e => simp [e]
  next a rest e =>
    split
    next e' => simp [e, e', eq_comm]
    next b' e' => simp [e, e', eq_comm, and_comm]

theorem run_dispatch_eq_ok_iff {scalar : Value → Except Cause α}
    {list record : Except Cause (Reader α)} {a : α} :
    (dispatch scalar list record).run s = .ok (a, r) ↔
      (∃ v, readScalar (skipBlanks s) = .ok (v, r) ∧ scalar v = .ok a) ∨
        (∃ t reader, skipBlanks s = '[' :: t ∧ list = .ok reader ∧ reader.run t = .ok (a, r)) ∨
          ∃ t reader, skipBlanks s = '{' :: t ∧ record = .ok reader ∧
            reader.run t = .ok (a, r) := by
  unfold dispatch
  dsimp only
  split
  next t bracket =>
    rw [bracket]
    cases list <;> simp [readScalar_bracket]
  next t brace =>
    rw [brace]
    cases record <;> simp [readScalar_brace]
  next bracket brace =>
    constructor
    · intro run
      split at run
      next => cases run
      next v rest read =>
        split at run
        next => cases run
        next judged =>
          cases run
          exact .inl ⟨v, read, judged⟩
    · rintro (⟨v, read, judged⟩ | ⟨t, _, same, _⟩ | ⟨t, _, same, _⟩)
      · rw [read]
        dsimp only
        rw [judged]
      · exact absurd same (bracket t)
      · exact absurd same (brace t)

theorem run_optional_eq_ok_iff {o : Option α} :
    reader.optional.run s = .ok (o, r) ↔
      (∃ t, skipBlanks s = 'n' :: t ∧ matchWord ['u', 'l', 'l'] t = .ok r ∧ o = none) ∨
        ∃ a, (∀ t, skipBlanks s ≠ 'n' :: t) ∧ reader.run (skipBlanks s) = .ok (a, r) ∧
          o = some a := by
  unfold optional
  dsimp only
  split
  next t null =>
    rw [null]
    cases word : matchWord ['u', 'l', 'l'] t <;> simp [word, eq_comm, and_comm]
  next other =>
    constructor
    · intro run
      split at run
      next => cases run
      next a _ read =>
        cases run
        exact .inr ⟨a, other, read, rfl⟩
    · rintro (⟨t, same, _⟩ | ⟨a, -, read, rfl⟩)
      · exact absurd same (other t)
      · rw [read]

namespace Reads

theorem congr (h : reader.Reads spelling means) {means' : δ → α → Prop}
    (same : ∀ d a, means d a ↔ means' d a) : reader.Reads spelling means' := by
  intro s d r spelled a rest
  rw [h spelled, same]

theorem map (h : reader.Reads spelling means) (f : α → β) :
    (reader.map f).Reads spelling fun d b => ∃ a, means d a ∧ f a = b := by
  intro s d r spelled b rest
  rw [run_map_eq_ok_iff]
  constructor
  · rintro ⟨a, run, same⟩
    obtain ⟨here, rfl⟩ := (h spelled).mp run
    exact ⟨⟨a, here, same⟩, rfl⟩
  · rintro ⟨⟨a, here, same⟩, rfl⟩
    exact ⟨a, (h spelled).mpr ⟨here, rfl⟩, same⟩

theorem check (h : reader.Reads spelling means) (f : α → Except Cause β) :
    (reader.check f).Reads spelling fun d b => ∃ a, means d a ∧ f a = .ok b := by
  intro s d r spelled b rest
  rw [run_check_eq_ok_iff]
  constructor
  · rintro ⟨a, run, judged⟩
    obtain ⟨here, rfl⟩ := (h spelled).mp run
    exact ⟨⟨a, here, judged⟩, rfl⟩
  · rintro ⟨⟨a, here, judged⟩, rfl⟩
    exact ⟨a, (h spelled).mpr ⟨here, rfl⟩, judged⟩

theorem itemsOf {item : Spelling Value} {means : Value → α → Prop}
    (h : reader.Reads item means) :
    (reader.itemsOf).Reads (Items item 0) (List.Forall₂ means) := by
  have loop {i : Nat} {s r : List Char} {vs : List Value} (spelled : Items item i s vs r)
      (acc acc' : List α) (rest : List Char) :
      readItems (fun _ (acc : List α) => some (reader.map (· :: acc))) i acc s =
          .ok (acc', rest) ↔
        (∃ as, List.Forall₂ means vs as ∧ acc' = as.reverse ++ acc) ∧ rest = r := by
    induction spelled generalizing acc with
    | closed next =>
      rw [readItems_of_closed rfl next]
      constructor
      · rintro ⟨⟩
        exact ⟨⟨[], .nil, rfl⟩, rfl⟩
      · rintro ⟨⟨_, ⟨⟩, rfl⟩, rfl⟩
        rfl
    | entry next here _ ih =>
      rw [readItems_of_entry rfl next]
      constructor
      · intro run
        split at run
        next => cases run
        next first =>
          obtain ⟨a, ran, rfl⟩ := run_map_eq_ok_iff.mp first
          obtain ⟨head, rfl⟩ := (h here).mp ran
          obtain ⟨⟨as, tail, rfl⟩, rfl⟩ := (ih (a :: acc)).mp run
          exact ⟨⟨a :: as, .cons head tail, by simp⟩, rfl⟩
      · rintro ⟨⟨_, all, rfl⟩, rfl⟩
        cases all with
        | @cons _ a _ as head tail =>
          rw [run_map_eq_ok_iff.mpr ⟨a, (h here).mpr ⟨head, rfl⟩, rfl⟩]
          exact (ih (a :: acc)).mpr ⟨⟨as, tail, by simp⟩, rfl⟩
  intro s vs r spelled as rest
  unfold Reader.itemsOf
  rw [run_map_eq_ok_iff]
  constructor
  · rintro ⟨acc, run, rfl⟩
    obtain ⟨⟨as, all, rfl⟩, rfl⟩ := (loop spelled [] acc rest).mp run
    exact ⟨by simpa using all, rfl⟩
  · rintro ⟨all, rfl⟩
    exact ⟨as.reverse, (loop spelled [] _ _).mpr ⟨⟨as, all, by simp⟩, rfl⟩, by simp⟩

/-- Every member of an object is read the same way, and written over what was under its key. -/
theorem entries {value : Spelling Value} {means : Value → α → Prop}
    (h : reader.Reads value means) (keyPlace : Place) :
    (Reader.members keyPlace
        (fun (m : OrderedMap α) key => .ok (reader.map (m.insert key))) []).Reads
      (Members value true) fun ms m => ∃ as,
        OrderedMap.Entrywise means ms as ∧ m = OrderedMap.ofEntries as := by
  have loop {first : Bool} {s r : List Char} {ms : List (String × Value)}
      (spelled : Members value first s ms r) (m m' : OrderedMap α) (rest : List Char) :
      readMembers keyPlace (fun m key => .ok (reader.map (OrderedMap.insert m key))) first m s =
          .ok (m', rest) ↔
        (∃ as, OrderedMap.Entrywise means ms as ∧ m' = OrderedMap.insertAll m as) ∧ rest = r := by
    induction spelled generalizing m with
    | closed next =>
      rw [readMembers_of_closed next]
      constructor
      · rintro ⟨⟩
        exact ⟨⟨[], .nil, rfl⟩, rfl⟩
      · rintro ⟨⟨_, ⟨⟩, rfl⟩, rfl⟩
        rfl
    | @entry _ _ _ _ _ _ _ name _ _ next key colon here _ ih =>
      rw [readMembers_of_entry next key colon]
      dsimp only
      constructor
      · intro run
        split at run
        next => cases run
        next first =>
          obtain ⟨a, ran, rfl⟩ := run_map_eq_ok_iff.mp first
          obtain ⟨head, rfl⟩ := (h here).mp ran
          obtain ⟨⟨as, tail, rfl⟩, rfl⟩ := (ih _).mp run
          exact ⟨⟨(name, a) :: as, .cons ⟨rfl, head⟩ tail, rfl⟩, rfl⟩
      · rintro ⟨⟨_, all, rfl⟩, rfl⟩
        cases all with
        | @cons _ a _ as head tail =>
          obtain ⟨rfl, head⟩ := head
          rw [run_map_eq_ok_iff.mpr ⟨a.2, (h here).mpr ⟨head, rfl⟩, rfl⟩]
          exact (ih _).mpr ⟨⟨as, tail, rfl⟩, rfl⟩
  intro s ms r spelled m rest
  exact loop spelled [] m rest

end Reads

/-- What is read behind an opening bracket, if anything may stand there. -/
def ReadsBehind (spelling : Spelling δ) (next : Except Cause (Reader α)) (means : δ → α → Prop) :
    Prop :=
  match next with
  | .ok reader => reader.Reads spelling means
  | .error _ => ∀ ⦃s : List Char⦄ ⦃d : δ⦄ ⦃r : List Char⦄, spelling s d r → ∀ a, ¬means d a

theorem ReadsBehind.refused {c : Cause} (h : ∀ d a, ¬means d a) :
    ReadsBehind spelling (.error c) means :=
  fun _ d _ _ a => h d a

theorem ReadsBehind.nowhere (next : Except Cause (Reader α)) :
    ReadsBehind (fun _ _ _ => False) next means := by
  cases next with
  | error c => exact fun _ _ _ h => h.elim
  | ok reader => exact fun _ _ _ h => h.elim

namespace Reads

variable {items : Spelling (List Value)} {members : Spelling (List (String × Value))}
  {means : Value → α → Prop}

theorem dispatch {scalar : Value → Except Cause α} {list record : Except Cause (Reader α)}
    (scalars : ∀ {s r : List Char} {v : Value}, readScalar s = .ok (v, r) →
      ∀ a, scalar v = .ok a ↔ means v a)
    (lists : ReadsBehind items list fun vs => means (.array vs))
    (records : ReadsBehind members record fun ms => means (.object ms)) :
    (Reader.dispatch scalar list record).Reads (Spelled items members) means := by
  intro s v r spelled a rest
  unfold Reader.dispatch
  dsimp only
  cases spelled with
  | scalar h =>
    split
    next e => rw [e, readScalar_bracket] at h; cases h
    next e => rw [e, readScalar_brace] at h; cases h
    next =>
      rw [h]
      dsimp only
      rw [← scalars h a]
      cases scalar v <;> simp [eq_comm]
  | array h read =>
    rw [h]
    cases list with
    | error c => simpa using fun means _ => lists read a means
    | ok reader => exact lists read
  | object h read =>
    rw [h]
    cases record with
    | error c => simpa using fun means _ => records read a means
    | ok reader => exact records read

/-- A scalar is refused where only arrays and objects mean something. -/
theorem enclosure {wanted : String} {list record : Except Cause (Reader α)}
    (enclosed : ∀ v a, means v a → (∃ ms, v = .object ms) ∨ ∃ vs, v = .array vs)
    (lists : ReadsBehind items list fun vs => means (.array vs))
    (records : ReadsBehind members record fun ms => means (.object ms)) :
    (Reader.dispatch (refuse wanted) list record).Reads (Spelled items members) means := by
  refine dispatch (fun {s r v} read a => ⟨nofun, fun h => ?_⟩) lists records
  have ne := readScalar_ne_enclosure read
  obtain ⟨ms, rfl⟩ | ⟨vs, rfl⟩ := enclosed v a h
  · exact absurd rfl (ne.2 ms)
  · exact absurd rfl (ne.1 vs)

theorem optional (h : reader.Reads (Spelled items members) means) :
    reader.optional.Reads (Spelled items members) fun v o =>
      (v = .null ∧ o = none) ∨ v ≠ .null ∧ ∃ a, means v a ∧ o = some a := by
  intro s v r spelled o rest
  unfold Reader.optional
  dsimp only
  split
  next t e =>
    have null : v = .null ∧ matchWord ['u', 'l', 'l'] t = .ok r := by
      cases spelled with
      | scalar h =>
        rw [e, readScalar] at h
        exact (map_word_eq_ok_iff.mp h).symm
      | array h _ => rw [e] at h; cases h
      | object h _ => rw [e] at h; cases h
    obtain ⟨rfl, word⟩ := null
    rw [word]
    simp [eq_comm]
  next other =>
    have ne : v ≠ .null := by
      rintro rfl
      cases spelled with
      | scalar h =>
        obtain ⟨t, e, -⟩ := readScalar_null_iff.mp h
        exact other t e
    constructor
    · intro run
      split at run
      next => cases run
      next a _ ran =>
        cases run
        obtain ⟨here, rfl⟩ := (h (spelled_skipBlanks_iff.mpr spelled)).mp ran
        exact ⟨.inr ⟨ne, a, here, rfl⟩, rfl⟩
    · rintro ⟨⟨null, -⟩ | ⟨-, a, here, rfl⟩, rfl⟩
      · exact absurd null ne
      · rw [(h (spelled_skipBlanks_iff.mpr spelled)).mpr ⟨here, rfl⟩]

theorem string : Reader.string.Reads (Spelled items members) fun v text => v = .string text := by
  refine dispatch (fun {_ _ v} _ a => ?_) (.refused (by simp)) (.refused (by simp))
  cases v <;> simp [refuse]

theorem unit : Reader.unit.Reads (Spelled items members) fun v _ => v = .null := by
  refine dispatch (fun {_ _ v} _ a => ?_) (.refused (by simp)) (.refused (by simp))
  cases v <;> simp [refuse]

/-- A reader that reads at any depth reads at each. -/
theorem spells (h : ∀ {items : Spelling (List Value)} {members : Spelling (List (String × Value))},
    reader.Reads (Spelled items members) means) (n : Nat) : reader.Reads (Spells n) means := by
  cases n <;> exact h

theorem list (h : ∀ n, reader.Reads (Spells n) means) (n : Nat) :
    (Reader.list n reader).Reads (Spells n) fun v as =>
      ∃ vs, v = .array vs ∧ List.Forall₂ means vs as := by
  have enclosed (v : Value) (as : List α) (h : ∃ vs, v = .array vs ∧ List.Forall₂ means vs as) :
      (∃ ms, v = .object ms) ∨ ∃ vs, v = .array vs :=
    let ⟨vs, same, _⟩ := h
    .inr ⟨vs, same⟩
  cases n with
  | zero => exact enclosure enclosed (.nowhere _) (.nowhere _)
  | succ n =>
    have items : (reader.itemsOf).Reads (Items (Spells n) 0) fun vs as =>
        ∃ vs', Value.array vs = .array vs' ∧ List.Forall₂ means vs' as :=
      (h n).itemsOf.congr fun vs as => by simp
    exact enclosure enclosed items (.refused (by simp))

end Reads

end Reader

end InterfaceGen.Json
