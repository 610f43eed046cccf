import InterfaceGen.Command.Name
import InterfaceGen.Proofs.Interface.NormalForm

/-!
# Reading a text back

The text of a normal form is read from left to right and in one way only, whatever follows it. A
literal may hold every separator, so that it is told where it ends by its quote alone; a name is
told by the first character that is not of an identifier.
-/

namespace InterfaceGen

open Command (isIdentifier isIdentifierStart isIdentifierChar)

/-! ### Where a part of a text ends -/

theorem append_cons_inj {inside : Char → Prop} {xs ys r s : List Char} {c d : Char}
    (hxs : ∀ x ∈ xs, inside x) (hys : ∀ y ∈ ys, inside y) (hc : ¬ inside c) (hd : ¬ inside d)
    (h : xs ++ c :: r = ys ++ d :: s) : xs = ys ∧ c = d ∧ r = s := by
  induction xs generalizing ys with
  | nil =>
    cases ys with
    | nil => exact ⟨rfl, List.cons.inj h⟩
    | cons y ys => exact absurd ((List.cons.inj h).1 ▸ hys y List.mem_cons_self) hc
  | cons x xs ih =>
    cases ys with
    | nil => exact absurd ((List.cons.inj h).1 ▸ hxs x List.mem_cons_self) hd
    | cons y ys =>
      obtain ⟨rfl, tails⟩ := List.cons.inj h
      obtain ⟨rfl, rest⟩ := ih (fun z hz => hxs z (List.mem_cons_of_mem _ hz))
        (fun z hz => hys z (List.mem_cons_of_mem _ hz)) tails
      exact ⟨rfl, rest⟩

/-- Parts that are readable whatever follows them are readable one after the other, if what follows
the last of them is not taken for one more. -/
theorem flatMap_append_inj {α : Type} {text : α → List Char} {xs ys : List α} {r s : List Char}
    (read : ∀ x ∈ xs, ∀ y ∈ ys, ∀ t u, text x ++ t = text y ++ u → x = y ∧ t = u)
    (hr : ∀ y ∈ ys, ∀ t, r ≠ text y ++ t) (hs : ∀ x ∈ xs, ∀ t, s ≠ text x ++ t)
    (h : xs.flatMap text ++ r = ys.flatMap text ++ s) : xs = ys ∧ r = s := by
  induction xs generalizing ys with
  | nil =>
    cases ys with
    | nil => exact ⟨rfl, h⟩
    | cons y ys =>
      rw [List.flatMap_nil, List.nil_append, List.flatMap_cons, List.append_assoc] at h
      exact absurd h (hr y List.mem_cons_self _)
  | cons x xs ih =>
    cases ys with
    | nil =>
      rw [List.flatMap_nil, List.nil_append, List.flatMap_cons, List.append_assoc] at h
      exact absurd h.symm (hs x List.mem_cons_self _)
    | cons y ys =>
      rw [List.flatMap_cons, List.flatMap_cons, List.append_assoc, List.append_assoc] at h
      obtain ⟨rfl, tails⟩ := read x List.mem_cons_self y List.mem_cons_self _ _ h
      obtain ⟨rfl, rest⟩ := ih
        (fun z hz w hw => read z (List.mem_cons_of_mem _ hz) w (List.mem_cons_of_mem _ hw))
        (fun z hz => hr z (List.mem_cons_of_mem _ hz))
        (fun z hz => hs z (List.mem_cons_of_mem _ hz)) tails
      exact ⟨rfl, rest⟩

theorem isIdentifier_start {name : String} (h : isIdentifier name = true) :
    ∃ c rest, name.toList = c :: rest ∧ isIdentifierStart c = true := by
  unfold isIdentifier at h
  cases toList : name.toList with
  | nil =>
    rw [toList] at h
    cases h
  | cons c rest =>
    rw [toList, Bool.and_eq_true] at h
    exact ⟨c, rest, rfl, h.1⟩

theorem isIdentifierChar_of_mem {name : String} (h : isIdentifier name = true) :
    ∀ c ∈ name.toList, isIdentifierChar c = true := by
  unfold isIdentifier at h
  cases toList : name.toList with
  | nil =>
    rw [toList] at h
    cases h
  | cons c rest =>
    rw [toList, Bool.and_eq_true, List.all_eq_true] at h
    intro d member
    rcases List.mem_cons.mp member with rfl | later
    · rw [isIdentifierChar, h.1, Bool.true_or]
    · exact h.2 d later

theorem identifier_append_cons_inj {m n : String} {r s : List Char} {c d : Char}
    (hm : isIdentifier m = true) (hn : isIdentifier n = true)
    (hc : isIdentifierChar c = false) (hd : isIdentifierChar d = false)
    (h : m.toList ++ c :: r = n.toList ++ d :: s) : m = n ∧ c = d ∧ r = s := by
  obtain ⟨same, rest⟩ := append_cons_inj (isIdentifierChar_of_mem hm) (isIdentifierChar_of_mem hn)
    (by rw [hc]; exact Bool.false_ne_true) (by rw [hd]; exact Bool.false_ne_true) h
  exact ⟨String.toList_inj.mp same, rest⟩

theorem quoted_append_inj {v w : String} {r s : List Char} (hv : '\'' ∉ v.toList)
    (hw : '\'' ∉ w.toList) (h : quoted v ++ r = quoted w ++ s) : v = w ∧ r = s := by
  have inside {u : String} (hu : '\'' ∉ u.toList) : ∀ c ∈ u.toList, c ≠ '\'' := by
    rintro c member rfl
    exact hu member
  simp only [quoted, List.cons_append, List.append_assoc, List.nil_append] at h
  obtain ⟨same, -, rest⟩ := append_cons_inj (inside hv) (inside hw) (· rfl) (· rfl)
    (List.cons.inj h).2
  exact ⟨String.toList_inj.mp same, rest⟩

/-! ### Legible normal forms -/

def Alternative.IsOneOf (a : Alternative) : Prop := ∃ values, a = .oneOf values

mutual

/-- No literal has a quote inside, every name is an identifier. -/
inductive Alternative.Legible : Alternative → Prop
  | anyText : Alternative.Legible .anyText
  | oneOf {values : List String} (nonempty : values ≠ [])
      (unquoted : ∀ value ∈ values, '\'' ∉ value.toList) : Alternative.Legible (.oneOf values)
  | number : Alternative.Legible .number
  | boolean : Alternative.Legible .boolean
  | null : Alternative.Legible .null
  | anyObject : Alternative.Legible .anyObject
  | object {members : List (String × Bool × List Alternative)} (h : LegibleMembers members) :
      Alternative.Legible (.object members)

inductive LegibleMembers : List (String × Bool × List Alternative) → Prop
  | intro {members : List (String × Bool × List Alternative)}
      (names : ∀ m ∈ members, isIdentifier m.1 = true)
      (forms : ∀ m ∈ members, NormalForm.Legible m.2.2) : LegibleMembers members

/-- Of two lists of literals side by side the first would not be told from the second. -/
inductive NormalForm.Legible : List Alternative → Prop
  | intro {form : List Alternative} (nonempty : form ≠ [])
      (each : ∀ a ∈ form, Alternative.Legible a)
      (apart : form.Pairwise fun a b => ¬ (a.IsOneOf ∧ b.IsOneOf)) : NormalForm.Legible form

end

/-- Whether an alternative is at its end before a text: literals go on after a separator. -/
def Alternative.EndsBefore (a : Alternative) (rest : List Char) : Prop :=
  a.IsOneOf → ¬ [' ', '|', ' ', '\''] <+: rest

/-- An alternative is readable if what follows it is determined by the whole text, and so is it. -/
def Alternative.Readable (a : Alternative) : Prop :=
  ∀ {b : Alternative} {r s : List Char}, a.Legible → b.Legible → a.EndsBefore r → b.EndsBefore s →
    a.text ++ r = b.text ++ s → a = b ∧ r = s

theorem literals_append_inj {vs ws : List String} {r s : List Char}
    (hvs : ∀ v ∈ vs, '\'' ∉ v.toList) (hws : ∀ w ∈ ws, '\'' ∉ w.toList)
    (hr : ¬ [' ', '|', ' ', '\''] <+: r) (hs : ¬ [' ', '|', ' ', '\''] <+: s)
    (h : vs.flatMap ([' ', '|', ' '] ++ quoted ·) ++ r =
      ws.flatMap ([' ', '|', ' '] ++ quoted ·) ++ s) : vs = ws ∧ r = s := by
  have begins {rest : List Char} (ends : ¬ [' ', '|', ' ', '\''] <+: rest) (value : String)
      (t : List Char) : rest ≠ [' ', '|', ' '] ++ quoted value ++ t := by
    rintro rfl
    exact ends ⟨value.toList ++ ['\''] ++ t, rfl⟩
  refine flatMap_append_inj ?_ (fun w _ => begins hr w) (fun v _ => begins hs v) h
  intro v hv w hw t u same
  rw [List.append_assoc, List.append_assoc] at same
  exact quoted_append_inj (hvs v hv) (hws w hw) (List.append_cancel_left same)

namespace Alternative

def letter : Alternative → Char
  | .anyText => 's'
  | .oneOf _ => '\''
  | .number | .null => 'n'
  | .boolean => 'b'
  | .anyObject | .object _ => '\x7b'

theorem Legible.text_eq_cons {a : Alternative} (h : a.Legible) :
    ∃ rest, a.text = a.letter :: rest := by
  cases h with
  | oneOf nonempty unquoted =>
    rename_i values
    cases values with
    | nil => exact absurd rfl nonempty
    | cons value rest =>
      rw [text, List.map_cons, separated_cons]
      exact ⟨_, rfl⟩
  | anyObject =>
    rw [text, anyObjectText]
    exact ⟨_, rfl⟩
  | object members =>
    rw [text]
    cases memberTexts _ <;> exact ⟨_, rfl⟩
  | _ =>
    rw [text]
    exact ⟨_, rfl⟩

theorem isOneOf_of_letter {a : Alternative} (h : a.letter = '\'') : a.IsOneOf := by
  cases a with
  | oneOf values => exact ⟨values, rfl⟩
  | _ => exact absurd h (by simp [letter])

theorem endsBefore_others {a : Alternative} {others : NormalForm} (each : ∀ b ∈ others, b.Legible)
    (apart : ∀ b ∈ others, ¬ (a.IsOneOf ∧ b.IsOneOf)) (rest : List Char) :
    a.EndsBefore (others.flatMap ([' ', '|', ' '] ++ ·.text) ++ ';' :: rest) := by
  rintro oneOf ⟨more, begins⟩
  cases others with
  | nil => exact absurd (List.cons.inj begins).1 (by decide)
  | cons b others =>
    obtain ⟨text, start⟩ := (each b List.mem_cons_self).text_eq_cons
    rw [List.flatMap_cons, start] at begins
    simp only [List.cons_append, List.nil_append, List.cons.injEq, true_and] at begins
    exact apart b List.mem_cons_self ⟨oneOf, isOneOf_of_letter begins.1.symm⟩

end Alternative

/-! ### Normal forms within members -/

theorem alternatives_append_inj {f g : NormalForm} {r s : List Char}
    (readable : ∀ a ∈ f, a.Readable) (eachF : ∀ a ∈ f, a.Legible) (eachG : ∀ b ∈ g, b.Legible)
    (apartF : f.Pairwise fun a b => ¬ (a.IsOneOf ∧ b.IsOneOf))
    (apartG : g.Pairwise fun a b => ¬ (a.IsOneOf ∧ b.IsOneOf))
    (h : f.flatMap ([' ', '|', ' '] ++ ·.text) ++ ';' :: r =
      g.flatMap ([' ', '|', ' '] ++ ·.text) ++ ';' :: s) : f = g ∧ r = s := by
  induction f generalizing g with
  | nil =>
    cases g with
    | nil => exact ⟨rfl, (List.cons.inj h).2⟩
    | cons b g => exact absurd (List.cons.inj h).1 (by decide)
  | cons a f ih =>
    cases g with
    | nil => exact absurd (List.cons.inj h).1 (by decide)
    | cons b g =>
      rw [List.flatMap_cons, List.flatMap_cons, List.append_assoc, List.append_assoc,
        List.append_assoc, List.append_assoc] at h
      have later {c : Alternative} {l : NormalForm} (each : ∀ x ∈ c :: l, x.Legible) :
          ∀ x ∈ l, x.Legible := fun x hx => each x (List.mem_cons_of_mem _ hx)
      obtain ⟨apartA, othersF⟩ := List.pairwise_cons.mp apartF
      obtain ⟨apartB, othersG⟩ := List.pairwise_cons.mp apartG
      obtain ⟨rfl, tails⟩ := readable a List.mem_cons_self (eachF a List.mem_cons_self)
        (eachG b List.mem_cons_self) (Alternative.endsBefore_others (later eachF) apartA r)
        (Alternative.endsBefore_others (later eachG) apartB s) (List.append_cancel_left h)
      obtain ⟨rfl, rest⟩ := ih (fun x hx => readable x (List.mem_cons_of_mem _ hx)) (later eachF)
        (later eachG) othersF othersG tails
      exact ⟨rfl, rest⟩

theorem NormalForm.text_append_inj {f g : NormalForm} {r s : List Char}
    (readable : ∀ a ∈ f, a.Readable) (hf : NormalForm.Legible f) (hg : NormalForm.Legible g)
    (h : NormalForm.text f ++ ';' :: r = NormalForm.text g ++ ';' :: s) : f = g ∧ r = s := by
  have separate {form : NormalForm} (nonempty : form ≠ []) (rest : List Char) :
      form.flatMap ([' ', '|', ' '] ++ ·.text) ++ ';' :: rest =
        [' ', '|', ' '] ++ (NormalForm.text form ++ ';' :: rest) := by
    rw [NormalForm.text, ← List.append_assoc, separator_append_separated, List.flatMap_map]
    rwa [ne_eq, List.map_eq_nil_iff]
  obtain ⟨nonemptyF, eachF, apartF⟩ := hf
  obtain ⟨nonemptyG, eachG, apartG⟩ := hg
  apply alternatives_append_inj readable eachF eachG apartF apartG
  rw [separate nonemptyF, separate nonemptyG, h]

theorem memberText_append_inj {m n : String} {p q : Bool} {f g : NormalForm} {r s : List Char}
    (readable : ∀ a ∈ f, a.Readable) (hm : isIdentifier m = true) (hn : isIdentifier n = true)
    (hf : NormalForm.Legible f) (hg : NormalForm.Legible g)
    (h : memberText m p (NormalForm.text f) ++ r = memberText n q (NormalForm.text g) ++ s) :
    m = n ∧ p = q ∧ f = g ∧ r = s := by
  have colon : isIdentifierChar ':' = false := by decide
  have mark : isIdentifierChar '?' = false := by decide
  unfold memberText at h
  cases p <;> cases q <;>
    simp only [if_true, Bool.false_eq_true, if_false, List.append_assoc, List.cons_append,
      List.nil_append] at h
  case false.false =>
    obtain ⟨rfl, -, tails⟩ := identifier_append_cons_inj hm hn mark mark h
    simp only [List.cons.injEq, true_and] at tails
    obtain ⟨rfl, rest⟩ := NormalForm.text_append_inj readable hf hg tails
    exact ⟨rfl, rfl, rfl, rest⟩
  case true.true =>
    obtain ⟨rfl, -, tails⟩ := identifier_append_cons_inj hm hn colon colon h
    simp only [List.cons.injEq, true_and] at tails
    obtain ⟨rfl, rest⟩ := NormalForm.text_append_inj readable hf hg tails
    exact ⟨rfl, rfl, rfl, rest⟩
  case false.true =>
    exact absurd (identifier_append_cons_inj hm hn mark colon h).2.1 (by decide)
  case true.false =>
    exact absurd (identifier_append_cons_inj hm hn colon mark h).2.1 (by decide)

theorem start_memberText {name : String} (h : isIdentifier name = true) (isRequired : Bool)
    (expression : List Char) :
    ∃ c rest, memberText name isRequired expression = c :: rest ∧ isIdentifierStart c = true := by
  obtain ⟨c, rest, toList, start⟩ := isIdentifier_start h
  rw [memberText, toList, List.cons_append]
  exact ⟨c, _, rfl, start⟩

/-- Members are read one by one as long as an identifier begins after what stands before each. -/
theorem memberTexts_append_inj {before after : List Char}
    {ms ns : List (String × Bool × NormalForm)} {r s : List Char}
    (readable : ∀ m ∈ ms, ∀ a ∈ m.2.2, a.Readable)
    (hms : LegibleMembers ms) (hns : LegibleMembers ns)
    (hr : ∀ c t, isIdentifierStart c = true → r ≠ before ++ c :: t)
    (hs : ∀ c t, isIdentifierStart c = true → s ≠ before ++ c :: t)
    (h : (memberTexts ms).flatMap (fun text => before ++ (text ++ after)) ++ r =
      (memberTexts ns).flatMap (fun text => before ++ (text ++ after)) ++ s) :
    ms = ns ∧ r = s := by
  obtain ⟨namesM, formsM⟩ := hms
  obtain ⟨namesN, formsN⟩ := hns
  have begins {rest : List Char}
      (ends : ∀ c t, isIdentifierStart c = true → rest ≠ before ++ c :: t)
      {m : String × Bool × NormalForm} (name : isIdentifier m.1 = true) (t : List Char) :
      rest ≠ before ++ (memberText m.1 m.2.1 (NormalForm.text m.2.2) ++ after) ++ t := by
    obtain ⟨c, others, text, start⟩ := start_memberText name m.2.1 (NormalForm.text m.2.2)
    rw [text, List.append_assoc]
    exact ends c _ start
  rw [memberTexts_eq_map, memberTexts_eq_map, List.flatMap_map, List.flatMap_map] at h
  refine flatMap_append_inj ?_ (fun n hn => begins hr (namesN n hn))
    (fun m hm => begins hs (namesM m hm)) h
  rintro ⟨m, p, f⟩ hm ⟨n, q, g⟩ hn t u same
  rw [List.append_assoc, List.append_assoc, List.append_assoc, List.append_assoc] at same
  obtain ⟨rfl, rfl, rfl, tails⟩ := memberText_append_inj (readable _ hm) (namesM _ hm)
    (namesN _ hn) (formsM _ hm) (formsN _ hn) (List.append_cancel_left same)
  exact ⟨rfl, List.append_cancel_left tails⟩

/-! ### Objects and lists of literals -/

namespace Alternative

theorem nested_induction {motive : Alternative → Prop}
    (step : ∀ a : Alternative,
      (∀ members, a = .object members → ∀ m ∈ members, ∀ b ∈ m.2.2, motive b) → motive a)
    (a : Alternative) : motive a := by
  refine @Alternative.rec motive (fun members => ∀ m ∈ members, ∀ b ∈ m.2.2, motive b)
    (fun m => ∀ b ∈ m.2.2, motive b) (fun m => ∀ b ∈ m.2, motive b)
    (fun form => ∀ b ∈ form, motive b)
    (step .anyText nofun) (fun values => step (.oneOf values) nofun) (step .number nofun)
    (step .boolean nofun) (step .null nofun) (step .anyObject nofun)
    ?_ nofun ?_ (fun _ _ below => below) (fun _ _ below => below) nofun ?_ a
  · intro members below
    apply step
    rintro _ ⟨⟩
    exact below
  · intro head tail atHead inTail
    exact List.forall_mem_cons.mpr ⟨atHead, inTail⟩
  · intro head tail atHead inTail
    exact List.forall_mem_cons.mpr ⟨atHead, inTail⟩

theorem anyObject_append_ne {members : List (String × Bool × NormalForm)}
    (h : LegibleMembers members) (r s : List Char) :
    Alternative.anyObject.text ++ r ≠ (object members).text ++ s := by
  obtain ⟨names, -⟩ := h
  rw [text, text, memberTexts_eq_map, anyObjectText, unknownMap]
  cases members with
  | nil => exact fun same => absurd (List.cons.inj (List.cons.inj same).2).1 (by decide)
  | cons m ms =>
    obtain ⟨c, rest, text, start⟩ := start_memberText (names m List.mem_cons_self) m.2.1
      (NormalForm.text m.2.2)
    rw [List.map_cons, text, braced.eq_2 _ (by simp), List.flatMap_cons]
    intro same
    simp only [List.cons_append, String.reduceToList, List.cons.injEq] at same
    rw [← same.2.2.1] at start
    exact absurd start (by decide)

theorem object_append {members : List (String × Bool × NormalForm)} (h : members ≠ [])
    (rest : List Char) : (object members).text ++ rest =
      '\x7b' :: ((memberTexts members).flatMap (fun text => [' '] ++ (text ++ [])) ++
        ' ' :: '\x7d' :: rest) := by
  cases members with
  | nil => exact absurd rfl h
  | cons m ms =>
    rw [text, braced.eq_2 _ (by rw [memberTexts]; exact List.cons_ne_nil _ _)]
    simp

theorem object_append_inj {ms ns : List (String × Bool × NormalForm)} {r s : List Char}
    (readable : ∀ m ∈ ms, ∀ a ∈ m.2.2, a.Readable)
    (hms : LegibleMembers ms) (hns : LegibleMembers ns)
    (h : (object ms).text ++ r = (object ns).text ++ s) : ms = ns ∧ r = s := by
  have closed (rest : List Char) (c : Char) (t : List Char) (start : isIdentifierStart c = true) :
      ' ' :: '\x7d' :: rest ≠ [' '] ++ c :: t := by
    rintro ⟨⟩
    exact absurd start (by decide)
  have empty_ne {members : List (String × Bool × NormalForm)} (nonempty : members ≠ [])
      (r s : List Char) : (object []).text ++ r ≠ (object members).text ++ s := by
    rw [object_append nonempty, text, memberTexts]
    cases members with
    | nil => exact absurd rfl nonempty
    | cons m ms =>
      rw [memberTexts, List.flatMap_cons]
      exact fun same => absurd (List.cons.inj (List.cons.inj same).2).1 (by decide)
  by_cases emptyM : ms = []
  · subst emptyM
    by_cases emptyN : ns = []
    · subst emptyN
      exact ⟨rfl, List.append_cancel_left h⟩
    · exact absurd h (empty_ne emptyN r s)
  · by_cases emptyN : ns = []
    · subst emptyN
      exact absurd h.symm (empty_ne emptyM s r)
    · rw [object_append emptyM, object_append emptyN] at h
      obtain ⟨rfl, rest⟩ := memberTexts_append_inj readable hms hns (closed r) (closed s)
        (List.cons.inj h).2
      simp only [List.cons.injEq, true_and] at rest
      exact ⟨rfl, rest⟩

theorem oneOf_append_inj {vs ws : List String} {r s : List Char} (hvs : vs ≠ []) (hws : ws ≠ [])
    (unquotedV : ∀ v ∈ vs, '\'' ∉ v.toList) (unquotedW : ∀ w ∈ ws, '\'' ∉ w.toList)
    (hr : ¬ [' ', '|', ' ', '\''] <+: r) (hs : ¬ [' ', '|', ' ', '\''] <+: s)
    (h : (oneOf vs).text ++ r = (oneOf ws).text ++ s) : vs = ws ∧ r = s := by
  have separate {values : List String} (nonempty : values ≠ []) (rest : List Char) :
      values.flatMap ([' ', '|', ' '] ++ quoted ·) ++ rest =
        [' ', '|', ' '] ++ ((oneOf values).text ++ rest) := by
    rw [text, ← List.append_assoc, separator_append_separated, List.flatMap_map]
    rwa [ne_eq, List.map_eq_nil_iff]
  apply literals_append_inj unquotedV unquotedW hr hs
  rw [separate hvs, separate hws, h]

theorem readable (a : Alternative) : a.Readable := by
  induction a using nested_induction with
  | step a ih =>
    intro b r s ha hb endsA endsB h
    have letters : a.letter = b.letter := by
      obtain ⟨_, startA⟩ := ha.text_eq_cons
      obtain ⟨_, startB⟩ := hb.text_eq_cons
      rw [startA, startB] at h
      exact (List.cons.inj h).1
    -- Alternatives of one kind are read back to the end. Among the others the first letter leaves
    -- number and null to be told apart, and the two objects.
    cases ha <;> cases hb
    any_goals exact ⟨rfl, List.append_cancel_left h⟩
    case number.null =>
      rw [text, text] at h
      simp at h
    case null.number =>
      rw [text, text] at h
      simp at h
    case anyObject.object members => exact absurd h (anyObject_append_ne members r s)
    case object.anyObject members => exact absurd h.symm (anyObject_append_ne members s r)
    case object.object members _ members' =>
      obtain ⟨rfl, rest⟩ := object_append_inj (ih _ rfl) members members' h
      exact ⟨rfl, rest⟩
    case oneOf.oneOf vs nonemptyV unquotedV ws nonemptyW unquotedW =>
      obtain ⟨rfl, rest⟩ := oneOf_append_inj nonemptyV nonemptyW unquotedV unquotedW
        (endsA ⟨vs, rfl⟩) (endsB ⟨ws, rfl⟩) h
      exact ⟨rfl, rest⟩
    all_goals exact absurd letters (by simp [letter])

end Alternative

end InterfaceGen
