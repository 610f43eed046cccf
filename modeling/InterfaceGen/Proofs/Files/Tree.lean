import InterfaceGen.Proofs.Except
import InterfaceGen.Proofs.OrderedMap
import InterfaceGen.Files.Tree

/-!
# What a change of a file tree leaves as it was

An entry is only ever put where no directory stands, in a directory that is there. So every path
that leads somewhere leads there still, every file in another place keeps its content, and what has
been written is read again under the same path.
-/

namespace InterfaceGen.Files

namespace Entry

variable {e new : Entry} {place below : List String}

theorem find?_cons (name : String) (entries : List (String × Entry)) :
    find? (name :: place) (.directory entries) =
      (OrderedMap.find? entries name).bind (find? place) := rfl

theorem find?_append (e : Entry) (place below : List String) :
    find? (place ++ below) e = (find? place e).bind (find? below) := by
  induction place generalizing e with
  | nil => rw [List.nil_append, find?, Option.bind_some]
  | cons name rest ih =>
    cases e with
    | file content => rw [List.cons_append, find?, find?, Option.bind_none]
    | directory entries =>
      rw [List.cons_append, find?_cons, find?_cons, Option.bind_assoc]
      exact congrArg _ (funext ih)

/-- Putting something below an entry changes the entry just so. -/
theorem find?_put_append {x : Entry} (h : find? place e = some x) :
    find? place (e.put (place ++ below) new) = some (x.put below new) := by
  induction place generalizing e with
  | nil =>
    cases h
    rw [List.nil_append, find?]
  | cons name rest ih =>
    cases e with
    | file content => cases h
    | directory entries =>
      rw [find?_cons] at h
      obtain ⟨y, there, h⟩ := Option.bind_eq_some_iff.mp h
      rw [List.cons_append, put, find?_cons, OrderedMap.find?_insert_self, there]
      exact ih h

/-- Putting something elsewhere changes nothing. -/
theorem find?_put_of_apart {other : List String} (h : ¬place <+: other) (h' : ¬other <+: place) :
    find? place (e.put other new) = find? place e := by
  induction other generalizing place e with
  | nil => exact absurd List.nil_prefix h'
  | cons name rest ih =>
    cases place with
    | nil => exact absurd List.nil_prefix h
    | cons name' place =>
      cases e with
      | file content => rw [put]
      | directory entries =>
        rw [put, find?_cons, find?_cons, OrderedMap.find?_insert]
        -- As long as the names agree, the places part further down.
        by_cases same : name = name'
        · subst same
          rw [List.cons_prefix_cons] at h h'
          have apart := ih (e := (OrderedMap.find? entries name).getD (.directory []))
            (fun p => h ⟨rfl, p⟩) fun p => h' ⟨rfl, p⟩
          rw [if_pos rfl, Option.bind_some, apart]
          cases there : OrderedMap.find? entries name with
          | some y => rfl
          | none =>
            cases place with
            | nil => exact absurd ⟨rfl, List.nil_prefix⟩ h
            | cons _ _ => rfl
        · rw [if_neg same]

theorem exists_directory_of_find?_append {x : Entry} {name : String}
    (h : find? (place ++ name :: below) e = some x) :
    ∃ entries, find? place e = some (.directory entries) := by
  rw [find?_append] at h
  obtain ⟨y, there, h⟩ := Option.bind_eq_some_iff.mp h
  cases y with
  | file content => cases h
  | directory entries => exact ⟨entries, there⟩

/-- No directory stands in the place. -/
def Free (e : Entry) (place : List String) : Prop :=
  ∀ entries, find? place e ≠ some (.directory entries)

/-- A file stays as it is when something is put in another place that is free. -/
theorem Free.find?_put_file {other : List String} (free : e.Free other) {content : Content}
    (h : find? place e = some (.file content)) (ne : place ≠ other) :
    find? place (e.put other new) = some (.file content) := by
  by_cases above : place <+: other
  · obtain ⟨below, rfl⟩ := above
    rw [find?_put_append h]
    cases below with
    | nil => exact absurd (List.append_nil place).symm ne
    | cons _ _ => rw [put]
  · by_cases under : other <+: place
    · obtain ⟨below, rfl⟩ := under
      cases below with
      | nil => exact absurd (List.append_nil other) ne
      | cons _ _ =>
        obtain ⟨entries, there⟩ := exists_directory_of_find?_append h
        exact absurd there (free entries)
    · rw [find?_put_of_apart above under, h]

/-- Whatever is in a directory of the one tree is in the same directory of the other. -/
def Extends (e' e : Entry) : Prop :=
  ∀ ⦃place entries⦄, find? place e = some (.directory entries) →
    ∃ entries', find? place e' = some (.directory entries') ∧
      ∀ name, (OrderedMap.find? entries name).isSome → (OrderedMap.find? entries' name).isSome

theorem Free.extends_put {other : List String} (free : e.Free other) (new : Entry) :
    Extends (e.put other new) e := by
  intro place entries h
  -- Directories above the place only gain an entry, and there are none below it.
  by_cases above : place <+: other
  · obtain ⟨below, rfl⟩ := above
    cases below with
    | nil =>
      rw [List.append_nil] at free
      exact absurd h (free entries)
    | cons name below =>
      refine ⟨_, (find?_put_append h).trans (by rw [put]), fun name' there => ?_⟩
      rw [OrderedMap.find?_insert]
      split
      · rfl
      · exact there
  · by_cases under : other <+: place
    · obtain ⟨below, rfl⟩ := under
      cases below with
      | nil =>
        rw [List.append_nil] at h
        exact absurd h (free entries)
      | cons _ _ =>
        obtain ⟨entries', there⟩ := exists_directory_of_find?_append h
        exact absurd there (free entries')
    · exact ⟨entries, (find?_put_of_apart above under).trans h, fun _ there => there⟩

theorem find?_put_self {entries : List (String × Entry)} {name : String}
    (h : find? place e = some (.directory entries)) (new : Entry) :
    find? (place ++ [name]) (e.put (place ++ [name]) new) = some new := by
  rw [find?_append, find?_put_append h, Option.bind_some, put, find?_cons,
    OrderedMap.find?_insert_self, put]
  rfl

end Entry

namespace FileTree

open Entry (Extends Free)

/-! ### Following names -/

/-- One name, followed without a look at what is there. -/
def follow (place : List String) (name : String) : List String :=
  if name = "." then place else if name = ".." then place.dropLast else place ++ [name]

/-- The place that a path leads to, if it leads anywhere. -/
def destination (t : FileTree) (path : String) : List String :=
  (names path).foldl follow (t.start path)

/-- A name leads on from a directory, to one of its entries or where points lead. -/
def LeadsOn (e : Entry) (place : List String) (name : String) : Prop :=
  ∃ entries, e.find? place = some (.directory entries) ∧
    (name = "." ∨ name = ".." ∨ ¬isLongName name ∧ (OrderedMap.find? entries name).isSome)

theorem walk_cons_eq_ok_iff {e : Entry} {place place' : List String} {name : String}
    {rest : List String} :
    walk e place (name :: rest) = .ok place' ↔
      LeadsOn e place name ∧ walk e (follow place name) rest = .ok place' := by
  rw [walk, LeadsOn, follow]
  cases there : e.find? place with
  | none => simp
  | some x =>
    cases x with
    | file content => simp
    | directory entries =>
      dsimp only
      by_cases here : name = "."
      · simp [here]
      · by_cases up : name = ".."
        · simp [up]
        · by_cases long : isLongName name
          · simp [here, up, long]
          · by_cases inside : (OrderedMap.find? entries name).isSome <;>
              simp [here, up, long, inside]

theorem walk_append {e : Entry} {place place' : List String} {before after : List String} :
    walk e place (before ++ after) = .ok place' ↔
      ∃ between, walk e place before = .ok between ∧ walk e between after = .ok place' := by
  induction before generalizing place with
  | nil => simp [walk]
  | cons name rest ih =>
    simp only [List.cons_append, walk_cons_eq_ok_iff, ih, and_assoc, exists_and_left]

theorem eq_foldl_of_walk {e : Entry} {place place' : List String} {names : List String}
    (h : walk e place names = .ok place') : place' = names.foldl follow place := by
  induction names generalizing place with
  | nil =>
    cases h
    rfl
  | cons name rest ih => exact ih (walk_cons_eq_ok_iff.mp h).2

/-- A walk leads to the same place where there is more to walk on. -/
theorem walk_of_extends {e e' : Entry} (kept : Extends e' e) {place place' : List String}
    {names : List String} (h : walk e place names = .ok place') :
    walk e' place names = .ok place' := by
  induction names generalizing place with
  | nil => exact h
  | cons name rest ih =>
    obtain ⟨⟨entries, there, leads⟩, later⟩ := walk_cons_eq_ok_iff.mp h
    obtain ⟨entries', there', more⟩ := kept there
    refine walk_cons_eq_ok_iff.mpr ⟨⟨entries', there', ?_⟩, ih later⟩
    exact leads.imp_right (Or.imp_right (And.imp_right (more name)))

theorem walk_singleton {e x : Entry} {place : List String} {name : String}
    (notHere : name ≠ ".") (notUp : name ≠ "..") (short : ¬isLongName name)
    (found : e.find? (place ++ [name]) = some x) : walk e place [name] = .ok (place ++ [name]) := by
  obtain ⟨entries, inside⟩ := Entry.exists_directory_of_find?_append found
  have there : (OrderedMap.find? entries name).isSome := by
    rw [Entry.find?_append, inside, Option.bind_some, Entry.find?_cons] at found
    obtain ⟨y, there, -⟩ := Option.bind_eq_some_iff.mp found
    rw [there, Option.isSome_some]
  refine walk_cons_eq_ok_iff.mpr ⟨⟨entries, inside, .inr (.inr ⟨short, there⟩)⟩, ?_⟩
  rw [follow, if_neg notHere, if_neg notUp, walk]

/-- The last name of a path is that of an entry in a directory that the other names lead to. -/
theorem target_eq_ok {t : FileTree} {path name : String} {place : List String}
    (h : t.target path = .ok (place, some name)) :
    SystemError.ofPath? path = none ∧ name ≠ "." ∧ name ≠ ".." ∧
      (∃ before, names path = before ++ [name] ∧ walk t.root (t.start path) before = .ok place) ∧
        ∃ entries, t.root.find? place = some (.directory entries) := by
  unfold target at h
  split at h
  next => cases h
  next fine =>
    obtain ⟨place', walked, h⟩ := except_bind_eq_ok_iff.mp h
    split at h
    next => cases h
    next last there =>
      obtain ⟨rfl, named⟩ := Prod.mk.inj (Except.ok.inj h)
      split at named
      next => cases named
      next real =>
        cases named
        simp only [Bool.or_eq_true, decide_eq_true_eq, not_or] at real
        obtain ⟨between, before, last⟩ := walk_append.mp walked
        obtain ⟨⟨entries, inside, -⟩, stays⟩ := walk_cons_eq_ok_iff.mp last
        cases stays
        refine ⟨fine, real.1, real.2, ⟨_, ?_, before⟩, entries, inside⟩
        exact (List.dropLast_append_getLast? _ there).symm

/-! ### What stays -/

/-- A file with this content is found under the path. -/
structure Holds (t : FileTree) (path : String) (content : Content) : Prop where
  located : t.locate path = .ok (t.destination path)
  found : t.root.find? (t.destination path) = some (.file content)

theorem Holds.read {t : FileTree} {path text : String} (h : t.Holds path (.text text)) :
    t.read path = .ok text := by
  have entry : t.entry? path = .ok (.file (.text text)) :=
    except_bind_eq_ok_iff.mpr ⟨_, h.located, by rw [h.found]⟩
  exact except_bind_eq_ok_iff.mpr ⟨_, entry, rfl⟩

def put (t : FileTree) (place : List String) (new : Entry) : FileTree :=
  { t with root := t.root.put place new }

theorem destination_put (t : FileTree) (place : List String) (new : Entry) (path : String) :
    (t.put place new).destination path = t.destination path := rfl

theorem locate_put {t : FileTree} {place other : List String} (free : t.root.Free place)
    (new : Entry) {path : String} (h : t.locate path = .ok other) :
    (t.put place new).locate path = .ok other := by
  unfold locate at h ⊢
  split at h
  next => cases h
  next => exact walk_of_extends (free.extends_put new) h

theorem Holds.put {t : FileTree} {path : String} {content : Content} {place : List String}
    (h : t.Holds path content) (free : t.root.Free place) (ne : t.destination path ≠ place)
    (new : Entry) : (t.put place new).Holds path content where
  located := locate_put free new h.located
  found := free.find?_put_file h.found ne

theorem makeDirectory_eq_ok {t t' : FileTree} {path : String} (h : t.makeDirectory path = .ok t') :
    ∃ place, t.root.find? place = none ∧ t' = t.put place (.directory []) := by
  unfold makeDirectory at h
  obtain ⟨⟨place, last⟩, -, h⟩ := except_bind_eq_ok_iff.mp h
  cases last with
  | none => cases h
  | some name =>
    dsimp only at h
    split at h
    next => cases h
    next =>
      split at h
      next => cases h
      next absent =>
        cases h
        exact ⟨place ++ [name], Option.not_isSome_iff_eq_none.mp absent, rfl⟩

/-- A file is written where no directory is, and is then found under its path. -/
theorem write_eq_ok {t t' : FileTree} {path : String} {content : Content}
    (h : t.write path content = .ok t') :
    t.root.Free (t.destination path) ∧ t' = t.put (t.destination path) (.file content) ∧
      t'.Holds path content := by
  unfold write at h
  obtain ⟨⟨place, last⟩, targeted, h⟩ := except_bind_eq_ok_iff.mp h
  cases last with
  | none => cases h
  | some name =>
    obtain ⟨fine, notHere, notUp, ⟨before, names, walked⟩, entries, inside⟩ := target_eq_ok targeted
    have same : t.destination path = place ++ [name] := by
      rw [destination, names, List.foldl_append, ← eq_foldl_of_walk walked, List.foldl_cons,
        List.foldl_nil, follow, if_neg notHere, if_neg notUp]
    dsimp only at h
    split at h
    next => cases h
    next noSlash =>
      split at h
      next => cases h
      next short =>
        split at h
        next => cases h
        next noDirectory =>
          cases h
          have free : t.root.Free (place ++ [name]) := by
            intro entries there
            rw [there] at noDirectory
            exact noDirectory rfl
          have found : (t.put (place ++ [name]) (.file content)).root.find? (place ++ [name]) =
              some (.file content) := Entry.find?_put_self inside (.file content)
          refine ⟨same ▸ free, same ▸ rfl, ?_, ?_⟩
          · change locate (t.put (place ++ [name]) (.file content)) path = .ok (t.destination path)
            rw [same, locate, fine]
            dsimp only
            rw [if_neg noSlash, List.append_nil, names]
            refine walk_append.mpr ⟨place, walk_of_extends (free.extends_put _) walked, ?_⟩
            exact walk_singleton notHere notUp short found
          · change Entry.find? (t.destination path) _ = _
            rw [same]
            exact found

theorem Holds.of_makeDirectory {t t' : FileTree} {path other : String} {content : Content}
    (h : t.Holds path content) (made : t.makeDirectory other = .ok t') : t'.Holds path content := by
  obtain ⟨place, nothing, rfl⟩ := makeDirectory_eq_ok made
  refine h.put (fun entries there => ?_) (fun same => ?_) _
  · rw [nothing] at there
    cases there
  · have found := h.found
    rw [same, nothing] at found
    cases found

theorem destination_of_makeDirectory {t t' : FileTree} {path : String}
    (made : t.makeDirectory path = .ok t') (other : String) :
    t'.destination other = t.destination other := by
  obtain ⟨place, -, rfl⟩ := makeDirectory_eq_ok made
  exact destination_put t place _ other

/-- What each directory that is made keeps is kept while ancestors are made. -/
theorem makeAncestors_induction {motive : FileTree → Prop}
    (step : ∀ {t t' : FileTree} {path : String},
      t.makeDirectory path = .ok t' → motive t → motive t')
    {t t' : FileTree} {paths : List String} (made : t.makeAncestors paths = .ok t')
    (start : motive t) : motive t' := by
  induction paths generalizing t' with
  | nil =>
    cases made
    exact start
  | cons path rest ih =>
    rw [makeAncestors] at made
    split at made
    next =>
      cases made
      exact start
    next =>
      split at made
      next here =>
        cases made
        exact step here start
      next =>
        split at made
        next => cases made
        next between below =>
          have reached := ih below
          split at made
          next here =>
            cases made
            exact step here reached
          next =>
            split at made
            next =>
              cases made
              exact reached
            next => cases made
      next =>
        split at made
        next =>
          cases made
          exact start
        next => cases made

theorem Holds.of_makeDirectories {t t' : FileTree} {path other : String} {content : Content}
    (h : t.Holds path content) (made : t.makeDirectories other = .ok t') : t'.Holds path content :=
  makeAncestors_induction (motive := fun t => t.Holds path content)
    (fun step kept => kept.of_makeDirectory step) made h

theorem destination_of_makeDirectories {t t' : FileTree} {path : String}
    (made : t.makeDirectories path = .ok t') (other : String) :
    t'.destination other = t.destination other :=
  makeAncestors_induction (motive := fun t' => t'.destination other = t.destination other)
    (fun step kept => (destination_of_makeDirectory step other).trans kept) made rfl

end FileTree

end InterfaceGen.Files
