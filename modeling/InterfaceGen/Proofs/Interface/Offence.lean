import InterfaceGen.Proofs.Interface.Reachable

/-!
# The error of a schema

Which declared types offend, and with which error. A schema has no declaration just if a reachable
property offends, and its error is that of the first one in document order. Properties below a type
that is no object are never looked at, so they do no harm.
-/

namespace InterfaceGen

/-- A declared type offends by the number of its tags, by a tag without meaning, or by an object
that is paired with something else than null. -/
inductive TypeDecl.Offends (decl : TypeDecl) (path : PropertyPath) : GenerationError → Prop
  | count (h : decl.tags = [] ∨ 2 < decl.tags.length) : Offends decl path (.unsupported path decl)
  | unknown {tag : String} (member : tag ∈ decl.tags) (h : ∀ t : Tag, t.name ≠ tag) :
      Offends decl path (.unsupported path decl)
  | objectPair {other : Tag} (ne : other ≠ .null)
      (h : decl.tags = [Tag.object.name, other.name] ∨
        decl.tags = [other.name, Tag.object.name]) :
      Offends decl path (.objectPair path other)

/-- What an error carries and what it says: the declared type with its tags between quotes as they
are, or the tag beside the object, and the names on the way between points. -/
inductive GenerationError.Says : GenerationError → String → String → Prop
  | tag {names : List String} {tag : String} :
      Says (.unsupported ⟨names⟩ (.single tag)) ("\"" ++ tag ++ "\"")
        ("unsupported shape at `" ++ ".".intercalate names ++ "`: " ++ ("\"" ++ tag ++ "\""))
  | tags {names tags : List String} :
      Says (.unsupported ⟨names⟩ (.alternatives tags))
        ("[" ++ ", ".intercalate (tags.map fun tag => "\"" ++ tag ++ "\"") ++ "]")
        ("unsupported shape at `" ++ ".".intercalate names ++ "`: " ++
          ("[" ++ ", ".intercalate (tags.map fun tag => "\"" ++ tag ++ "\"") ++ "]"))
  | pair {names : List String} {other : Tag} :
      Says (.objectPair ⟨names⟩ other) other.name
        ("invalid object pair at `" ++ ".".intercalate names ++
          "`: `object` can only be paired with `null`, found `" ++ other.name ++ "`")

theorem TypeDecl.Offends.says {decl : TypeDecl} {path : PropertyPath} {e : GenerationError}
    (h : decl.Offends path e) (started : path.segments ≠ []) : e.Says e.detail e.message := by
  obtain ⟨names⟩ := path
  obtain ⟨name, rest, rfl⟩ := List.exists_cons_of_ne_nil started
  cases h with
  | count h =>
    cases decl with
    | single tag => exact .tag
    | alternatives tags => exact .tags
  | unknown member h =>
    cases decl with
    | single tag => exact .tag
    | alternatives tags => exact .tags
  | objectPair ne h => exact .pair

theorem Schema.Reaches.segments_ne_nil {schema : Schema} {path : PropertyPath} {p : Property}
    (reached : schema.Reaches path p) : path.segments ≠ [] := by
  cases reached with
  | top member => exact List.cons_ne_nil _ _
  | nested above isObject properties member =>
    exact List.append_ne_nil_of_right_ne_nil _ (List.cons_ne_nil _ _)

theorem TypeDecl.ofDecl?_eq_none_of_offends {decl : TypeDecl}
    (h : (decl.tags = [] ∨ 2 < decl.tags.length) ∨
      ∃ tag ∈ decl.tags, ∀ t : Tag, t.name ≠ tag) : Shape.ofDecl? decl = none := by
  cases shape : Shape.ofDecl? decl with
  | none => rfl
  | some shape' =>
    exfalso
    cases shape' with
    | single t =>
      rw [Shape.ofDecl?_eq_single_iff.mp shape] at h
      rcases h with (h | h) | ⟨tag, member, unknown⟩
      · cases h
      · simp at h
      · exact unknown t (List.mem_singleton.mp member).symm
    | pair a b =>
      rw [Shape.ofDecl?_eq_pair_iff.mp shape] at h
      rcases h with (h | h) | ⟨tag, member, unknown⟩
      · cases h
      · simp at h
      · rcases List.mem_cons.mp member with rfl | member
        · exact unknown a rfl
        · exact unknown b (List.mem_singleton.mp member).symm

theorem TypeDecl.offends_of_ofDecl?_eq_none {decl : TypeDecl} (h : Shape.ofDecl? decl = none)
    (path : PropertyPath) : decl.Offends path (.unsupported path decl) := by
  by_cases known : ∀ tag ∈ decl.tags, ∃ t : Tag, t.name = tag
  -- A list of at most two known tags has a shape.
  · apply Offends.count
    match tags : decl.tags with
    | [] => exact .inl rfl
    | [a] =>
      obtain ⟨t, rfl⟩ := known a (by rw [tags]; simp)
      rw [Shape.ofDecl?_eq_single_iff.mpr tags] at h
      cases h
    | [a, b] =>
      obtain ⟨t, rfl⟩ := known a (by rw [tags]; simp)
      obtain ⟨u, rfl⟩ := known b (by rw [tags]; simp)
      rw [Shape.ofDecl?_eq_pair_iff.mpr tags] at h
      cases h
    | _ :: _ :: _ :: _ => exact .inr (by simp)
  · obtain ⟨tag, member, unknown⟩ : ∃ tag ∈ decl.tags, ∀ t : Tag, t.name ≠ tag := by
      simpa using known
    exact .unknown member unknown

def TypeDecl.offence? (decl : TypeDecl) (path : PropertyPath) : Option GenerationError :=
  match decl.rendering with
  | .rejected error => some (error path)
  | _ => none

theorem TypeDecl.offence?_eq_some_iff {decl : TypeDecl} {path : PropertyPath}
    {e : GenerationError} : decl.offence? path = some e ↔ decl.Offends path e := by
  constructor
  · intro h
    unfold offence? rendering at h
    cases read : Shape.ofDecl? decl with
    | none =>
      rw [read] at h
      cases h
      exact offends_of_ofDecl?_eq_none read path
    | some shape =>
      rw [read] at h
      dsimp only at h
      split at h
      next error rejected =>
        obtain ⟨other, ne, same, rfl⟩ := Shape.rendering_eq_rejected_iff.mp rejected
        cases h
        rcases same with rfl | rfl
        · exact .objectPair ne (.inl (Shape.ofDecl?_eq_pair_iff.mp read))
        · exact .objectPair ne (.inr (Shape.ofDecl?_eq_pair_iff.mp read))
      next => cases h
  · intro h
    cases h with
    | count h => simp only [offence?, rendering, ofDecl?_eq_none_of_offends (.inl h)]
    | unknown member h =>
      simp only [offence?, rendering, ofDecl?_eq_none_of_offends (.inr ⟨_, member, h⟩)]
    | @objectPair other ne h =>
      have rejected {shape : Shape} (read : Shape.ofDecl? decl = some shape)
          (same : shape = .pair .object other ∨ shape = .pair other .object) :
          decl.rendering = .rejected (.objectPair · other) := by
        rw [rendering, read]
        exact Shape.rendering_eq_rejected_iff.mpr ⟨other, ne, same, rfl⟩
      rcases h with h | h
      · rw [offence?, rejected (Shape.ofDecl?_eq_pair_iff.mpr h) (.inl rfl)]
      · rw [offence?, rejected (Shape.ofDecl?_eq_pair_iff.mpr h) (.inr rfl)]

theorem findSome?_flatMap_of_mem {α β γ : Type} {l : List α} {f : α → List β}
    {g : β → Option γ} {first : α → Option γ} (h : ∀ a ∈ l, first a = (f a).findSome? g) :
    (l.flatMap f).findSome? g = l.findSome? first := by
  induction l with
  | nil => rfl
  | cons a rest ih =>
    rw [List.flatMap_cons, List.findSome?_append, List.findSome?_cons, h a List.mem_cons_self,
      ih fun b later => h b (List.mem_cons_of_mem a later)]
    cases (f a).findSome? g <;> rfl

namespace Property

theorem error?_objectText (p : Property) (path : PropertyPath) (isObject : p.type.IsObject) :
    (p.objectText path).error? =
      p.opened.findSome? fun entry =>
        (entry.2.expression ⟨path.segments ++ [entry.1]⟩).error? := by
  rw [objectText, opened, if_pos isObject]
  cases p.properties with
  | none => rfl
  | some entries =>
    rw [Traced.error?_map, error?_nestedMembers, Option.getD_some]
    rfl

theorem error?_render_object (p : Property) (path : PropertyPath) (nullable : Bool) :
    (p.render path (.object nullable)).error? = (p.objectText path).error? := by
  cases nullable with
  | false => rfl
  | true =>
    unfold render
    rw [Traced.error?_bind none fun _ => rfl, Option.or_none]

theorem error?_expression (p : Property) (path : PropertyPath) :
    (p.expression path).error? =
      (p.visits path).findSome? fun visit => visit.2.type.offence? visit.1 := by
  induction p using opened_induction generalizing path with
  | step p ih =>
    have below := findSome?_flatMap_of_mem fun entry member =>
      ih entry member ⟨path.segments ++ [entry.1]⟩
    rw [expression_eq_render, visits_eq, List.findSome?_cons, below]
    by_cases isObject : p.type.IsObject
    · obtain ⟨nullable, read⟩ := TypeDecl.isObject_iff_rendering.mp isObject
      rw [TypeDecl.offence?, read, error?_render_object, error?_objectText p path isObject]
    · rw [opened, if_neg isObject, TypeDecl.offence?]
      cases read : p.type.rendering with
      | rejected error => rfl
      | object nullable =>
        exact absurd (TypeDecl.isObject_iff_rendering.mpr ⟨nullable, read⟩) isObject
      | leaves tags => rfl

end Property

theorem error?_generateTraced_eq_findSome? (name : String) (schema : Schema) :
    (generateTraced name schema).error? =
      schema.visits.findSome? fun visit => visit.2.type.offence? visit.1 := by
  rw [error?_generateTraced, error?_propertyMembers, Schema.visits]
  exact (findSome?_flatMap_of_mem fun entry _ => Property.error?_expression _ _).symm

theorem generate_eq_error_iff {name : String} {schema : Schema} {e : GenerationError} :
    generate name schema = .error e ↔ ∃ before path p after,
      schema.visits = before ++ (path, p) :: after ∧ p.type.Offends path e ∧
        ∀ visit ∈ before, ∀ e', ¬visit.2.type.Offends visit.1 e' := by
  have quiet (visit : PropertyPath × Property) :
      visit.2.type.offence? visit.1 = none ↔ ∀ e', ¬visit.2.type.Offends visit.1 e' := by
    rw [Option.eq_none_iff_forall_ne_some]
    exact forall_congr' fun e' => not_congr TypeDecl.offence?_eq_some_iff
  rw [generate, ← Traced.error?_eq_some_iff, error?_generateTraced_eq_findSome?,
    List.findSome?_eq_some_iff]
  constructor
  · rintro ⟨before, ⟨path, p⟩, after, split, offends, earlier⟩
    exact ⟨before, path, p, after, split, TypeDecl.offence?_eq_some_iff.mp offends,
      fun visit member => (quiet visit).mp (earlier visit member)⟩
  · rintro ⟨before, path, p, after, split, offends, earlier⟩
    exact ⟨before, (path, p), after, split, TypeDecl.offence?_eq_some_iff.mpr offends,
      fun visit member => (quiet visit).mpr (earlier visit member)⟩

theorem exists_reached_of_generate_eq_error {name : String} {schema : Schema}
    {e : GenerationError} (h : generate name schema = .error e) :
    ∃ path p, schema.Reaches path p ∧ p.type.Offends path e := by
  obtain ⟨before, path, p, after, split, offends, -⟩ := generate_eq_error_iff.mp h
  refine ⟨path, p, Schema.reaches_iff_mem_visits.mpr ?_, offends⟩
  rw [split]
  exact List.mem_append_right before List.mem_cons_self

theorem exists_generate_eq_error_iff {name : String} {schema : Schema} :
    (∃ e, generate name schema = .error e) ↔
      ∃ path p e, schema.Reaches path p ∧ p.type.Offends path e := by
  constructor
  · rintro ⟨e, failed⟩
    obtain ⟨path, p, reached, offends⟩ := exists_reached_of_generate_eq_error failed
    exact ⟨path, p, e, reached, offends⟩
  · rintro ⟨path, p, e, reached, offends⟩
    have stops : (generateTraced name schema).error? ≠ none := by
      rw [error?_generateTraced_eq_findSome?]
      intro quiet
      have silent := List.findSome?_eq_none_iff.mp quiet (path, p)
        (Schema.reaches_iff_mem_visits.mp reached)
      rw [TypeDecl.offence?_eq_some_iff.mpr offends] at silent
      cases silent
    obtain ⟨e', failed⟩ := Option.ne_none_iff_exists'.mp stops
    exact ⟨e', Traced.error?_eq_some_iff.mp failed⟩

theorem TypeDecl.text_ne_objectAsLeaf (decl : TypeDecl) (path : PropertyPath) :
    decl.text ≠ (GenerationError.objectAsLeaf path).detail := by
  intro same
  have heads := congrArg (fun s => s.toList.head?) same
  cases decl <;> simp [text, GenerationError.detail] at heads

theorem TypeDecl.Offends.detail_ne {decl : TypeDecl} {path : PropertyPath} {e : GenerationError}
    (h : decl.Offends path e) (path' : PropertyPath) :
    e.detail ≠ (GenerationError.objectAsLeaf path').detail := by
  cases h with
  | count _ => exact text_ne_objectAsLeaf decl path'
  | unknown _ _ => exact text_ne_objectAsLeaf decl path'
  | @objectPair other _ _ => cases other <;> simp [GenerationError.detail, Tag.name]

/-- A schema has no declaration just if a reachable property offends. The error is then that of the
first one in document order, under its path, and never that of an object in the place of a leaf. It
says where the property is and which type is declared there, or with what an object is paired. -/
theorem generate_fails_at_first_offence (name : String) (schema : Schema) :
    (∀ path p, schema.Reaches path p ↔ (path, p) ∈ schema.visits) ∧
    ((∃ e, generate name schema = .error e) ↔
      ∃ path p e, schema.Reaches path p ∧ p.type.Offends path e) ∧
    (∀ e, generate name schema = .error e ↔ ∃ before path p after,
      schema.visits = before ++ (path, p) :: after ∧ p.type.Offends path e ∧
        ∀ visit ∈ before, ∀ e', ¬visit.2.type.Offends visit.1 e') ∧
    (∀ e path, generate name schema = .error e →
      e.detail ≠ (GenerationError.objectAsLeaf path).detail) ∧
    ∀ e, generate name schema = .error e → e.Says e.detail e.message := by
  refine ⟨fun _ _ => Schema.reaches_iff_mem_visits, exists_generate_eq_error_iff,
    fun _ => generate_eq_error_iff, ?_, ?_⟩
  · intro e path failed
    obtain ⟨_, _, -, offends⟩ := exists_reached_of_generate_eq_error failed
    exact offends.detail_ne path
  · intro e failed
    obtain ⟨_, _, reached, offends⟩ := exists_reached_of_generate_eq_error failed
    exact offends.says reached.segments_ne_nil

end InterfaceGen
