import InterfaceGen.Proofs.Interface.Expression

/-!
# Pairs of types

The expression of a pair is the union of what its members are written as, or the expression of its
member if that stands there twice. Only equal texts are dropped from a union, and no enumeration and
no object is written like a type of another tag, so no member is lost.
-/

namespace InterfaceGen

namespace Traced

variable {α β : Type}

theorem map_congr {run : Traced α} {f g : α → β} (h : ∀ a, run.outcome = .ok a → f a = g a) :
    f <$> run = g <$> run := by
  change Traced.bind run (fun a => pure (f a)) = Traced.bind run (fun a => pure (g a))
  unfold Traced.bind
  cases outcome : run.outcome with
  | error e => rfl
  | ok a => dsimp only; rw [h a outcome]

end Traced

/-! ### Declared types of known tags -/

theorem TypeDecl.rendering_ofTag (t : Tag) :
    (ofTag t).rendering = (Shape.single t).rendering := by
  rw [rendering, Shape.ofDecl?_eq_single_iff.mpr rfl]

theorem TypeDecl.rendering_ofPair (a b : Tag) :
    (ofPair a b).rendering = (Shape.pair a b).rendering := by
  rw [rendering, Shape.ofDecl?_eq_pair_iff.mpr rfl]

theorem Shape.rendering_single_leaf {t : Tag} (h : t ≠ .object) :
    (Shape.single t).rendering = .leaves [t] :=
  if_neg h

theorem Shape.rendering_pair_leaves {a b : Tag} (ha : a ≠ .object) (hb : b ≠ .object) :
    (Shape.pair a b).rendering = .leaves [(nullLast a b).1, (nullLast a b).2] :=
  if_neg (not_or.mpr ⟨ha, hb⟩)

namespace Property

/-- The property with another declared type. -/
def withType (p : Property) (type : TypeDecl) : Property := { p with type := type }

theorem render_withType (p : Property) (type : TypeDecl) (path : PropertyPath)
    (rendering : Rendering) :
    (p.withType type).render path rendering = p.render path rendering := by
  cases rendering with
  | rejected error => rfl
  | object nullable => cases nullable <;> rfl
  | leaves tags => rfl

theorem expression_withType (p : Property) (type : TypeDecl) (path : PropertyPath) :
    (p.withType type).expression path = p.render path type.rendering := by
  rw [expression_eq_render, render_withType]
  rfl

section

variable (p : Property) (path : PropertyPath) {t u : Tag}

theorem expression_leaf (h : t ≠ .object) : (p.withType (.ofTag t)).expression path =
    pure (alternativeText (leafText p.enumValues t)) := by
  rw [expression_withType, TypeDecl.rendering_ofTag, Shape.rendering_single_leaf h,
    ← union_singleton]
  rfl

theorem expression_leaves (ht : t ≠ .object) (hu : u ≠ .object) :
    (p.withType (.ofPair t u)).expression path = pure (union
      [leafText p.enumValues (nullLast t u).1, leafText p.enumValues (nullLast t u).2]) := by
  rw [expression_withType, TypeDecl.rendering_ofPair, Shape.rendering_pair_leaves ht hu]
  rfl

/-- Null is written last, wherever it stands. -/
theorem expression_null_first (t : Tag) : (p.withType (.ofPair .null t)).expression path =
    (p.withType (.ofPair t .null)).expression path := by
  rw [expression_withType, expression_withType, TypeDecl.rendering_ofPair,
    TypeDecl.rendering_ofPair]
  cases t <;> rfl

theorem expression_leaf_null (ht : t ≠ .object) (hn : t ≠ .null) :
    (p.withType (.ofPair t .null)).expression path =
      (· ++ " | null") <$> (p.withType (.ofTag t)).expression path := by
  have apart : alternativeText (leafText p.enumValues t) ≠ alternativeText none :=
    fun same => hn (alternativeText_leafText_inj (b := .null) ht (by decide) same)
  have kept := union_pair apart
  have last : nullLast t .null = (t, .null) := if_neg hn
  rw [expression_leaves p path ht (by decide), expression_leaf p path ht, last]
  exact congrArg (pure (f := Traced)) kept

theorem expression_object_null : (p.withType (.ofPair .object .null)).expression path =
    (· ++ " | null") <$> (p.withType (.ofTag .object)).expression path := by
  rw [expression_withType, expression_withType]
  exact Traced.map_congr fun object written => union_some_none (objectText_ne_nullText written)

theorem expression_distinct_leaves (ht : t ≠ .object) (hu : u ≠ .object) (h : t ≠ u)
    (hn : t ≠ .null) : (p.withType (.ofPair t u)).expression path =
      pure (alternativeText (leafText p.enumValues t) ++ " | " ++
        alternativeText (leafText p.enumValues u)) := by
  have apart : alternativeText (leafText p.enumValues t) ≠
      alternativeText (leafText p.enumValues u) :=
    fun same => h (alternativeText_leafText_inj ht hu same)
  have order : nullLast t u = (t, u) := if_neg hn
  rw [expression_leaves p path ht hu, order, union_pair apart, String.append_assoc]
  rfl

theorem expression_twice (h : t ≠ .object) : (p.withType (.ofPair t t)).expression path =
    (p.withType (.ofTag t)).expression path := by
  have order : nullLast t t = (t, t) := ite_self _
  rw [expression_leaves p path h h, expression_leaf p path h, order, union_self, union_singleton]

end

end Property

/-- A pair with null is written as its other member with null behind it, and fails as that member
does; a pair of two other leaves is written as the one and then the other, and a pair of the same
leaf twice as this leaf. -/
theorem expression_pair (p : Property) (path : PropertyPath) :
    (∀ t : Tag, t ≠ .null →
      (p.withType (.ofPair t .null)).expression path =
          (· ++ " | null") <$> (p.withType (.ofTag t)).expression path ∧
        (p.withType (.ofPair .null t)).expression path =
          (· ++ " | null") <$> (p.withType (.ofTag t)).expression path) ∧
    (∀ t u : Tag, t ∉ [Tag.object, .null] → u ∉ [Tag.object, .null] → t ≠ u → ∃ a b,
      (p.withType (.ofTag t)).expression path = pure a ∧
        (p.withType (.ofTag u)).expression path = pure b ∧
        (p.withType (.ofPair t u)).expression path = pure (a ++ " | " ++ b)) ∧
    ∀ t : Tag, t ≠ .object →
      (p.withType (.ofPair t t)).expression path = (p.withType (.ofTag t)).expression path := by
  refine ⟨fun t notNull => ?_, fun t u leaf leaf' ne => ?_,
    fun t leaf => p.expression_twice path leaf⟩
  · have behind : (p.withType (.ofPair t .null)).expression path =
        (· ++ " | null") <$> (p.withType (.ofTag t)).expression path := by
      by_cases isObject : t = .object
      · subst isObject
        exact p.expression_object_null path
      · exact p.expression_leaf_null path isObject notNull
    exact ⟨behind, (p.expression_null_first path t).trans behind⟩
  · simp only [List.mem_cons, List.not_mem_nil, or_false, not_or] at leaf leaf'
    exact ⟨_, _, p.expression_leaf path leaf.1, p.expression_leaf path leaf'.1,
      p.expression_distinct_leaves path leaf.1 leaf'.1 ne leaf.2⟩

/-- An enumeration whose members are spelled like other types, over an object that has no
expression. -/
def lookalike : Property :=
  { Property.ofType (.ofTag .string) with
    enumValues := some [some "null", none, some "number' | 'boolean"]
    properties := some [("inner", Property.ofType (.ofPair .object .number))] }

theorem expression_pair_lookalike :
    (lookalike.withType (.ofPair .null .string)).expression .root =
        pure "'null' | 'number' | 'boolean' | null" ∧
      ((lookalike.withType (.ofPair .null .object)).expression .root).outcome =
        .error (.objectPair ⟨["inner"]⟩ .number) ∧
      (∃ a b, (lookalike.withType (.ofTag .number)).expression .root = pure a ∧
        (lookalike.withType (.ofTag .string)).expression .root = pure b ∧
        (lookalike.withType (.ofPair .number .string)).expression .root = pure (a ++ " | " ++ b)) ∧
      (lookalike.withType (.ofPair .string .string)).expression .root =
        pure "'null' | 'number' | 'boolean'" := by
  obtain ⟨withNull, distinct, twice⟩ := expression_pair lookalike .root
  refine ⟨?_, ?_, distinct .number .string (by decide) (by decide) (by decide), ?_⟩
  · rw [(withNull .string (by decide)).2]
    rfl
  · rw [(withNull .object (by decide)).2]
    rfl
  · rw [twice .string (by decide)]
    rfl

end InterfaceGen
