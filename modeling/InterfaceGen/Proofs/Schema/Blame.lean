import InterfaceGen.Proofs.Json.Merged
import InterfaceGen.Proofs.Schema.Format
import InterfaceGen.Proofs.Schema.Grammar

/-!
# Reading accepts the grammar

A schema is read from exactly the values that conform to the grammar, and from any other value the
fault is placed where the value first departs from it.
-/

namespace InterfaceGen

open Json (Value Fault Cause Step Place)
open Json.Value

variable {α β : Type}

/-- Where a value is accepted it conforms, and a fault is placed where it departs from its kind. -/
def Judged (result : Except Fault α) (kind : Kind) (v : Value) : Prop :=
  match result with
  | .ok _ => Conforms kind v
  | .error fault => Blames kind v fault.place

/-- The same of a run over the parts of a value. -/
def JudgedParts (result : Except Fault α) (parts : List Part) : Prop :=
  match result with
  | .ok _ => ∀ p ∈ parts, p.Conforms
  | .error fault => ∃ before p after place, parts = before ++ p :: after ∧
      (∀ q ∈ before, q.Conforms) ∧ Blames p.kind p.value place ∧ fault.place = p.step :: place

section

variable {result : Except Fault α} {read : Value → Except Fault α} {kind : Kind} {v : Value}

theorem Judged.map (h : Judged result kind v) (f : α → β) : Judged (result.map f) kind v := by
  cases result <;> exact h

theorem blames_of_noParts (noParts : kind.parts v = []) (refused : ¬Conforms kind v) :
    Blames kind v [] :=
  .whole (by rw [noParts]; exact List.forall_mem_nil _) refused

theorem judged_of_noParts (noParts : kind.parts v = [])
    (conforms : ∀ a, result = .ok a → Conforms kind v)
    (refused : ∀ fault, result = .error fault → fault.place = [] ∧ ¬Conforms kind v) :
    Judged result kind v := by
  cases result with
  | ok a => exact conforms a rfl
  | error fault =>
    obtain ⟨here, bad⟩ := refused fault rfl
    unfold Judged
    dsimp only
    rw [here]
    exact blames_of_noParts noParts bad

theorem Judged.optional (ne : v ≠ .null) (h : Judged result kind v) :
    Judged result (.optional kind) v := by
  cases result with
  | ok a => exact .present h
  | error fault => exact Blames.optional ne h

theorem Judged.toOption (h : Judged (read v) kind v) :
    Judged (toOption read v) (.optional kind) v := by
  by_cases null : v = .null
  · subst null
    exact Conforms.absent kind
  · rw [Value.toOption]
    · exact (h.map some).optional null
    · exact null

/-! ### Runs over parts -/

theorem JudgedParts.here {p : Part} {rest : List Part} {fault : Fault}
    (h : Blames p.kind p.value fault.place) :
    JudgedParts (.error (fault.within p.step) : Except Fault β) (p :: rest) :=
  ⟨[], p, rest, fault.place, rfl, List.forall_mem_nil _, h, rfl⟩

theorem JudgedParts.later {result : Except Fault β} {p : Part} {rest : List Part}
    (fine : p.Conforms) (h : JudgedParts result rest) : JudgedParts result (p :: rest) := by
  unfold JudgedParts at h ⊢
  cases result with
  | ok b => exact List.forall_mem_cons.mpr ⟨fine, h⟩
  | error fault =>
    obtain ⟨before, q, after, place, rfl, fineBefore, inside, same⟩ := h
    exact ⟨p :: before, q, after, place, rfl, List.forall_mem_cons.mpr ⟨fine, fineBefore⟩, inside,
      same⟩

theorem JudgedParts.blames {fault : Fault}
    (h : JudgedParts (.error fault : Except Fault β) (kind.parts v)) :
    Blames kind v fault.place := by
  obtain ⟨before, p, after, place, parts, fine, inside, same⟩ := h
  rw [same]
  exact .part parts fine inside

theorem itemParts_cons {kindOf : Nat → Option Kind} {i : Nat} {items : List Value} :
    itemParts kindOf i (v :: items) =
      ((kindOf i).map fun kind => (⟨.index i, kind, v⟩ : Part)).toList ++
        itemParts kindOf (i + 1) items := by
  unfold itemParts
  rw [List.zipIdx_cons, List.filterMap_cons]
  cases kindOf i <;> rfl

theorem itemParts_eq_nil {kindOf : Nat → Option Kind} {i : Nat} (items : List Value)
    (h : ∀ j, i ≤ j → kindOf j = none) : itemParts kindOf i items = [] := by
  refine List.filterMap_eq_nil_iff.mpr fun item inside => ?_
  rw [h item.2 (List.mem_zipIdx inside).1]
  rfl

theorem memberParts_cons {kindOf : String → Option Kind} {m : String × Value}
    {members : List (String × Value)} :
    memberParts kindOf (m :: members) =
      ((kindOf m.1).map fun kind => (⟨.key m.1, kind, m.2⟩ : Part)).toList ++
        memberParts kindOf members := by
  unfold memberParts
  rw [List.filterMap_cons]
  cases kindOf m.1 <;> rfl

theorem judged_readEach {i : Nat} {items : List Value} (h : ∀ v ∈ items, Judged (read v) kind v) :
    JudgedParts (readEach read i items) (itemParts (fun _ => some kind) i items) := by
  induction items generalizing i with
  | nil => exact List.forall_mem_nil _
  | cons v rest ih =>
    obtain ⟨head, tail⟩ := List.forall_mem_cons.mp h
    rw [readEach, itemParts_cons]
    cases run : read v with
    | error fault =>
      rw [run] at head
      exact .here head
    | ok a =>
      rw [run] at head
      have later := ih (i := i + 1) tail
      dsimp only
      split
      next failed =>
        rw [failed] at later
        exact .later head later
      next others =>
        rw [others] at later
        exact .later head later

end

section structures

variable {φ δ : Type} {ofKey? : String → Option φ} {fields : List φ}
  {read : φ → δ → Value → Except Fault δ} {kindOf : φ → Kind}

theorem judged_readByKey {members : List (String × Value)} {d : δ}
    (h : ∀ m ∈ members, ∀ f d, Judged (read f d m.2) (kindOf f) m.2) :
    JudgedParts (readByKey ofKey? read d members)
      (memberParts (fun key => (ofKey? key).map kindOf) members) := by
  induction members generalizing d with
  | nil => exact List.forall_mem_nil _
  | cons m rest ih =>
    obtain ⟨head, tail⟩ := List.forall_mem_cons.mp h
    rw [readByKey, memberParts_cons]
    cases known : ofKey? m.1 with
    | none => exact ih tail
    | some f =>
      have here := head f d
      dsimp only
      cases run : read f d m.2 with
      | error fault =>
        rw [run] at here
        exact .here here
      | ok d' =>
        rw [run] at here
        exact .later here (ih tail)

theorem judged_readInOrder {i : Nat} {items : List Value} {d : δ}
    (h : ∀ v ∈ items, ∀ f d, Judged (read f d v) (kindOf f) v) :
    JudgedParts (readInOrder fields read i d items)
      (itemParts (fun i => fields[i]?.map kindOf) i items) := by
  induction items generalizing i d with
  | nil => exact List.forall_mem_nil _
  | cons v rest ih =>
    obtain ⟨head, tail⟩ := List.forall_mem_cons.mp h
    rw [readInOrder]
    cases known : fields[i]? with
    | none =>
      have out := List.getElem?_eq_none_iff.mp known
      rw [itemParts_eq_nil _ fun j after => by
        rw [List.getElem?_eq_none_iff.mpr (out.trans after), Option.map_none]]
      exact List.forall_mem_nil _
    | some f =>
      rw [itemParts_cons, known]
      have here := head f d
      dsimp only
      cases run : read f d v with
      | error fault =>
        rw [run] at here
        exact .here here
      | ok d' =>
        rw [run] at here
        exact .later here (ih tail)

end structures

/-! ### Leaves -/

variable {read : Value → Except Fault α} {kind : Kind}

theorem judged_toText (v : Value) : Judged v.toText .text v := by
  refine judged_of_noParts (by cases v <;> rfl) (fun s run => ?_) fun fault run => ?_
  · rw [toText_eq_ok_iff.mp run]
    exact .text s
  · cases v with
    | string s => cases run
    | _ =>
      cases run
      exact ⟨rfl, by rintro ⟨⟩⟩

theorem judged_toList {v : Value}
    (h : ∀ {items}, v = .array items → ∀ item ∈ items, Judged (read item) kind item) :
    Judged (toList read v) (.list kind) v := by
  cases v with
  | array items =>
    have parts := judged_readEach (i := 0) (h rfl)
    rw [toList]
    cases run : readEach read 0 items with
    | ok as =>
      rw [run] at parts
      refine .list fun v inside => ?_
      obtain ⟨i, item⟩ := List.mem_iff_getElem?.mp inside
      exact forall_itemParts_iff.mp parts i kind v rfl item
    | error fault =>
      rw [run] at parts
      exact parts.blames
  | _ => exact blames_of_noParts rfl (by rintro ⟨⟩)

theorem judged_toNames (v : Value) : Judged v.toNames (.list .text) v :=
  judged_toList fun _ item _ => judged_toText item

theorem judged_toEnumValues (v : Value) : Judged v.toEnumValues (.list (.optional .text)) v :=
  judged_toList fun _ item _ => (judged_toText item).toOption

theorem judged_toTypeDecl (v : Value) : Judged v.toTypeDecl .typeDecl v := by
  refine judged_of_noParts (by cases v <;> rfl) (fun decl run => ?_) fun fault run => ⟨?_, ?_⟩
  · rw [toTypeDecl_eq_ok_iff.mp run]
    cases decl with
    | single tag => exact .tag tag
    | alternatives names => exact .tags names
  · cases v with
    | string tag => cases run
    | _ =>
      rw [toTypeDecl] at run
      · split at run <;> cases run
        rfl
      · simp
  · intro conforms
    obtain ⟨decl, same⟩ : ∃ decl : TypeDecl, v = decl.toJson := by
      cases conforms with
      | tag s => exact ⟨.single s, rfl⟩
      | tags names => exact ⟨.alternatives names, rfl⟩
    rw [toTypeDecl_eq_ok_iff.mpr same] at run
    cases run

theorem judged_toUnit (v : Value) : Judged v.toUnit .unit v := by
  cases v with
  | null => exact Conforms.unit
  | _ => exact blames_of_noParts rfl (by rintro ⟨⟩)

theorem exists_ofName_of_conforms {name : String} {v : Value}
    (h : Conforms .cardinality (.object [(name, v)])) :
    ∃ kind, Cardinality.ofName name = .ok kind := by
  cases h with
  | record kind => exact ⟨kind, ofName_eq_ok_iff.mpr rfl⟩

theorem judged_toCardinality (v : Value) : Judged v.toCardinality .cardinality v := by
  fun_cases toCardinality v with
  | case1 name =>
    cases named : Cardinality.ofName name with
    | ok kind =>
      rw [ofName_eq_ok_iff.mp named]
      exact .name kind
    | error c =>
      refine blames_of_noParts rfl fun conforms => ?_
      cases conforms with
      | name kind =>
        rw [ofName_eq_ok_iff.mpr rfl] at named
        cases named
  | case2 name v c refused =>
    have unknown : Cardinality.ofName? name = none := by
      unfold Cardinality.ofName at refused
      split at refused
      next => cases refused
      next none => exact none
    refine blames_of_noParts (by rw [Kind.parts, unknown]; rfl) fun conforms => ?_
    obtain ⟨kind, named⟩ := exists_ofName_of_conforms conforms
    rw [refused] at named
    cases named
  | case3 name v kind named fault refused =>
    have parts : Kind.cardinality.parts (.object [(name, v)]) = [⟨.key name, .unit, v⟩] := by
      rw [Kind.parts, ofName_eq_ok_iff.mp named, Cardinality.ofName?_name]
      rfl
    have inside := judged_toUnit v
    rw [refused] at inside
    exact .part (parts.trans (List.nil_append _).symm) (List.forall_mem_nil _) inside
  | case4 name v kind named unit =>
    rw [ofName_eq_ok_iff.mp named, toUnit_eq_ok_iff.mp unit]
    exact .record kind
  | case5 members several =>
    refine blames_of_noParts ?_ fun conforms => ?_
    · rcases members with _ | ⟨⟨name, v⟩, _ | _⟩
      · rfl
      · exact absurd rfl (several name v)
      · rfl
    · cases conforms with
      | record kind => exact several _ _ rfl
  | case6 v notText _ notObject =>
    cases v with
    | string s => exact absurd rfl (notText s)
    | object members => exact absurd rfl (notObject members)
    | _ => exact blames_of_noParts rfl (by rintro ⟨⟩)

/-! ### Structures -/

namespace Format

variable {φ δ : Type} {F : Format φ δ α} {kindOf : φ → Kind}

/-- A fault in a field comes first. Where all of them conform, so does the object, if its draft can
be finished. -/
theorem judged_ofValue_object {members : List (String × Value)}
    (parts : kind.parts (.object members) =
      memberParts (fun key => (F.ofKey? key).map kindOf) members)
    (h : ∀ m ∈ members, ∀ f d, Judged (F.read f d m.2) (kindOf f) m.2)
    (finishes : ∀ d, readByKey F.ofKey? F.read F.start members = .ok d →
      (∀ p ∈ kind.parts (.object members), p.Conforms) →
        ((∃ a, F.finishByKey d = .ok a) ↔ Conforms kind (.object members))) :
    Judged (F.ofValue (.object members)) kind (.object members) := by
  have judged : JudgedParts (readByKey F.ofKey? F.read F.start members)
      (kind.parts (.object members)) := parts ▸ judged_readByKey h
  rw [ofValue]
  cases run : readByKey F.ofKey? F.read F.start members with
  | error fault =>
    rw [run] at judged
    exact judged.blames
  | ok d =>
    rw [run] at judged
    have conforms := finishes d run judged
    change Judged ((F.finishByKey d).mapError Fault.here) _ _
    cases finished : F.finishByKey d with
    | ok a => exact conforms.mp ⟨a, finished⟩
    | error c =>
      refine .whole judged fun fine => ?_
      obtain ⟨a, same⟩ := conforms.mpr fine
      rw [finished] at same
      cases same

theorem judged_ofValue_array {items : List Value}
    (parts : kind.parts (.array items) =
      itemParts (fun i => (F.fields[i]?).map kindOf) 0 items)
    (h : ∀ v ∈ items, ∀ f d, Judged (F.read f d v) (kindOf f) v)
    (finishes : ∀ d, readInOrder F.fields F.read 0 F.start items = .ok d →
      (∀ p ∈ kind.parts (.array items), p.Conforms) →
        ((items.length ≤ F.fields.length ∧ ∃ a, F.finishInOrder d = .ok a) ↔
          Conforms kind (.array items))) :
    Judged (F.ofValue (.array items)) kind (.array items) := by
  have judged : JudgedParts (readInOrder F.fields F.read 0 F.start items)
      (kind.parts (.array items)) := parts ▸ judged_readInOrder h
  rw [ofValue]
  cases run : readInOrder F.fields F.read 0 F.start items with
  | error fault =>
    rw [run] at judged
    exact judged.blames
  | ok d =>
    rw [run] at judged
    have conforms := finishes d run judged
    cases finished : F.finishInOrder d with
    | error c =>
      change Judged ((F.finishInOrder d).mapError Fault.here >>= _) _ _
      rw [finished]
      refine .whole judged fun fine => ?_
      obtain ⟨-, a, same⟩ := conforms.mpr fine
      rw [finished] at same
      cases same
    | ok a =>
      change Judged ((F.finishInOrder d).mapError Fault.here >>= _) _ _
      rw [finished]
      by_cases fits : items.length ≤ F.fields.length
      · change Judged (if _ then _ else _) _ _
        rw [if_pos fits]
        exact conforms.mp ⟨fits, a, finished⟩
      · change Judged (if _ then _ else _) _ _
        rw [if_neg fits]
        exact .whole judged fun fine => fits (conforms.mpr fine).1

end Format

namespace Property

theorem mem_fieldsOf_type_iff {members : List (String × Value)} :
    Field.type ∈ fieldsOf Field.ofKey? members ↔ ∃ m ∈ members, m.1 = "type" := by
  unfold fieldsOf
  rw [List.mem_filterMap]
  refine exists_congr fun m => and_congr_right fun _ => ⟨fun known => ?_, fun same => ?_⟩
  · exact (format.key_of_ofKey? known).symm
  · rw [same]
    rfl

theorem mem_take_fields_type_iff (n : Nat) : Field.type ∈ Field.all.take n ↔ 2 ≤ n := by
  match n with
  | 0 => decide
  | 1 => decide
  | n + 2 => simp [Field.all]

theorem finish_eq_ok_iff {d : Draft} {missing : Cause} :
    (∃ p, d.finish missing = .ok p) ↔ d.has .type = true := by
  rw [Draft.finish, Draft.has]
  cases d.type <;> simp

theorem judged_readEntries {members : List (String × Value)} {m : Properties}
    (h : ∀ member ∈ members, Judged (ofValue member.2) .property member.2) :
    JudgedParts (readEntries m members) (memberParts (fun _ => some .property) members) := by
  induction members generalizing m with
  | nil =>
    rw [readEntries]
    exact List.forall_mem_nil _
  | cons member rest ih =>
    obtain ⟨head, tail⟩ := List.forall_mem_cons.mp h
    rw [readEntries, memberParts_cons]
    cases run : ofValue member.2 with
    | error fault =>
      rw [run] at head
      exact .here head
    | ok p =>
      rw [run] at head
      exact .later head (ih tail)

theorem judged_entries {members : List (String × Value)}
    (h : ∀ member ∈ members, Judged (ofValue member.2) .property member.2) :
    Judged (readEntries [] members) .entries (.object members) := by
  have parts := judged_readEntries (m := []) h
  cases run : readEntries [] members with
  | ok m =>
    rw [run] at parts
    exact .entries fun member inside => forall_memberParts_iff.mp parts member inside .property rfl
  | error fault =>
    rw [run] at parts
    exact parts.blames

theorem judged_readField {v : Value}
    (h : ∀ {members}, v = .object members →
      ∀ member ∈ members, Judged (ofValue member.2) .property member.2)
    (f : Field) (d : Draft) : Judged (readField f d v) f.kind v := by
  cases f with
  | properties =>
    cases v with
    | null =>
      rw [readField]
      exact Conforms.absent .entries
    | object members =>
      rw [readField]
      exact ((judged_entries (h rfl)).map _).optional (by rintro ⟨⟩)
    | _ =>
      rw [readField]
      · show Blames (.optional .entries) _ []
        exact .optional (by rintro ⟨⟩) (blames_of_noParts rfl (by rintro ⟨⟩))
      · rintro ⟨⟩
      · rintro _ ⟨⟩
  | title =>
    rw [readField]
    exact (judged_toText v).toOption.map _
  | type =>
    rw [readField]
    exact (judged_toTypeDecl v).map _
  | enumValues =>
    rw [readField]
    exact (judged_toEnumValues v).toOption.map _
  | required =>
    rw [readField]
    exact (judged_toNames v).toOption.map _
  | foreignKey =>
    rw [readField]
    exact (judged_toText v).toOption.map _
  | foreignKeyType =>
    rw [readField]
    exact (judged_toCardinality v).toOption.map _

theorem judged_ofValue_object {members : List (String × Value)}
    (h : ∀ m ∈ members, ∀ f d, Judged (readField f d m.2) f.kind m.2) :
    Judged (ofValue (.object members)) .property (.object members) := by
  rw [ofValue_eq]
  refine Format.judged_ofValue_object (by rw [Kind.parts]) h fun d run fine => ?_
  have typed : d.has .type = true ↔ ∃ m ∈ members, m.1 = "type" := by
    rw [format.marks.readByKey run, mem_fieldsOf_type_iff]
    simp [Draft.has]
  rw [finish_eq_ok_iff, typed]
  constructor
  · intro named
    refine .propertyByKey named fun m inside f known => ?_
    exact forall_memberParts_iff.mp fine m inside f.kind (by rw [known]; rfl)
  · intro conforms
    cases conforms with
    | propertyByKey named _ => exact named

theorem judged_ofValue_array {items : List Value}
    (h : ∀ v ∈ items, ∀ f d, Judged (readField f d v) f.kind v) :
    Judged (ofValue (.array items)) .property (.array items) := by
  rw [ofValue_eq]
  refine Format.judged_ofValue_array (by rw [Kind.parts]; rfl) h fun d run fine => ?_
  have typed : d.has .type = true ↔ 2 ≤ items.length := by
    rw [format.marks.readInOrder run, List.drop_zero, mem_take_fields_type_iff]
    simp [Draft.has]
  rw [finish_eq_ok_iff, typed]
  constructor
  · rintro ⟨fits, long⟩
    refine .propertyInOrder long fits fun i f v known item => ?_
    exact forall_itemParts_iff.mp fine i f.kind v (by rw [known]; rfl) item
  · intro conforms
    cases conforms with
    | propertyInOrder long fits _ => exact ⟨fits, long⟩

/-- Properties are judged at any depth, and so is whatever is read as one of their fields. -/
theorem judged_ofValue (v : Value) :
    Judged (ofValue v) .property v ∧ ∀ f d, Judged (readField f d v) f.kind v := by
  induction v using Value.nested_induction with
  | array items ih =>
    exact ⟨judged_ofValue_array fun v inside => (ih v inside).2,
      judged_readField (by rintro _ ⟨⟩)⟩
  | object members ih =>
    refine ⟨judged_ofValue_object fun m inside => (ih m inside).2, judged_readField fun same => ?_⟩
    cases same
    exact fun member inside => (ih member inside).1
  | _ => exact ⟨blames_of_noParts rfl (by rintro ⟨⟩), judged_readField (by rintro _ ⟨⟩)⟩

end Property

namespace Schema

theorem judged_readField (v : Value) (f : Field) (d : Draft) :
    Judged (readField f d v) f.kind v := by
  cases f with
  | type => exact (judged_toText v).map _
  | properties =>
    cases v with
    | object members =>
      exact (Property.judged_entries fun m _ => (Property.judged_ofValue m.2).1).map _
    | _ => exact blames_of_noParts rfl (by rintro ⟨⟩)
  | required => exact (judged_toNames v).toOption.map _

theorem judged_ofValue (v : Value) : Judged (ofValue v) .schema v := by
  rw [ofValue_eq]
  cases v with
  | array items =>
    refine Format.judged_ofValue_array (by rw [Kind.parts]; rfl)
      (fun v _ => judged_readField v) fun d run fine => ?_
    constructor
    · rintro ⟨fits, -⟩
      refine .schemaInOrder fits fun i f v known item => ?_
      exact forall_itemParts_iff.mp fine i f.kind v (by rw [known]; rfl) item
    · intro conforms
      cases conforms with
      | schemaInOrder fits _ => exact ⟨fits, _, rfl⟩
  | object members =>
    refine Format.judged_ofValue_object (by rw [Kind.parts])
      (fun m _ => judged_readField m.2) fun d run fine => ?_
    refine ⟨fun _ => .schemaByKey fun m inside f known => ?_, fun _ => ⟨_, rfl⟩⟩
    exact forall_memberParts_iff.mp fine m inside f.kind (by rw [known]; rfl)
  | _ => exact blames_of_noParts rfl (by rintro ⟨⟩)

/-- A schema is read from a value just if the value conforms to the grammar. Else the fault is in
the one place where the value first departs from it, and the message tells that place. -/
theorem ofValue_accepts_grammar (v : Value) :
    ((∃ s, ofValue v = .ok s) ↔ Conforms .schema v) ∧
      ∀ fault, ofValue v = .error fault →
        (∀ place, Blames .schema v place ↔ place = fault.place) ∧
          Rendered fault.place (Place.text fault.place) ∧
            fault.message =
              "at JSON path " ++ Place.text fault.place ++ " → " ++ fault.cause.message := by
  have judged := judged_ofValue v
  cases run : ofValue v with
  | ok s =>
    rw [run] at judged
    exact ⟨⟨fun _ => judged, fun _ => ⟨s, rfl⟩⟩, nofun⟩
  | error fault =>
    rw [run] at judged
    refine ⟨⟨nofun, fun conforms => absurd conforms judged.not_conforms⟩, ?_⟩
    rintro _ ⟨⟩
    have blamed : Blames .schema v fault.place := judged
    refine ⟨fun place => ⟨fun other => other.unique blamed, ?_⟩,
      rendered_text blamed.step_ne_unnamed, rfl⟩
    rintro rfl
    exact blamed

/-- A property whose cardinality has a name that is none of the three. -/
def unknownCardinality : Value :=
  .object [("type", .string "object"), ("properties", .object [("x", .object [
    ("type", .string "string"), ("foreignKeyType", .string "many-to-many")])])]

/-- A property given by its fields in order, one of whose literals is a number. -/
def numericLiteral : Value :=
  .object [("properties", .object [("x", .array [
    .null, .string "string", .array [.string "a", .number (.integer 1)]])])]

theorem ofValue_accepts_grammar_unknownCardinality :
    ¬(∃ s, ofValue unknownCardinality = .ok s) ∧
      Blames .schema unknownCardinality [.key "properties", .key "x", .key "foreignKeyType"] ∧
      (∃ fault, ofValue unknownCardinality = .error fault ∧
        Place.text fault.place = "properties.x.foreignKeyType" ∧
        fault.message = "at JSON path properties.x.foreignKeyType → unknown variant " ++
          "`many-to-many`, expected one of `one-to-many`, `many-to-one`, `one-to-one`") ∧
      Blames .schema numericLiteral [.key "properties", .key "x", .index 2, .index 1] ∧
      ∃ fault, ofValue numericLiteral = .error fault ∧
        Place.text fault.place = "properties.x[2][1]" ∧
        fault.message =
          "at JSON path properties.x[2][1] → invalid type: integer `1`, expected a string" := by
  have unknown : ofValue unknownCardinality =
      .error ⟨[.key "properties", .key "x", .key "foreignKeyType"],
        .unknownVariant "many-to-many" ["one-to-many", "many-to-one", "one-to-one"]⟩ := by
    rfl
  have numeric : ofValue numericLiteral =
      .error ⟨[.key "properties", .key "x", .index 2, .index 1],
        .wrongType (.number (.integer 1)) "a string"⟩ := by
    rfl
  obtain ⟨-, unknownFault⟩ := ofValue_accepts_grammar unknownCardinality
  obtain ⟨-, numericFault⟩ := ofValue_accepts_grammar numericLiteral
  refine ⟨by rw [unknown]; nofun, ((unknownFault _ unknown).1 _).mpr rfl,
    ⟨_, unknown, by decide +kernel, ?_⟩, ((numericFault _ numeric).1 _).mpr rfl,
    ⟨_, numeric, by decide +kernel, ?_⟩⟩
  · exact ((unknownFault _ unknown).2.2).trans (by decide +kernel)
  · exact ((numericFault _ numeric).2.2).trans (by decide +kernel)

end Schema

end InterfaceGen
