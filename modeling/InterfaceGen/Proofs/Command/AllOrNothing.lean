import InterfaceGen.Proofs.Command.Selection
import InterfaceGen.Proofs.Command.Stages
import InterfaceGen.Proofs.Files.Tree
import InterfaceGen.Proofs.Schema.RoundTrip
import InterfaceGen.Command.Run

/-!
# All or nothing

A run hands out what all inputs together compile to, and hands out nothing while one of them does
not compile. What it has written is read again from the files that it was asked to write, unless it
was asked to write both to the same file.
-/

namespace InterfaceGen.Command

open Files (FileTree Content)

variable {engine : Query.Engine} {t t' : FileTree}

/-! ### Writing files -/

/-- Writes a text to a file, in directories that are made if they are missing. -/
def writeFile (t : FileTree) (path text : String) : Except Failure FileTree := do
  let parent := (Files.Path.parent? path).getD ""
  let t ← (t.makeDirectories parent).mapError (.makeDirectory parent)
  (t.write path (.text text)).mapError (.write path)

def writeAll (t : FileTree) (files : List (String × String)) : Except Failure FileTree :=
  files.foldlM (fun t file => writeFile t file.1 file.2) t

theorem writeFile_eq_ok_iff {path text : String} :
    writeFile t path text = .ok t' ↔
      ∃ between, t.makeDirectories ((Files.Path.parent? path).getD "") = .ok between ∧
        between.write path (.text text) = .ok t' := by
  unfold writeFile
  simp only [except_bind_eq_ok_iff, mapError_eq_ok_iff]

theorem writeAll_cons_eq_ok_iff {file : String × String} {files : List (String × String)} :
    writeAll t (file :: files) = .ok t' ↔
      ∃ between, writeFile t file.1 file.2 = .ok between ∧ writeAll between files = .ok t' := by
  rw [writeAll, List.foldlM_cons, except_bind_eq_ok_iff]
  rfl

theorem destination_of_writeFile {path text : String} (h : writeFile t path text = .ok t')
    (other : String) : t'.destination other = t.destination other := by
  obtain ⟨between, made, written⟩ := writeFile_eq_ok_iff.mp h
  obtain ⟨-, rfl, -⟩ := FileTree.write_eq_ok written
  exact FileTree.destination_of_makeDirectories made other

theorem holds_of_writeFile {path text : String} (h : writeFile t path text = .ok t') :
    t'.Holds path (.text text) := by
  obtain ⟨between, -, written⟩ := writeFile_eq_ok_iff.mp h
  exact (FileTree.write_eq_ok written).2.2

theorem holds_of_writeFile_of_ne {path text other : String} {content : Content}
    (h : writeFile t path text = .ok t') (there : t.Holds other content)
    (ne : t.destination path ≠ t.destination other) : t'.Holds other content := by
  obtain ⟨between, made, written⟩ := writeFile_eq_ok_iff.mp h
  obtain ⟨free, rfl, -⟩ := FileTree.write_eq_ok written
  refine (there.of_makeDirectories made).put free (fun same => ne ?_) _
  rw [← FileTree.destination_of_makeDirectories made path, ← same,
    FileTree.destination_of_makeDirectories made other]

theorem holds_of_writeAll_of_ne {files : List (String × String)} {other : String}
    {content : Content} (h : writeAll t files = .ok t') (there : t.Holds other content)
    (ne : ∀ file ∈ files, t.destination file.1 ≠ t.destination other) : t'.Holds other content := by
  induction files generalizing t with
  | nil =>
    cases h
    exact there
  | cons file rest ih =>
    obtain ⟨between, first, others⟩ := writeAll_cons_eq_ok_iff.mp h
    obtain ⟨ne, nes⟩ := List.forall_mem_cons.mp ne
    refine ih others (holds_of_writeFile_of_ne first there ne) fun file inside => ?_
    rw [destination_of_writeFile first, destination_of_writeFile first]
    exact nes file inside

/-- What is written to a file is there at the end, if nothing is written to it later. -/
theorem holds_of_writeAll {before after : List (String × String)} {path text : String}
    (h : writeAll t (before ++ (path, text) :: after) = .ok t')
    (ne : ∀ file ∈ after, t.destination file.1 ≠ t.destination path) :
    t'.Holds path (.text text) := by
  induction before generalizing t with
  | nil =>
    obtain ⟨between, first, others⟩ := writeAll_cons_eq_ok_iff.mp h
    refine holds_of_writeAll_of_ne others (holds_of_writeFile first) fun file inside => ?_
    rw [destination_of_writeFile first, destination_of_writeFile first]
    exact ne file inside
  | cons file rest ih =>
    obtain ⟨between, first, others⟩ := writeAll_cons_eq_ok_iff.mp h
    refine ih others fun file inside => ?_
    rw [destination_of_writeFile first, destination_of_writeFile first]
    exact ne file inside

/-! ### Handing out -/

theorem perform_write {path text : String} (h : writeFile t path text = .ok t') :
    (Delivery.write path text).perform FileTree.writer t = (.ok "", t') := by
  obtain ⟨between, made, written⟩ := writeFile_eq_ok_iff.mp h
  simp only [Delivery.perform, bind, StateT.bind, FileTree.writer, made, written]
  rfl

theorem performAll_cons {d : Delivery} {rest : List Delivery} {printed : String}
    (h : d.perform FileTree.writer t = (.ok printed, t')) :
    performAll FileTree.writer (d :: rest) t =
      let ((others, failure), after) := performAll FileTree.writer rest t'
      ((printed ++ others, failure), after) := by
  simp only [performAll, bind, StateT.bind, h]
  rfl

theorem performAll_write {files : List (String × String)} (h : writeAll t files = .ok t') :
    performAll FileTree.writer (files.map fun file => .write file.1 file.2) t =
      (("", none), t') := by
  induction files generalizing t with
  | nil =>
    cases h
    rfl
  | cons file rest ih =>
    obtain ⟨between, first, others⟩ := writeAll_cons_eq_ok_iff.mp h
    rw [List.map_cons, performAll_cons (perform_write first), ih others]
    rfl

/-- The declarations of all inputs. -/
def joinedSource (emissions : List Emission) : String :=
  "\n\n".intercalate (emissions.map Emission.source)

/-- The relations of all inputs, those of later ones over those of earlier ones. -/
def mergedTable (emissions : List Emission) : RelationTable :=
  (emissions.map Emission.relations).foldl RelationTable.merge .empty

/-- What a run is asked to write, with the files to write it to. -/
def outputFiles (s : Settings) (emissions : List Emission) : List (String × String) :=
  (s.out.toList.map fun path => (path, joinedSource emissions)) ++
    s.relations.toList.map fun path => (path, (mergedTable emissions).toJson.prettyText)

def printedText (s : Settings) (emissions : List Emission) : String :=
  if s.out.isNone then joinedSource emissions ++ "\n" else ""

theorem deliveries_eq (s : Settings) (emissions : List Emission) :
    deliveries s emissions =
      (if s.out.isNone then [.print (joinedSource emissions)] else []) ++
        (outputFiles s emissions).map fun file => .write file.1 file.2 := by
  have table : emissions.foldl (fun t e => t.merge e.relations) RelationTable.empty =
      mergedTable emissions := List.foldl_map.symm
  rw [deliveries, table, outputFiles, List.map_append, List.map_map, List.map_map]
  cases s.out <;> rfl

theorem performAll_deliveries {s : Settings} {emissions : List Emission}
    (h : writeAll t (outputFiles s emissions) = .ok t') :
    performAll FileTree.writer (deliveries s emissions) t =
      ((printedText s emissions, none), t') := by
  have written := performAll_write h
  rw [deliveries_eq, printedText]
  split
  next =>
    have print : (Delivery.print (joinedSource emissions)).perform FileTree.writer t =
        (.ok (joinedSource emissions ++ "\n"), t) := rfl
    rw [List.singleton_append, performAll_cons print, written]
    dsimp only
    rw [String.append_empty]
  next => exact written

theorem runWith_eq {r : Request} (runs : r.settings.noOp = false) (engine : Query.Engine)
    (t : FileTree) :
    ∃ progress, r.runWith engine t =
      match (compile engine t.reader r.settings :
        List Progress × Except Failure (List Delivery)).2 with
      | .error e => (⟨"", none, progress, some e⟩, t)
      | .ok deliveries =>
        let ((stdout, failure), after) := performAll FileTree.writer deliveries t
        (⟨stdout, none, progress, failure⟩, after) := by
  refine ⟨(compile engine t.reader r.settings :
    List Progress × Except Failure (List Delivery)).1, ?_⟩
  rw [Request.runWith, Request.run, runs]
  simp only [Bool.false_eq_true, if_false, bind, StateT.bind]
  cases (compile engine t.reader r.settings : List Progress × Except Failure (List Delivery)) with
  | mk progress result => cases result <;> rfl

/-! ### The run -/

/-- All that a run is asked for is handed out, and files elsewhere are as they were. The source is
read again from its file unless the relations are written over it. -/
structure Delivered (s : Settings) (emissions : List Emission) (t : FileTree) (outcome : Outcome)
    (after : FileTree) : Prop where
  printed : outcome.stdout = printedText s emissions
  source : ∀ out ∈ s.out, (∀ path ∈ s.relations, t.destination path ≠ t.destination out) →
    after.read out = .ok (joinedSource emissions)
  relations : ∀ path ∈ s.relations, after.read path = .ok (mergedTable emissions).toJson.prettyText
  kept : ∀ path content, t.Holds path content →
    (∀ file ∈ outputFiles s emissions, t.destination file.1 ≠ t.destination path) →
      after.Holds path content

theorem delivered_of_writeAll {s : Settings} {emissions : List Emission} {outcome : Outcome}
    (h : writeAll t (outputFiles s emissions) = .ok t')
    (printed : outcome.stdout = printedText s emissions) : Delivered s emissions t outcome t' where
  printed := printed
  source out given apart := by
    rw [outputFiles, Option.mem_def.mp given] at h
    have first : writeAll t ([] ++ (out, joinedSource emissions) :: _) = .ok t' := h
    refine (holds_of_writeAll first fun file inside => ?_).read
    obtain ⟨path, asked, rfl⟩ := List.mem_map.mp inside
    exact apart path (Option.mem_toList.mp asked)
  relations path asked := by
    rw [outputFiles, Option.mem_def.mp asked] at h
    exact (holds_of_writeAll h nofun).read
  kept path content there elsewhere := holds_of_writeAll_of_ne h there elsewhere

/-- A run with inputs that are no patterns, whatever works out the query. If every input compiles
and the files can be written, then all that is asked for is handed out. If some input does not, then
nothing is, and the run fails with what stops the compilation. -/
theorem runWith_all_or_nothing (engine : Query.Engine) (r : Request) (t : FileTree)
    (runs : r.settings.noOp = false)
    (plain : ∀ path ∈ r.settings.inputs, Files.Pattern.isPattern path = false) :
    (∀ emissions after, Compiles engine t r.settings emissions →
      writeAll t (outputFiles r.settings emissions) = .ok after →
        (r.runWith engine t).1.failure = none ∧ (r.runWith engine t).2 = after ∧
          Delivered r.settings emissions t (r.runWith engine t).1 after) ∧
    ((¬∃ emissions, Compiles engine t r.settings emissions) →
      ∃ e, FirstFailure engine t r.settings e ∧ (r.runWith engine t).1.failure = some e ∧
        (r.runWith engine t).1.stdout = "" ∧ (r.runWith engine t).2 = t) := by
  obtain ⟨progress, run⟩ := runWith_eq runs engine t
  constructor
  · intro emissions after compiles written
    rw [compiles.compile_eq_ok plain] at run
    dsimp only at run
    rw [performAll_deliveries written] at run
    rw [run]
    exact ⟨rfl, rfl, delivered_of_writeAll written rfl⟩
  · intro fails
    obtain ⟨e, first, compiled⟩ := compile_eq_error fails plain
    rw [compiled] at run
    rw [run]
    exact ⟨e, first, rfl, rfl, rfl⟩

/-- A document that holds a schema under a key, as a query by that key finds it. -/
def under (key : String) (schema : Schema) : Json.Value := .object [(key, schema.toJson)]

theorem loadStage_under {path key : String} {schema schema' : Schema} {s : Settings}
    (there : t.read path = .ok (under key schema).text)
    (asked : s.jsonPointer = none ∧ s.query = some (Query.keyPath [key]))
    (distinct : (under key schema).merged = under key schema)
    (fits : (under key schema).depth ≤ Json.Reader.greatestDepth)
    (loads : Schema.ofValue schema.toJson = .ok schema') :
    loadStage Query.interpreter t s path = .ok schema' := by
  have distinct : (under key schema).DistinctKeys := distinct ▸ Json.Value.distinctKeys_merged _
  have whole : (under key schema).WholeNumbers :=
    (Json.Value.NumberFree.object (List.forall_mem_singleton.mpr
      schema.numberFree_toJson)).wholeNumbers
  have reached : (under key schema).Reaches [key] schema.toJson :=
    .child (if_pos rfl) (.here _)
  have read : Json.Value.ofText (under key schema).text = .ok (under key schema) :=
    (Json.printing_compact.ofText_eq_ok_iff distinct whole).mpr fits
  have alone : Query.run (Query.keyPath [key]) (under key schema) = .ok [schema.toJson] :=
    (run_keyPath_iff distinct whole reached).mpr
      (Nat.le_trans (Json.Value.depth_le_of_select? reached.select?_eq) fits)
  rw [loadStage, there, asked.1, asked.2, schemaOfFile_of_ofText read]
  change ((applyQuery _ _ (under key schema) >>= _).mapError _) = _
  rw [applyQuery_of_run alone]
  change ((Schema.ofValue _).mapError _).mapError _ = _
  rw [loads]
  rfl

def user : Schema where
  type := "object"
  properties := [("id", .ofType (.ofTag .string))]
  required := some ["id"]

/-- An order belongs to a user. -/
def order : Schema where
  type := "object"
  properties := [("userId", { Property.ofType (.ofTag .string) with
    foreignKey := some "user", foreignKeyType := some .oneToOne })]
  required := none

def shop : FileTree where
  root := .directory
    [("user.json", .file (.text (under "schema" user).text)),
      ("order.json", .file (.text (under "schema" order).text))]
  workingDirectory := []

def shopRequest (inputs : List String) : Request where
  verbose := false
  settings :=
    { name := none
      inputs
      jsonPointer := none
      query := some ".[\"schema\"]"
      out := some "shop.ts"
      relations := some "relations.json"
      noOp := false }

def userDeclaration : String :=
  "export interface User \x7b id: string;\n[key: string]: unknown; \x7d"

def orderDeclaration : String :=
  "export interface Order \x7b userId?: string;\nuser?: User;\n[key: string]: unknown; \x7d"

def shopEmissions : List Emission :=
  [⟨userDeclaration, .empty⟩, ⟨orderDeclaration, ⟨[("User", "user")]⟩⟩]

theorem compiles_shop :
    Compiles Query.interpreter shop (shopRequest ["user.json", "order.json"]).settings
      shopEmissions := by
  refine .cons (generationStage_eq_ok_iff.mpr ?_)
    (.cons (generationStage_eq_ok_iff.mpr ?_) .nil)
  · exact ⟨user, loadStage_under rfl ⟨rfl, rfl⟩ rfl (by decide) rfl, "User", rfl, rfl⟩
  · exact ⟨order, loadStage_under rfl ⟨rfl, rfl⟩ rfl (by decide) rfl, "Order", rfl, rfl⟩

theorem not_compiles_shop : ¬∃ emissions, Compiles Query.interpreter shop
    (shopRequest ["user.json", "absent.json"]).settings emissions := by
  rintro ⟨_, _ | ⟨_, _ | ⟨last, _⟩⟩⟩
  cases last

theorem runWith_all_or_nothing_shop :
    (((shopRequest ["user.json", "order.json"]).runWith Query.interpreter shop).1.failure = none ∧
      ((shopRequest ["user.json", "order.json"]).runWith Query.interpreter shop).2.read "shop.ts" =
        .ok (userDeclaration ++ "\n\n" ++ orderDeclaration) ∧
      ((shopRequest ["user.json", "order.json"]).runWith Query.interpreter shop).2.read
        "relations.json" = .ok "\x7b\n  \"User\": \"user\"\n\x7d") ∧
    ((shopRequest ["user.json", "absent.json"]).runWith Query.interpreter shop).1.failure.isSome ∧
      ((shopRequest ["user.json", "absent.json"]).runWith Query.interpreter shop).2 = shop := by
  constructor
  · obtain ⟨after, written⟩ : ∃ after, writeAll shop (outputFiles
        (shopRequest ["user.json", "order.json"]).settings shopEmissions) = .ok after :=
      ⟨_, rfl⟩
    obtain ⟨succeeded, reached, delivered⟩ :=
      (runWith_all_or_nothing Query.interpreter (shopRequest ["user.json", "order.json"]) shop rfl
        (by decide)).1 shopEmissions after compiles_shop written
    rw [reached]
    exact ⟨succeeded, delivered.source "shop.ts" rfl (by decide),
      delivered.relations "relations.json" rfl⟩
  · obtain ⟨e, -, failed, -, untouched⟩ :=
      (runWith_all_or_nothing Query.interpreter (shopRequest ["user.json", "absent.json"]) shop rfl
        (by decide)).2 not_compiles_shop
    exact ⟨by rw [failed, Option.isSome_some], untouched⟩

end InterfaceGen.Command
