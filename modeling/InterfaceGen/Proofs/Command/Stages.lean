import InterfaceGen.Proofs.Except
import InterfaceGen.Command.Compile

/-!
# The stages of a compilation

Loading, naming and generating are each one pass over the inputs that the first error ends, and no
pass starts before the one in front of it has come to the end. So what stops a compilation is the
first error of the first pass that has one, whatever the inputs would fail with later.
-/

namespace InterfaceGen.Command

open Files (FileTree)

/-! ### What each stage does with an input -/

variable {engine : Query.Engine} {t : FileTree} {s : Settings} {paths : List String}

def loadStage (engine : Query.Engine) (t : FileTree) (s : Settings) (path : String) :
    Except Failure Schema :=
  (schemaOfFile engine s.jsonPointer s.query (t.read path)).mapError (.load path)

def nameStage (s : Settings) (path : String) : Except Failure String :=
  (declarationName s.name path s.inputs.length).mapError .name

/-- An input all the way through. -/
def generationStage (engine : Query.Engine) (t : FileTree) (s : Settings) (path : String) :
    Except Failure Emission := do
  let schema ← loadStage engine t s path
  let name ← nameStage s path
  (generate name schema).mapError (.generation path)

theorem generationStage_eq_ok_iff {path : String} {e : Emission} :
    generationStage engine t s path = .ok e ↔ ∃ schema, loadStage engine t s path = .ok schema ∧
      ∃ name, nameStage s path = .ok name ∧ generate name schema = .ok e := by
  unfold generationStage
  simp only [except_bind_eq_ok_iff, mapError_eq_ok_iff]

theorem expandPaths_of_plain {m : Type → Type} [Monad m] [LawfulMonad m]
    (files : Files.FileReader m)
    (plain : ∀ path ∈ paths, Files.Pattern.isPattern path = false) :
    Files.expandPaths files paths = pure (.ok paths) := by
  induction paths with
  | nil => rfl
  | cons path rest ih =>
    obtain ⟨here, others⟩ := List.forall_mem_cons.mp plain
    rw [Files.expandPaths, Files.expandPath, here]
    simp only [Bool.false_eq_true, if_false, pure_bind, ih others]
    rfl

theorem loadAll_cons (engine : Query.Engine) (t : FileTree) (s : Settings) (path : String)
    (rest : List String) :
    loadAll engine t.reader s (path :: rest) =
      match schemaOfFile engine s.jsonPointer s.query (t.read path) with
      | .error e => .error (.load path e)
      | .ok schema => (loadAll engine t.reader s rest).map (⟨path, schema⟩ :: ·) := by
  rw [loadAll]
  change (match schemaOfFile engine s.jsonPointer s.query (t.read path) with
    | .error e => _
    | .ok schema => _) = _
  cases schemaOfFile engine s.jsonPointer s.query (t.read path) <;> rfl

theorem loadAll_reader (engine : Query.Engine) (t : FileTree) (s : Settings) (paths : List String) :
    loadAll engine t.reader s paths =
      (paths.mapM (loadStage engine t s)).map fun schemas =>
        List.zipWith Source.mk paths schemas := by
  induction paths with
  | nil => rfl
  | cons path rest ih =>
    rw [loadAll_cons, ih, List.mapM_cons, loadStage]
    cases schemaOfFile engine s.jsonPointer s.query (t.read path) with
    | error e => rfl
    | ok schema => cases rest.mapM (loadStage engine t s) <;> rfl

theorem nameAll_eq (s : Settings) (sources : List Source) :
    nameAll s.name s.inputs.length sources =
      ((sources.map Source.path).mapM (nameStage s)).map fun names => names.zip sources := by
  induction sources with
  | nil => rfl
  | cons source rest ih =>
    rw [nameAll, ih, List.map_cons, List.mapM_cons, nameStage]
    cases declarationName s.name source.path s.inputs.length with
    | error e => rfl
    | ok name => cases (rest.map Source.path).mapM (nameStage s) <;> rfl

theorem generateAll_snd {schemas : List Schema} {names : List String}
    (loaded : List.Forall₂ (fun path schema => loadStage engine t s path = .ok schema)
      paths schemas)
    (named : List.Forall₂ (fun path name => nameStage s path = .ok name) paths names) :
    (generateAll (names.zip (List.zipWith Source.mk paths schemas))).2 =
      paths.mapM (generationStage engine t s) := by
  induction loaded generalizing names with
  | nil =>
    cases named
    rfl
  | @cons path schema paths schemas load loaded ih =>
    cases named with
    | @cons _ name _ names named others =>
      rw [List.zipWith_cons_cons, List.zip_cons_cons, generateAll, List.mapM_cons, generationStage,
        load, named, ← ih others]
      change _ = ((generate name schema).mapError _ >>= fun e => _)
      cases generate name schema with
      | error e => rfl
      | ok e =>
        change ((generateAll _).2.map (e :: ·)) = _
        cases (generateAll (names.zip (List.zipWith Source.mk paths schemas))).2 <;> rfl

theorem map_path_zipWith {schemas : List Schema}
    (loaded : List.Forall₂ (fun path schema => loadStage engine t s path = .ok schema)
      paths schemas) :
    (List.zipWith Source.mk paths schemas).map Source.path = paths := by
  induction loaded with
  | nil => rfl
  | cons _ _ ih => rw [List.zipWith_cons_cons, List.map_cons, ih]

theorem compile_of_expandPaths
    (expanded : Files.expandPaths (m := Id) t.reader s.inputs = .ok paths) :
    (compile engine t.reader s : List Progress × Except Failure (List Delivery)) =
      match loadAll engine t.reader s paths with
      | .error e => ([], .error e)
      | .ok sources =>
        match nameAll s.name sources.length sources with
        | .error e => ([], .error e)
        | .ok named => ((generateAll named).1, (generateAll named).2.map (deliveries s)) := by
  rw [compile, expanded]
  rfl

theorem compile_snd (engine : Query.Engine) (t : FileTree) (s : Settings)
    (plain : ∀ path ∈ s.inputs, Files.Pattern.isPattern path = false) :
    (compile engine t.reader s : List Progress × Except Failure (List Delivery)).2 = do
      let _ ← s.inputs.mapM (loadStage engine t s)
      let _ ← s.inputs.mapM (nameStage s)
      let emissions ← s.inputs.mapM (generationStage engine t s)
      return deliveries s emissions := by
  have expanded : Files.expandPaths (m := Id) t.reader s.inputs = .ok s.inputs :=
    expandPaths_of_plain t.reader plain
  rw [compile_of_expandPaths expanded, loadAll_reader]
  cases load : s.inputs.mapM (loadStage engine t s) with
  | error e => rfl
  | ok schemas =>
    have loaded := mapM_eq_ok_iff.mp load
    have paths := map_path_zipWith loaded
    have count : (List.zipWith Source.mk s.inputs schemas).length = s.inputs.length := by
      rw [← List.length_map, paths]
    dsimp only [Except.map]
    rw [count, nameAll_eq, paths]
    cases name : s.inputs.mapM (nameStage s) with
    | error e => rfl
    | ok names =>
      dsimp only [Except.map]
      rw [generateAll_snd loaded (mapM_eq_ok_iff.mp name)]
      cases s.inputs.mapM (generationStage engine t s) <;> rfl

/-! ### What comes of it -/

/-- Every input gets all the way through. -/
def Compiles (engine : Query.Engine) (t : FileTree) (s : Settings) (emissions : List Emission) :
    Prop :=
  List.Forall₂ (fun path e => generationStage engine t s path = .ok e) s.inputs emissions

/-- What stops a compilation: a pass has an error, and those in front of it have none. -/
inductive FirstFailure (engine : Query.Engine) (t : FileTree) (s : Settings) (e : Failure) : Prop
  | load (stop : StopsWith (loadStage engine t s) s.inputs e)
  | name (loaded : ∀ path ∈ s.inputs, ∃ schema, loadStage engine t s path = .ok schema)
      (stop : StopsWith (nameStage s) s.inputs e)
  | generation (loaded : ∀ path ∈ s.inputs, ∃ schema, loadStage engine t s path = .ok schema)
      (named : ∀ path ∈ s.inputs, ∃ name, nameStage s path = .ok name)
      (stop : StopsWith (generationStage engine t s) s.inputs e)

theorem Compiles.compile_eq_ok {emissions : List Emission} (h : Compiles engine t s emissions)
    (plain : ∀ path ∈ s.inputs, Files.Pattern.isPattern path = false) :
    (compile engine t.reader s : List Progress × Except Failure (List Delivery)).2 =
      .ok (deliveries s emissions) := by
  have generated := mapM_eq_ok_iff.mpr h
  have through := exists_mapM_eq_ok_iff.mp ⟨_, generated⟩
  simp only [generationStage_eq_ok_iff] at through
  obtain ⟨schemas, load⟩ := exists_mapM_eq_ok_iff.mpr fun path inside =>
    let ⟨_, schema, load, _⟩ := through path inside
    ⟨schema, load⟩
  obtain ⟨names, name⟩ := exists_mapM_eq_ok_iff.mpr fun path inside =>
    let ⟨_, _, _, name, named, _⟩ := through path inside
    ⟨name, named⟩
  rw [compile_snd engine t s plain, load, name, generated]
  rfl

theorem compile_eq_error (h : ¬∃ emissions, Compiles engine t s emissions)
    (plain : ∀ path ∈ s.inputs, Files.Pattern.isPattern path = false) :
    ∃ e, FirstFailure engine t s e ∧
      (compile engine t.reader s : List Progress × Except Failure (List Delivery)).2 =
        .error e := by
  rw [compile_snd engine t s plain]
  cases load : s.inputs.mapM (loadStage engine t s) with
  | error e => exact ⟨e, .load (stopsWith_of_mapM_eq_error load), rfl⟩
  | ok schemas =>
    have loaded := exists_mapM_eq_ok_iff.mp ⟨_, load⟩
    cases name : s.inputs.mapM (nameStage s) with
    | error e => exact ⟨e, .name loaded (stopsWith_of_mapM_eq_error name), rfl⟩
    | ok names =>
      have named := exists_mapM_eq_ok_iff.mp ⟨_, name⟩
      cases generation : s.inputs.mapM (generationStage engine t s) with
      | error e =>
        exact ⟨e, .generation loaded named (stopsWith_of_mapM_eq_error generation), rfl⟩
      | ok emissions => exact absurd ⟨emissions, mapM_eq_ok_iff.mp generation⟩ h

end InterfaceGen.Command
