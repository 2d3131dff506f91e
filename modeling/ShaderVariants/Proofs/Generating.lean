import ShaderVariants.Proofs.MadeDirectories
import ShaderVariants.Proofs.Publishing
import ShaderVariants.Run

/-!
# Generating and checking

A check reads the files alone, and so does generating until both texts are there. What it then
writes is in sync with what a check computes.
-/

namespace ShaderVariants

theorem Session.run_bind {ε α β : Type} (x : ExceptT ε Session α) (f : α → ExceptT ε Session β)
    (w : Workspace) : (x >>= f).run w = match x.run w with
      | (.ok a, w) => (f a).run w
      | (.error e, w) => (.error e, w) := by
  change (x.run >>= ExceptT.bindCont f) w = _
  rw [Session.bind_apply]
  rcases x.run w with ⟨e | a, w⟩ <;> rfl

/-- What a run comes to on a workspace. -/
def Workspace.run {α : Type} (w : Workspace) (x : ExceptT Failure Session α) :
    Except Failure α × Workspace := x.run w

namespace Run

open FileTree

variable {α β : Type} {t u : FileTree} {w w' : Workspace} {input outputDir p : Path}
  {settings : Settings} {paths : OutputPaths} {artifacts : Artifacts} {name : Text} {f : Failure}

/-! ## Runs that read -/

theorem run_bind (x : ExceptT Failure Session α) (f : α → ExceptT Failure Session β)
    (w : Workspace) : w.run (x >>= f) = match w.run x with
      | (.ok a, w) => w.run (f a)
      | (.error e, w) => (.error e, w) := by
  rw [Workspace.run, Workspace.run, Session.run_bind]
  rcases x.run w with ⟨e | a, w⟩ <;> rfl

/-- The run has a result that the files determine, and leaves them as they are. -/
def Reads (x : ExceptT Failure Session α) (g : FileTree → Except Failure α) : Prop :=
  ∀ w : Workspace, (w.run x).1 = g w.files ∧ (w.run x).2.files = w.files

namespace Reads

variable {x : ExceptT Failure Session α} {f : α → ExceptT Failure Session β}
  {g : FileTree → Except Failure α} {h : α → FileTree → Except Failure β}

theorem bind (hx : Reads x g) (hf : ∀ a, Reads (f a) (h a)) :
    Reads (x >>= f) fun t => (g t).bind fun a => h a t := by
  intro w
  obtain ⟨hresult, hfiles⟩ := hx w
  dsimp only
  rw [run_bind, ← hresult, ← hfiles]
  rcases w.run x with ⟨e | a, w'⟩
  · exact ⟨rfl, rfl⟩
  · exact hf a w'

theorem settle (r : Except Failure α) : Reads (Host.settle r) fun _ => r := fun _ => ⟨rfl, rfl⟩

theorem report (e : Event) : Reads (liftM (Host.report e : Session Unit)) fun _ => .ok () :=
  fun _ => ⟨rfl, rfl⟩

theorem readText (p : Path) :
    Reads (liftM (Host.readText p : Session (Except IoCause Text))) fun t => .ok (t.readText p) :=
  fun _ => ⟨rfl, rfl⟩

theorem onPath_readText (p : Path) :
    Reads (Host.onPath p (Host.readText p : Session (Except IoCause Text)))
      fun t => (t.readText p).mapError (.io p) :=
  fun _ => ⟨rfl, rfl⟩

theorem reportAll (events : List Event) :
    Reads (liftM (Host.reportAll events : Session Unit)) fun _ => .ok () := by
  intro w
  refine ⟨rfl, ?_⟩
  change ((Host.reportAll events : Session Unit) w).2.files = w.files
  induction events generalizing w with
  | nil => rfl
  | cons e events ih =>
    change ((Host.report e >>= fun _ => Host.reportAll events : Session Unit) w).2.files = w.files
    rw [Session.bind_apply]
    exact ih _

theorem follow (o : Outcome Failure α) : Reads (Host.follow o) fun _ => o.result :=
  (reportAll o.events).bind fun _ => settle o.result

end Reads

/-! ## What an input gives -/

/-- The files that an input gives, or the failure that keeps it from giving any. -/
def artifactsIn (t : FileTree) (input : Path) (settings : Settings) : Except Failure Artifacts := do
  let name ← inputName input
  let source ← (t.readText input).mapError (.io input)
  (Artifacts.ofSource name source settings).result

theorem reads_build (input : Path) (settings : Settings) :
    Reads (build input settings) fun t => artifactsIn t input settings := by
  have := (Reads.settle (inputName input)).bind fun name =>
    (Reads.onPath_readText input).bind fun source =>
      (Reads.follow (Artifacts.ofSource name source settings)).bind fun artifacts =>
        (Reads.reportAll artifacts.shader.summaryEvents).bind fun _ => .settle (.ok artifacts)
  refine fun w => ⟨(this w).1.trans ?_, (this w).2⟩
  change _ = artifactsIn w.files input settings
  rw [artifactsIn]
  dsimp only
  cases inputName input with
  | error f => rfl
  | ok name =>
    cases (w.files.readText input).mapError (Failure.io input) with
    | error f => rfl
    | ok source =>
      change (Artifacts.ofSource name source settings).result.bind (fun a => .ok a) =
        (Artifacts.ofSource name source settings).result
      cases (Artifacts.ofSource name source settings).result <;> rfl

/-! ## Checking -/

/-- What reading a file says of whether it is stale. -/
def staleness (p : Path) (fresh : Text) : Except IoCause Text → Except Failure Bool
  | .ok existing => .ok (existing != fresh)
  | .error .notFound => .ok true
  | .error cause => .error (.io p cause)

/-- The result of a check. -/
def checkIn (t : FileTree) (input outputDir : Path) (settings : Settings) :
    Except Failure OutputPaths := do
  let paths ← OutputPaths.ofInput input outputDir
  let artifacts ← artifactsIn t input settings
  let headerStale ← staleness paths.header artifacts.header (t.readText paths.header)
  let definitionStale ←
    staleness paths.definition artifacts.definition (t.readText paths.definition)
  let stale := (if headerStale then [paths.header] else []) ++
    if definitionStale then [paths.definition] else []
  if stale = [] then .ok paths else .error (.outOfSync stale)

theorem reads_isStale (p : Path) (fresh : Text) :
    Reads (isStale p fresh) fun t => staleness p fresh (t.readText p) := by
  refine Reads.bind (h := fun r _ => staleness p fresh r) (Reads.readText p) fun r => ?_
  have report (e : Event) (b : Bool) :
      Reads (do liftM (Host.report e : Session Unit); pure b) fun _ => .ok b :=
    (Reads.report e).bind fun _ => .settle (.ok b)
  rcases r with cause | existing
  · cases cause <;> first | exact report _ true | exact .settle _
  · dsimp only [staleness]
    by_cases heq : existing = fresh
    · rw [if_pos heq, bne_eq_false_iff_eq.2 heq]
      exact report _ false
    · rw [if_neg heq, bne_iff_ne.2 heq]
      exact report _ true

theorem reads_check (input outputDir : Path) (settings : Settings) :
    Reads (check input outputDir settings) fun t => checkIn t input outputDir settings := by
  refine (Reads.settle (OutputPaths.ofInput input outputDir)).bind fun paths =>
    (reads_build input settings).bind fun artifacts =>
      (reads_isStale paths.header artifacts.header).bind fun headerStale =>
        (reads_isStale paths.definition artifacts.definition).bind fun definitionStale => ?_
  cases headerStale <;> cases definitionStale <;> exact .settle _

theorem staleness_eq_false_iff {fresh : Text} {r : Except IoCause Text} :
    staleness p fresh r = .ok false ↔ r = .ok fresh := by
  rcases r with cause | existing
  · cases cause <;> simp [staleness]
  · simp [staleness]

theorem ofInput_eq_ok_iff : OutputPaths.ofInput input outputDir = .ok paths ↔
    ∃ name, inputName input = .ok name ∧ paths = OutputPaths.ofName name outputDir := by
  rw [OutputPaths.ofInput]
  cases inputName input <;> simp [Except.map, eq_comm]

/-- A check succeeds when the input gives files and both are there. -/
theorem checkIn_eq_ok_iff : checkIn t input outputDir settings = .ok paths ↔
    OutputPaths.ofInput input outputDir = .ok paths ∧ ∃ artifacts,
      artifactsIn t input settings = .ok artifacts ∧
      t.readText paths.header = .ok artifacts.header ∧
      t.readText paths.definition = .ok artifacts.definition := by
  constructor
  · intro h
    obtain ⟨paths', hpaths, h⟩ := Except.exists_of_bind_eq_ok h
    obtain ⟨artifacts, hartifacts, h⟩ := Except.exists_of_bind_eq_ok h
    obtain ⟨headerStale, hheader, h⟩ := Except.exists_of_bind_eq_ok h
    obtain ⟨definitionStale, hdefinition, h⟩ := Except.exists_of_bind_eq_ok h
    cases headerStale <;> cases definitionStale <;> simp at h
    subst h
    exact ⟨hpaths, artifacts, hartifacts, staleness_eq_false_iff.1 hheader,
      staleness_eq_false_iff.1 hdefinition⟩
  · rintro ⟨hpaths, artifacts, hartifacts, hheader, hdefinition⟩
    simp only [checkIn, hpaths, hartifacts, bind, Except.bind,
      staleness_eq_false_iff.2 hheader, staleness_eq_false_iff.2 hdefinition]
    rfl

/-! ## Generating -/

/-- What is written for an input. -/
def outputs (paths : OutputPaths) (artifacts : Artifacts) : List Output :=
  [⟨paths.header, artifacts.header⟩, ⟨paths.definition, artifacts.definition⟩]

/-- Once the texts are there, generating fails to make directories or publishes. -/
theorem write_run {outputs : List Output} {r : Except Failure OutputPaths}
    (h : w.run (do
      Host.onPath outputDir (Host.makeDirectories outputDir)
      ExceptT.mk (Publish.publish outputs)
      pure paths) = (r, w')) :
    (∃ cause, r = .error (.io outputDir cause) ∧ Grown w.files outputDir w'.files) ∨
      ∃ w₁ s, Grown w.files outputDir w₁.files ∧
        (Publish.publish outputs : Session _) w₁ = (s, w') ∧ r = s.map fun _ => paths := by
  obtain ⟨hgrown, -⟩ := Session.GrowsAlong.makeDirectories outputDir w
  have hmake : w.run (Host.onPath outputDir (Host.makeDirectories outputDir)) =
      (((Host.makeDirectories outputDir : Session _) w).1.mapError (.io outputDir),
        ((Host.makeDirectories outputDir : Session _) w).2) := rfl
  rw [run_bind, hmake] at h
  rcases hrun : (Host.makeDirectories outputDir : Session _) w with ⟨cause | _, w₁⟩ <;>
    rw [hrun] at h hgrown
  · obtain ⟨rfl, rfl⟩ := Prod.mk.inj h
    exact .inl ⟨cause, rfl, hgrown⟩
  · refine .inr ⟨w₁, ((Publish.publish outputs : Session _) w₁).1, hgrown, ?_⟩
    change w₁.run (ExceptT.mk (Publish.publish outputs) >>= fun _ => pure paths) = _ at h
    have hmk : w₁.run (ExceptT.mk (Publish.publish outputs)) =
        (Publish.publish outputs : Session _) w₁ := rfl
    rw [run_bind, hmk] at h
    rcases hpublish : (Publish.publish outputs : Session _) w₁ with ⟨f | _, w₂⟩ <;>
      rw [hpublish] at h <;> obtain ⟨rfl, rfl⟩ := Prod.mk.inj h <;> exact ⟨rfl, rfl⟩

theorem write_eq_ok {outputs : List Output} {w₁ : Workspace} (paths : OutputPaths)
    (hmake : (Host.makeDirectories outputDir : Session _) w = (.ok (), w₁))
    (hpublish : (Publish.publish outputs : Session _) w₁ = (.ok (), w')) :
    w.run (do
      Host.onPath outputDir (Host.makeDirectories outputDir)
      ExceptT.mk (Publish.publish outputs)
      pure paths) = (.ok paths, w') := by
  have hdirectories : w.run (Host.onPath outputDir (Host.makeDirectories outputDir)) =
      (.ok (), w₁) := by
    change (((Host.makeDirectories outputDir : Session _) w).1.mapError (Failure.io outputDir),
      ((Host.makeDirectories outputDir : Session _) w).2) = _
    rw [hmake]
    rfl
  have hfiles : w₁.run (ExceptT.mk (Publish.publish outputs)) = (.ok (), w') := hpublish
  rw [run_bind, hdirectories]
  dsimp only
  rw [run_bind, hfiles]
  rfl

/-- Generating fails before anything is made or written, or goes on to write. -/
theorem generate_cases {r : Except Failure OutputPaths}
    (h : w.run (generate input outputDir settings) = (r, w')) :
    (∃ f, artifactsIn w.files input settings = .error f ∧ r = .error f ∧ w'.files = w.files) ∨
    ∃ (paths : OutputPaths) (artifacts : Artifacts) (w₁ : Workspace),
      OutputPaths.ofInput input outputDir = .ok paths ∧
      artifactsIn w.files input settings = .ok artifacts ∧ w₁.files = w.files ∧
      w₁.run (do
        Host.onPath outputDir (Host.makeDirectories outputDir)
        ExceptT.mk (Publish.publish (outputs paths artifacts))
        pure paths) = (r, w') := by
  rw [generate, run_bind] at h
  cases hname : inputName input with
  | error f =>
    have hpaths : OutputPaths.ofInput input outputDir = .error f := by
      rw [OutputPaths.ofInput, hname]
      rfl
    rw [hpaths] at h
    obtain ⟨rfl, rfl⟩ := Prod.mk.inj h
    refine .inl ⟨f, ?_, rfl, rfl⟩
    rw [artifactsIn, hname]
    rfl
  | ok name =>
    have hpaths : OutputPaths.ofInput input outputDir = .ok (OutputPaths.ofName name outputDir) :=
      ofInput_eq_ok_iff.2 ⟨name, hname, rfl⟩
    rw [hpaths] at h
    generalize OutputPaths.ofName name outputDir = paths at h hpaths
    change w.run (build input settings >>= _) = _ at h
    obtain ⟨hresult, hfiles⟩ := reads_build input settings w
    rw [run_bind] at h
    rcases hbuild : w.run (build input settings) with
      ⟨f | artifacts, w₁⟩ <;> rw [hbuild] at h hresult hfiles
    · obtain ⟨rfl, rfl⟩ := Prod.mk.inj h
      exact .inl ⟨f, hresult.symm, rfl, hfiles⟩
    · exact .inr ⟨paths, artifacts, w₁, hpaths, hresult.symm, hfiles, h⟩

/-- Generating fails before anything is made or written, makes directories, or publishes. -/
theorem generate_run {r : Except Failure OutputPaths}
    (h : w.run (generate input outputDir settings) = (r, w')) :
    (∃ f, artifactsIn w.files input settings = .error f ∧ r = .error f ∧ w'.files = w.files) ∨
    ∃ paths artifacts, OutputPaths.ofInput input outputDir = .ok paths ∧
      artifactsIn w.files input settings = .ok artifacts ∧
      ((∃ cause, r = .error (.io outputDir cause) ∧ Grown w.files outputDir w'.files) ∨
        ∃ w₁ s, Grown w.files outputDir w₁.files ∧
          (Publish.publish (outputs paths artifacts) : Session _) w₁ = (s, w') ∧
          r = s.map fun _ => paths) := by
  rcases generate_cases h with herror | ⟨paths, artifacts, w₁, hpaths, hartifacts, hfiles, hwrite⟩
  · exact .inl herror
  · rw [← hfiles] at hartifacts ⊢
    exact .inr ⟨paths, artifacts, hpaths, hartifacts, write_run hwrite⟩

end Run

end ShaderVariants
