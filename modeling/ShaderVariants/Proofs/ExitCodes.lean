import ShaderVariants.Proofs.InSync
import ShaderVariants.Proofs.Obstacles
import ShaderVariants.Proofs.ResolvedSettings

/-!
# Exit codes

What the exit code of the program says of the files that are left. The settings come first: a
fault in them is all that the log is told. A run that is refused before it writes leaves the
files as they were, and so does every check.
-/

namespace ShaderVariants

variable {read : SettingsReader} {t : FileTree} {w w' left : Workspace} {input outputDir : Path}
  {settings : Settings} {fileName : Text} {lines : List Text} {f : Failure}
  {o : CommandLine.Options} {refusal : CommandLine.Refusal} {code : Nat}

/-! ## Failures -/

theorem Failure.exitCode_bounds (f : Failure) : 2 ≤ f.exitCode ∧ f.exitCode ≤ 5 := by
  cases f <;> simp [exitCode]

/-- What keeps a source from giving files is a bad line or a fault of the shader. -/
theorem exitCode_le_of_mem_obstacles (h : f ∈ obstacles fileName lines) : f.exitCode ≤ 3 := by
  rcases List.mem_append.1 h with h | h
  · obtain ⟨marker, -, rfl⟩ := List.mem_map.1 h
    exact Nat.le_succ 2
  · obtain ⟨fault, -, rfl⟩ := List.mem_map.1 h
    exact Nat.le_refl 3

namespace Run

theorem exitCode_le_of_artifactsIn_eq_error (h : artifactsIn t input settings = .error f) :
    f.exitCode ≤ 4 := by
  rcases Except.eq_error_or_of_bind_eq_error h with hname | ⟨name, -, h⟩
  · rw [inputName] at hname
    split at hname
    · cases hname
    · obtain rfl := Except.error.inj hname
      exact Nat.le_refl 4
  · rcases Except.eq_error_or_of_bind_eq_error h with hread | ⟨source, -, hresult⟩
    · obtain ⟨cause, -, rfl⟩ := Except.exists_of_mapError_eq_error hread
      exact Nat.le_refl 4
    · rw [Artifacts.result_ofSource_eq_firstFault, firstFault_eq_error_iff] at hresult
      exact (exitCode_le_of_mem_obstacles (List.mem_of_mem_head? hresult)).trans (Nat.le_succ 3)

/-- Generating that fails has not begun to write, or fails with an operation on a path. -/
theorem generate_eq_error
    (h : w.run (generate input outputDir settings) = (.error f, w')) :
    f.exitCode ≤ 4 ∧ (f.exitCode = 4 ∨ w'.files = w.files) := by
  rcases generate_run h with ⟨g, herror, hf, hfiles⟩ | ⟨paths, artifacts, -, -, hwrite⟩
  · obtain rfl := Except.error.inj hf
    exact ⟨exitCode_le_of_artifactsIn_eq_error herror, .inr hfiles⟩
  · have hio : ∃ p cause, f = .io p cause := by
      rcases hwrite with ⟨cause, hf, -⟩ | ⟨w₁, s, -, hpublish, hf⟩
      · exact ⟨outputDir, cause, Except.error.inj hf⟩
      · cases s with
        | ok _ => exact absurd hf nofun
        | error g =>
          obtain rfl := Except.error.inj hf
          exact Publish.exists_io_of_publish_eq_error (congrArg Prod.fst hpublish)
    obtain ⟨p, cause, rfl⟩ := hio
    exact ⟨Nat.le_refl 4, .inl rfl⟩

end Run

namespace CommandLine

/-! ## What the program comes to -/

/-- The exit code for a result. -/
def exitCodeOf {α : Type} : Except Failure α → Nat
  | .ok _ => 0
  | .error f => f.exitCode

theorem exitCodeOf_le {α : Type} (r : Except Failure α) : exitCodeOf r ≤ 5 := by
  cases r with
  | ok a => exact Nat.zero_le 5
  | error f => exact f.exitCode_bounds.2

/-- How the program ends: its exit code and the workspace that it leaves. The settings are
    refused, or the input is checked, or its files are generated. -/
inductive Ends (read : SettingsReader) (o : Options) (w : Workspace) :
    Nat → Workspace → Prop
  | refused {refusal : Refusal} (hsettings : settingsReadBy read w.files o = .error refusal) :
      Ends read o w refusal.exitCode
        (w.reporting (settingsEvents read w.files o ++ [.failed refusal.message]))
  | checked {settings : Settings} {left : Workspace} (hcheck : o.check = true)
      (hsettings : settingsReadBy read w.files o = .ok settings) (hfiles : left.files = w.files) :
      Ends read o w (exitCodeOf (Run.checkIn w.files o.input o.outputDir settings)) left
  | generated {settings : Settings} {before after left : Workspace}
      {r : Except Failure OutputPaths} (hcheck : o.check = false)
      (hsettings : settingsReadBy read w.files o = .ok settings) (hbefore : before.files = w.files)
      (hrun : before.run (Run.generate o.input o.outputDir settings) = (r, after))
      (hafter : left.files = after.files) :
      Ends read o w (exitCodeOf r) left

/-- A run between two events of the log. -/
theorem run_announced {α : Type} (refuse : Failure → Refusal) (first : Event)
    (last : α → Event) (x : ExceptT Failure Session α) (w : Workspace) :
    (do
      liftM (Host.report first : Session Unit)
      let a ← refusing refuse x
      liftM (Host.report (last a) : Session Unit) : ExceptT Refusal Session Unit).run w =
      match (w.reporting [first]).run x with
      | (.ok a, w) => (.ok (), w.reporting [last a])
      | (.error f, w) => (.error (refuse f), w) := by
  have hfirst : (liftM (Host.report first : Session Unit) :
      ExceptT Refusal Session Unit).run w = (.ok (), w.reporting [first]) := rfl
  rw [Session.run_bind, hfirst]
  dsimp only
  rw [Session.run_bind, run_refusing]
  rcases (w.reporting [first]).run x with ⟨f | a, w⟩ <;> rfl

/-- The program finds the settings before it does anything else. -/
theorem ends_executeBy (read : SettingsReader) (o : Options) (w : Workspace) :
    Ends read o w ((executeBy read o : Session Nat) w).1
      ((executeBy read o : Session Nat) w).2 := by
  rw [executeBy, Session.bind_apply, performBy, Session.run_bind, run_resolveSettingsBy]
  cases hsettings : settingsReadBy read w.files o with
  | error refusal =>
    have hends := Ends.refused hsettings
    rw [← Workspace.reporting_reporting] at hends
    exact hends
  | ok settings =>
    dsimp only
    cases hcheck : o.check with
    | true =>
      rw [if_pos rfl, run_announced, Workspace.reporting_reporting]
      obtain ⟨hresult, hfiles⟩ := Run.reads_check o.input o.outputDir settings
        (w.reporting (settingsEvents read w.files o ++ [.checking o.input o.outputDir]))
      have hends (left : Workspace) (hleft : left.files = w.files) :=
        Ends.checked hcheck hsettings hleft
      -- The run starts with a longer log, but a check depends on the files alone.
      change _ = Run.checkIn w.files o.input o.outputDir settings at hresult
      rw [← hresult] at hends
      rcases hrun : Workspace.run _ _ with ⟨f | paths, after⟩ <;> rw [hrun] at hends hfiles
      · exact hends _ hfiles
      · exact hends _ hfiles
    | false =>
      rw [if_neg Bool.false_ne_true, run_announced, Workspace.reporting_reporting]
      rcases hrun : Workspace.run _ _ with ⟨f | paths, after⟩
      · refine .generated hcheck hsettings ?_ hrun rfl
        rfl
      · refine .generated hcheck hsettings ?_ hrun rfl
        rfl

namespace Ends

theorem code_le (h : Ends read o w code left) : code ≤ 5 := by
  cases h with
  | refused hsettings =>
    rcases exitCode_of_settingsReadBy_eq_error hsettings with hcode | hcode <;> omega
  | checked => exact exitCodeOf_le _
  | generated => exact exitCodeOf_le _

theorem files_of_check (h : Ends read o w code left) (hcheck : o.check = true) :
    left.files = w.files := by
  cases h with
  | refused => rfl
  | checked _ _ hfiles => exact hfiles
  | generated hcheck' => exact absurd (hcheck.symm.trans hcheck') nofun

theorem files_of_code (h : Ends read o w code left) (hcode : code ∈ [1, 2, 3, 5]) :
    left.files = w.files := by
  cases h with
  | refused => rfl
  | checked _ _ hfiles => exact hfiles
  | @generated settings before after _ r _ _ hbefore hrun hafter =>
    cases r with
    | ok paths =>
      rw [exitCodeOf] at hcode
      exact absurd hcode (by decide)
    | error f =>
      -- Only a failure with code 4 can come after the first write.
      obtain ⟨-, hwritten | hfiles⟩ := Run.generate_eq_error hrun
      · rw [exitCodeOf, hwritten] at hcode
        exact absurd hcode (by decide)
      · rw [hafter, hfiles, hbefore]

theorem check_of_code (h : Ends read o w code left) (hcode : code = 5) : o.check = true := by
  cases h with
  | refused hsettings =>
    rcases exitCode_of_settingsReadBy_eq_error hsettings with h | h <;> omega
  | checked hcheck => exact hcheck
  | @generated settings before after _ r _ _ _ hrun =>
    cases r with
    | ok paths => exact absurd hcode nofun
    | error f =>
      have hle := (Run.generate_eq_error hrun).1
      rw [exitCodeOf] at hcode
      omega

/-- Settings that are refused are all that the program tells of. -/
theorem of_refused (h : Ends read o w code left)
    (hsettings : settingsReadBy read w.files o = .error refusal) :
    code = refusal.exitCode ∧
      left = w.reporting (settingsEvents read w.files o ++ [.failed refusal.message]) := by
  cases h with
  | refused hsettings' =>
    obtain rfl := Except.error.inj (hsettings.symm.trans hsettings')
    exact ⟨rfl, rfl⟩
  | checked _ hsettings' => exact absurd (hsettings.symm.trans hsettings') nofun
  | generated _ hsettings' => exact absurd (hsettings.symm.trans hsettings') nofun

/-- Without a check the program ends with success only when both files are written. -/
theorem of_generated (h : Ends read o w 0 left) (hcheck : o.check = false) :
    ∃ settings name source artifacts, settingsReadBy read w.files o = .ok settings ∧
      inputName o.input = .ok name ∧ w.files.readText o.input = .ok source ∧
      (Artifacts.ofSource name source settings).result = .ok artifacts ∧
      left.files.readText (o.outputDir.join (.ofText (Header.fileName name))) =
        .ok artifacts.header ∧
      left.files.readText (o.outputDir.join (.ofText (Definition.fileName name))) =
        .ok artifacts.definition := by
  generalize hcode : 0 = code at h
  cases h with
  | refused hsettings =>
    rcases exitCode_of_settingsReadBy_eq_error hsettings with h | h <;> omega
  | checked hcheck' => exact absurd (hcheck'.symm.trans hcheck) nofun
  | @generated settings before after _ r _ hsettings hbefore hrun hafter =>
    cases r with
    | error f =>
      have hpos := f.exitCode_bounds.1
      rw [exitCodeOf] at hcode
      omega
    | ok paths =>
      obtain ⟨name, source, artifacts, D, hname, hsource, hresult, -, -, hgenerated⟩ :=
        Run.generate_eq_ok hrun
      rw [hbefore] at hsource
      rw [hafter]
      exact ⟨settings, name, source, artifacts, hsettings, hname, hsource, hresult,
        hgenerated.header, hgenerated.definition⟩

end Ends

/-- What an exit code says, whatever reads the settings file. There are no others than 0 to 5. A
    check changes no file, and a run that ends with 1, 2, 3 or 5 has changed none; only a check
    ends with 5. A fault of the settings is found before the input is looked at, and is all that
    the log is told. A run that ends with 0 and is no check leaves the two texts for the settings
    that were asked for. -/
theorem execute_exitCode (h : (executeBy read o : Session Nat) w = (code, left)) :
    code ≤ 5 ∧ (o.check = true → left.files = w.files) ∧
    (code ∈ [1, 2, 3, 5] → left.files = w.files) ∧ (code = 5 → o.check = true) ∧
    (∀ p f, o.settingsFile = some p → Run.settingsReadBy read w.files p = .error f →
      code = 4 ∧ left = w.reporting [.failed (Refusal.settings f).message]) ∧
    (∀ base path fault, baseSettings read w.files o = .ok base → o.namespacePath = some path →
      namespaceFault? path = some fault →
      code = 1 ∧ left = w.reporting
        (settingsEvents read w.files o ++ [.failed (Refusal.badNamespace fault).message])) ∧
    (code = 0 → o.check = false →
      ∃ base name source artifacts, baseSettings read w.files o = .ok base ∧
        inputName o.input = .ok name ∧ w.files.readText o.input = .ok source ∧
        (Artifacts.ofSource name source { base with
          namespacePath := o.namespacePath.getD base.namespacePath }).result = .ok artifacts ∧
        left.files.readText (o.outputDir.join (.ofText (Header.fileName name))) =
          .ok artifacts.header ∧
        left.files.readText (o.outputDir.join (.ofText (Definition.fileName name))) =
          .ok artifacts.definition) := by
  have hends : Ends read o w code left := by
    have hends := ends_executeBy read o w
    rw [h] at hends
    exact hends
  refine ⟨hends.code_le, hends.files_of_check, hends.files_of_code, hends.check_of_code,
    fun p f hfile hfault => ?_, fun base path fault hbase hpath hfault => ?_,
    fun hcode hcheck => ?_⟩
  · obtain ⟨hsettings, hevents⟩ := settingsReadBy_of_settingsFile_eq_error hfile hfault
    obtain ⟨rfl, rfl⟩ := hends.of_refused hsettings
    rw [hevents]
    exact ⟨Run.exitCode_of_settingsReadBy_eq_error hfault, rfl⟩
  · exact hends.of_refused (settingsReadBy_of_namespaceFault hbase hpath hfault)
  · subst hcode
    obtain ⟨settings, name, source, artifacts, hsettings, hname, hsource, hresult, hheader,
      hdefinition⟩ := hends.of_generated hcheck
    obtain ⟨base, hbase, rfl⟩ := settingsReadBy_eq_ok hsettings
    exact ⟨base, name, source, artifacts, hbase, hname, hsource, hresult, hheader, hdefinition⟩

/-- The arguments for the one input of `Run.plainWorkspace`. -/
def plainOptions : Options := { input := ⟨"s"⟩, outputDir := ⟨"out"⟩ }

/-- There the files are generated; a namespace that is none, a settings file that is missing and
    a check before there are files end with codes of their own and leave the files alone. -/
theorem execute_exitCode_plain :
    ∃ generated refused unread stale, ∃ artifacts : Artifacts,
      (execute { plainOptions with namespacePath := some "a" } : Session Nat) Run.plainWorkspace =
        (0, generated) ∧
      generated.files.readText ⟨"out/s.h"⟩ = .ok artifacts.header ∧
      generated.files.readText ⟨"out/s.cpp"⟩ = .ok artifacts.definition ∧
      (execute { plainOptions with namespacePath := some "1" } : Session Nat) Run.plainWorkspace =
        (1, refused) ∧ refused.files = Run.plainWorkspace.files ∧
      (execute { plainOptions with settingsFile := some ⟨"t"⟩ } : Session Nat) Run.plainWorkspace =
        (4, unread) ∧
      unread.log = [.failed (Refusal.settings (.io ⟨"t"⟩ .notFound)).message] ∧
      (execute { plainOptions with check := true } : Session Nat) Run.plainWorkspace =
        (5, stale) ∧ stale.files = Run.plainWorkspace.files := by
  have hrun (o : Options) (code : Nat)
      (h : ((execute o : Session Nat) Run.plainWorkspace).1 = code) :
      (execute o : Session Nat) Run.plainWorkspace =
        (code, ((execute o : Session Nat) Run.plainWorkspace).2) := Prod.ext h rfl
  have hgenerated := hrun { plainOptions with namespacePath := some "a" } 0 (by decide +kernel)
  have hrefused := hrun { plainOptions with namespacePath := some "1" } 1 (by decide +kernel)
  have hunread := hrun { plainOptions with settingsFile := some ⟨"t"⟩ } 4 (by decide +kernel)
  have hstale := hrun { plainOptions with check := true } 5 (by decide +kernel)
  obtain ⟨-, -, -, -, -, -, htexts⟩ := execute_exitCode hgenerated
  obtain ⟨base, name, source, artifacts, -, hname, -, -, hheader, hdefinition⟩ := htexts rfl rfl
  have hinput : inputName plainOptions.input = .ok "s" := by decide +kernel
  have hheaderPath : plainOptions.outputDir.join (.ofText (Header.fileName "s")) = ⟨"out/s.h"⟩ := by
    decide +kernel
  have hdefinitionPath :
      plainOptions.outputDir.join (.ofText (Definition.fileName "s")) = ⟨"out/s.cpp"⟩ := by
    decide +kernel
  obtain rfl := Except.ok.inj (hinput.symm.trans hname)
  obtain ⟨-, -, -, -, hfault, -, -⟩ := execute_exitCode hunread
  obtain ⟨-, hlog⟩ := hfault ⟨"t"⟩ (.io ⟨"t"⟩ .notFound) rfl (by decide +kernel)
  exact ⟨_, _, _, _, artifacts, hgenerated, hheaderPath ▸ hheader,
    hdefinitionPath ▸ hdefinition, hrefused,
    (execute_exitCode hrefused).2.2.1 (by decide), hunread, congrArg Workspace.log hlog, hstale,
    (execute_exitCode hstale).2.1 rfl⟩

end CommandLine

end ShaderVariants
