import ShaderVariants.CommandLine.Execution
import ShaderVariants.Proofs.Generating

/-!
# Resolved settings

The settings of a run are known from the arguments and the files before anything is done with
the input. They are those of the settings file, or the default ones without a file, with the
namespace of the arguments over them. Finding them leaves the files as they are.
-/

namespace ShaderVariants

variable {read : SettingsReader} {o : CommandLine.Options} {w : Workspace} {t : FileTree}
  {p : Path} {base settings : Settings} {f : Failure} {refusal : CommandLine.Refusal}

/-- The workspace with more events in its log. -/
def Workspace.reporting (w : Workspace) (events : List Event) : Workspace :=
  { w with log := w.log ++ events }

namespace Workspace

@[simp] theorem reporting_nil (w : Workspace) : w.reporting [] = w := by
  rw [reporting, List.append_nil]

theorem reporting_reporting (w : Workspace) (events events' : List Event) :
    (w.reporting events).reporting events' = w.reporting (events ++ events') := by
  rw [reporting, reporting, reporting, List.append_assoc]

end Workspace

namespace Run

/-- The settings in a file, where `read` reads its text. -/
def settingsReadBy (read : SettingsReader) (t : FileTree) (p : Path) : Except Failure Settings := do
  let text ← (t.readText p).mapError (.io p)
  ((read text).bind Settings.checked).mapError (.settings p)

theorem run_loadSettingsBy (read : SettingsReader) (p : Path) (w : Workspace) :
    w.run (loadSettingsBy read p) = match settingsReadBy read w.files p with
      | .ok settings => (.ok settings, w.reporting [.loadedSettings p settings])
      | .error f => (.error f, w) := by
  have hread : w.run (Host.onPath p (Host.readText p : Session (Except IoCause Text))) =
      ((w.files.readText p).mapError (.io p), w) := rfl
  rw [loadSettingsBy, run_bind, hread, settingsReadBy]
  cases w.files.readText p with
  | error cause => rfl
  | ok text =>
    change w.run (Host.settle
        (((read text).bind Settings.checked).mapError (Failure.settings p)) >>= _) =
      match ((read text).bind Settings.checked).mapError (Failure.settings p) with
      | .ok settings => _
      | .error f => _
    rw [run_bind]
    cases (read text).bind Settings.checked <;> rfl

/-- A fault of a settings file has an exit code of its own. -/
theorem exitCode_of_settingsReadBy_eq_error (h : settingsReadBy read t p = .error f) :
    f.exitCode = 4 := by
  rcases Except.eq_error_or_of_bind_eq_error h with hread | ⟨text, -, hsettings⟩
  · obtain ⟨cause, -, rfl⟩ := Except.exists_of_mapError_eq_error hread
    rfl
  · obtain ⟨fault, -, rfl⟩ := Except.exists_of_mapError_eq_error hsettings
    rfl

end Run

namespace CommandLine

/-- The settings below the namespace of the arguments: those of the settings file, or the default
    ones without a file. -/
def baseSettings (read : SettingsReader) (t : FileTree) (o : Options) : Except Failure Settings :=
  match o.settingsFile with
  | some p => Run.settingsReadBy read t p
  | none => .ok {}

/-- The settings that the arguments ask for, or why there are none, where `read` reads the text of
    the settings file. -/
def settingsReadBy (read : SettingsReader) (t : FileTree) (o : Options) :
    Except Refusal Settings := do
  let base ← (baseSettings read t o).mapError .settings
  withNamespace base o.namespacePath

/-- What finding the settings tells the log. -/
def settingsEvents (read : SettingsReader) (t : FileTree) (o : Options) : List Event :=
  match o.settingsFile, baseSettings read t o with
  | some p, .ok base => [.loadedSettings p base]
  | _, _ => []

theorem run_refusing {α : Type} (refuse : Failure → Refusal) (x : ExceptT Failure Session α)
    (w : Workspace) :
    (refusing refuse x).run w = ((w.run x).1.mapError refuse, (w.run x).2) := rfl

/-- Finding the settings changes nothing but the log. -/
theorem run_resolveSettingsBy (read : SettingsReader) (o : Options) (w : Workspace) :
    (resolveSettingsBy read o : ExceptT Refusal Session Settings).run w =
      (settingsReadBy read w.files o, w.reporting (settingsEvents read w.files o)) := by
  rw [resolveSettingsBy, settingsReadBy, settingsEvents, baseSettings]
  cases o.settingsFile with
  | none =>
    rw [Session.run_bind, Workspace.reporting_nil]
    rfl
  | some p =>
    dsimp only
    rw [Session.run_bind, run_refusing, Run.run_loadSettingsBy]
    cases Run.settingsReadBy read w.files p with
    | error f =>
      rw [Workspace.reporting_nil]
      rfl
    | ok base => rfl

/-! ## Faults of the settings -/

theorem settingsReadBy_of_settingsFile_eq_error (hfile : o.settingsFile = some p)
    (h : Run.settingsReadBy read t p = .error f) :
    settingsReadBy read t o = .error (.settings f) ∧ settingsEvents read t o = [] := by
  have hbase : baseSettings read t o = .error f := by
    rw [baseSettings, hfile]
    exact h
  rw [settingsReadBy, settingsEvents, hbase, hfile]
  exact ⟨rfl, rfl⟩

theorem settingsReadBy_of_namespaceFault (hbase : baseSettings read t o = .ok base) {path : Text}
    (hpath : o.namespacePath = some path) {fault : NamespaceFault}
    (hfault : namespaceFault? path = some fault) :
    settingsReadBy read t o = .error (.badNamespace fault) := by
  rw [settingsReadBy, hbase, hpath]
  change withNamespace base (some path) = _
  rw [withNamespace, hfault]

theorem exitCode_of_settingsReadBy_eq_error (h : settingsReadBy read t o = .error refusal) :
    refusal.exitCode = 1 ∨ refusal.exitCode = 4 := by
  rcases Except.eq_error_or_of_bind_eq_error h with hbase | ⟨base, -, hnamespace⟩
  · obtain ⟨f, hfault, rfl⟩ := Except.exists_of_mapError_eq_error hbase
    rw [baseSettings] at hfault
    split at hfault
    · exact .inr (Run.exitCode_of_settingsReadBy_eq_error hfault)
    · cases hfault
  · rw [withNamespace.eq_def] at hnamespace
    split at hnamespace
    · cases hnamespace
    · split at hnamespace
      · obtain rfl := Except.error.inj hnamespace
        exact .inl rfl
      · cases hnamespace

/-- The namespace of the arguments is over that of the settings file. -/
theorem settingsReadBy_eq_ok (h : settingsReadBy read t o = .ok settings) :
    ∃ base, baseSettings read t o = .ok base ∧
      settings = { base with namespacePath := o.namespacePath.getD base.namespacePath } := by
  rw [settingsReadBy] at h
  cases hbase : baseSettings read t o with
  | error f =>
    rw [hbase] at h
    cases h
  | ok base =>
    rw [hbase] at h
    change withNamespace base o.namespacePath = .ok settings at h
    refine ⟨base, rfl, ?_⟩
    cases hpath : o.namespacePath with
    | none =>
      rw [hpath] at h
      exact (Except.ok.inj h).symm
    | some path =>
      rw [hpath, withNamespace] at h
      split at h
      · cases h
      · exact (Except.ok.inj h).symm

end CommandLine

end ShaderVariants
