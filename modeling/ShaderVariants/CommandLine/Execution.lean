import ShaderVariants.CommandLine.Options
import ShaderVariants.Run
import ShaderVariants.Text.Terminal

/-!
# Execution

What the program does with its arguments: the settings come first, from the
settings file and then from the arguments, then the run, and the log has the
first failure of either.
-/

namespace ShaderVariants.CommandLine

/-- Why the program ends without success. -/
inductive Refusal where
  /-- The namespace among the arguments is none that C++ accepts. -/
  | badNamespace (fault : NamespaceFault)
  | settings (f : Failure)
  | generating (input : Path) (f : Failure)
  | checking (input : Path) (f : Failure)
deriving DecidableEq, Repr

/-- The exit code of a usage fault. -/
def usageCode : Nat := 1

/-- The exit code of arguments that ask for no run. -/
def Stop.exitCode : Stop → Nat
  | help | version => 0
  | usageFault => usageCode

/-- What the program writes when it is asked for its version. -/
def versionText : Text := "shader-gen 0.1.0\n"

/-- The failure in the log, with the cause of a failed operation named once more. -/
def failureReport : Failure → Text
  | .io path cause => (Failure.io path cause).message ++ ": " ++ cause.message
  | .settings path fault => Failure.aboutSettings path ++ fault.brief
  | f => f.message

namespace Refusal

/-- The wording of the refusal. -/
def message : Refusal → Text
  | badNamespace fault => "Invalid --namespace: " ++ fault.message
  | settings f => failureReport f
  | generating input f => "Failed to generate from " ++ input.text ++ ": " ++ failureReport f
  | checking input f => "Check failed for " ++ input.text ++ ": " ++ failureReport f

def exitCode : Refusal → Nat
  | badNamespace _ => usageCode
  | settings f | generating _ f | checking _ f => f.exitCode

end Refusal

/-- The settings with the namespace of the arguments. -/
def withNamespace (s : Settings) : Option Text → Except Refusal Settings
  | none => .ok s
  | some path =>
    match namespaceFault? path with
    | some fault => .error (.badNamespace fault)
    | none => .ok { s with namespacePath := path }

section

variable {m : Type → Type} [Monad m] [Host m]

/-- A run whose failure is a refusal. -/
def refusing {α : Type} (refuse : Failure → Refusal) (run : ExceptT Failure m α) :
    ExceptT Refusal m α :=
  ExceptT.mk do return (← run.run).mapError refuse

/-- The settings that the arguments ask for, where `read` reads the settings file. -/
def resolveSettingsBy (read : SettingsReader) (o : Options) : ExceptT Refusal m Settings := do
  let settings ← match o.settingsFile with
    | some p => refusing .settings (Run.loadSettingsBy read p)
    | none => pure {}
  ExceptT.mk (pure (withNamespace settings o.namespacePath))

/-- The settings that the arguments ask for. -/
def resolveSettings (o : Options) : ExceptT Refusal m Settings :=
  resolveSettingsBy Settings.unchecked o

/-- Does what the arguments ask for. -/
def performBy (read : SettingsReader) (o : Options) : ExceptT Refusal m Unit := do
  let settings ← resolveSettingsBy read o
  if o.check then
    Host.report (m := m) (.checking o.input o.outputDir)
    let _ ← refusing (.checking o.input) (Run.check o.input o.outputDir settings)
    Host.report (m := m) .allInSync
  else
    Host.report (m := m) (.generating o.input)
    let paths ← refusing (.generating o.input) (Run.generate o.input o.outputDir settings)
    Host.report (m := m) (.wrote paths.header paths.definition)

/-- Does what the arguments ask for, tells the log a refusal, and gives the exit code. -/
def executeBy (read : SettingsReader) (o : Options) : m Nat := do
  match ← (performBy read o).run with
  | .ok () => pure 0
  | .error refusal =>
    Host.report (.failed refusal.message)
    pure refusal.exitCode

/-- The program after its arguments are parsed. -/
def execute (o : Options) : m Nat := executeBy Settings.unchecked o

end

/-- A line of the log, as a terminal shows it. -/
def logLine (e : Event) : Text := e.message.terminalLine

end ShaderVariants.CommandLine
