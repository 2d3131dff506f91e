import ShaderVariants.Artifacts
import ShaderVariants.OutputPaths
import ShaderVariants.Publish

/-!
# Runs

A run generates the two files of a shader, or checks that they are what
generating would write. A check changes nothing, and generating begins to write
only when both texts are there.
-/

namespace ShaderVariants.Run

variable {m : Type → Type} [Monad m] [Host m]

/-- Reads settings from a file, where `read` reads its text. -/
def loadSettingsBy (read : SettingsReader) (p : Path) : ExceptT Failure m Settings := do
  let text ← Host.onPath p (Host.readText p)
  let settings ← Host.settle (((read text).bind Settings.checked).mapError (.settings p))
  Host.report (m := m) (.loadedSettings p settings)
  pure settings

/-- Reads settings from a file. -/
def loadSettings (p : Path) : ExceptT Failure m Settings := loadSettingsBy Settings.unchecked p

/-- The files that an input gives. -/
def build (input : Path) (settings : Settings) : ExceptT Failure m Artifacts := do
  let name ← Host.settle (inputName input)
  let source ← Host.onPath input (Host.readText input)
  let artifacts ← Host.follow (Artifacts.ofSource name source settings)
  Host.reportAll (m := m) artifacts.shader.summaryEvents
  pure artifacts

/-- Generates the files of an input into a directory. -/
def generate (input outputDir : Path) (settings : Settings) : ExceptT Failure m OutputPaths := do
  let paths ← Host.settle (OutputPaths.ofInput input outputDir)
  let artifacts ← build input settings
  Host.onPath outputDir (Host.makeDirectories outputDir)
  ExceptT.mk (Publish.publish
    [⟨paths.header, artifacts.header⟩, ⟨paths.definition, artifacts.definition⟩])
  pure paths

/-- Compares a file with what it should hold: whether it is stale. -/
def isStale (p : Path) (fresh : Text) : ExceptT Failure m Bool := do
  match ← (Host.readText p : m _) with
  | .ok existing =>
    if existing = fresh then
      Host.report (m := m) (.inSync p)
      pure false
    else
      Host.report (m := m) (.outOfSync p)
      pure true
  | .error .notFound =>
    Host.report (m := m) (.missing p)
    pure true
  | .error cause => throw (.io p cause)

/-- Checks the files of an input in a directory. -/
def check (input outputDir : Path) (settings : Settings) : ExceptT Failure m OutputPaths := do
  let paths ← Host.settle (OutputPaths.ofInput input outputDir)
  let artifacts ← build input settings
  let headerStale ← isStale paths.header artifacts.header
  let definitionStale ← isStale paths.definition artifacts.definition
  let stale := (if headerStale then [paths.header] else []) ++
    if definitionStale then [paths.definition] else []
  if stale = [] then pure paths else throw (.outOfSync stale)

end ShaderVariants.Run
