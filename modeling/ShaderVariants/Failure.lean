import ShaderVariants.IoCause
import ShaderVariants.SettingsFile
import ShaderVariants.VariantShader

/-!
# Failures

Everything that a run can fail with, its wording and its exit code.
-/

namespace ShaderVariants

inductive Failure where
  /-- The source has a marker for an unsupported stage. -/
  | badMarker (marker : BadMarker)
  | shader (fault : ShaderFault)
  | io (path : Path) (cause : IoCause)
  | settings (path : Path) (fault : SettingsFault)
  /-- Output files are not what generating would write. -/
  | outOfSync (paths : List Path)
deriving DecidableEq, Repr

namespace Failure

/-- The start of what is said of a settings file. -/
def aboutSettings (path : Path) : Text := "Invalid config " ++ path.text ++ ": "

/-- The wording of the failure. -/
def message : Failure → Text
  | badMarker marker => marker.message
  | shader fault => fault.message
  | io path cause => "I/O error on " ++ path.text ++ ": " ++ cause.message
  | settings path fault => aboutSettings path ++ fault.message
  | outOfSync paths =>
    "Generated files out of sync: " ++ [',', ' '].intercalate (paths.map Path.text)

/-- The exit code of a run that fails so. -/
def exitCode : Failure → Nat
  | badMarker _ => 2
  | shader _ => 3
  | io .. | settings .. => 4
  | outOfSync _ => 5

end Failure

end ShaderVariants
