import ShaderVariants.Definition
import ShaderVariants.Failure

/-!
# Artifacts

From the text of a combined shader to the texts of its two C++ files.
-/

namespace ShaderVariants

/-- The shader that a capture gives under a file name. -/
def VariantShader.build (fileName : Text) (c : Capture) : Outcome Failure VariantShader :=
  match VariantShader.ofCapture fileName c with
  | .ok s => ⟨s.bindingEvents, .ok s⟩
  | .error fault => ⟨[], .error (.shader fault)⟩

/-- The shader that a source gives under a file name. -/
def VariantShader.ofSource (fileName source : Text) : Outcome Failure VariantShader :=
  ((Capture.scan source).mapFault .badMarker).andThen (VariantShader.build fileName)

/-- The texts of the two files for a shader. -/
structure Artifacts where
  shader : VariantShader
  header : Text
  definition : Text
deriving DecidableEq, Repr

namespace Artifacts

/-- The files of a shader. -/
def ofShader (settings : Settings) (s : VariantShader) : Artifacts :=
  ⟨s, Header.text s settings, Definition.text s settings⟩

/-- The files that a source gives under a file name. -/
def ofSource (fileName source : Text) (settings : Settings) : Outcome Failure Artifacts :=
  (VariantShader.ofSource fileName source).map (ofShader settings)

end Artifacts

end ShaderVariants
