import ShaderVariants.Code.Frame
import ShaderVariants.Code.Statement
import ShaderVariants.Header

/-!
# The definition

The second file defines the function that assembles the texts of the chosen
variant.
-/

namespace ShaderVariants.Definition

/-- The name of the definition for an input file. -/
def fileName (input : Text) : Text := input ++ ".cpp"

/-- The statements that assemble a stage of the shader. -/
def stageStatements (s : VariantShader) (stage : Stage) : List Code.Statement :=
  Code.Statement.ofStage stage (s.stageText stage) s.toggles

/-- All statements, stage by stage. -/
def statements (s : VariantShader) : List Code.Statement :=
  Stage.all.flatMap (stageStatements s)

/-- The function, with a blank line before the statements of each stage. -/
def functionLines (s : VariantShader) : List Text :=
  [s.sourcesType ++ " " ++ s.configType ++ "::Assemble() const", "\x7b",
    "    " ++ s.sourcesType ++ " sources \x7b\x7d;"] ++
    Stage.all.flatMap (fun stage => [] :: (stageStatements s stage).flatMap Code.Statement.lines) ++
    [[], "    return sources;", "\x7d"]

/-- The lines above the namespace. -/
def includeLines (s : VariantShader) : List Text :=
  ["#include \"" ++ Header.fileName s.fileName ++ "\"", []]

/-- The text of the definition. -/
def text (s : VariantShader) (settings : Settings) : Text :=
  Text.unlines <| Code.frameLines settings s.fileName (includeLines s) (functionLines s)

end ShaderVariants.Definition
