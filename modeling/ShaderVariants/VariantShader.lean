import ShaderVariants.Capture
import ShaderVariants.StageText
import ShaderVariants.Text.Control

/-!
# Shaders with variants

A shader with variants is what the two C++ files are made from: a file name that
can stand in an `#include`, a text for each stage, and a toggle for each symbol.
-/

namespace ShaderVariants

/-- Why a capture gives no shader. -/
inductive ShaderFault where
  /-- The file name cannot stand in an `#include`. -/
  | unsupportedFileName (name : Text)
  | emptyStage (stage : Stage)
  /-- There are more symbols than a mask has bits. -/
  | tooManySymbols (count : Nat)
deriving DecidableEq, Repr

/-- The wording of the fault. -/
def ShaderFault.message : ShaderFault → Text
  | unsupportedFileName name =>
    "Input file name '" ++ name ++
      "' cannot be used in an #include (contains '\"', '\\\\' or a control character)"
  | emptyStage stage =>
    "No lines captured for the " ++ stage.keyword ++ " stage (missing '#shader " ++
      stage.keyword ++ "' or empty body)"
  | tooManySymbols count =>
    Text.decimal count ++ " distinct symbols declared, but the mask holds at most " ++
      Text.decimal Toggle.maxCount

/-- The character cannot stand in an `#include` between double quotes. -/
def breaksInclude (c : Char) : Bool := c == '"' || c == '\\' || isControl c

/-- The name can stand in an `#include` as it is. -/
def isIncludable (name : Text) : Bool := !name.any breaksInclude

/-- A combined shader, ready to be generated. -/
structure VariantShader where
  fileName : Text
  /-- The first part of the names of the generated types. -/
  typeName : Text
  vertex : StageText
  fragment : StageText
  /-- The toggles of the symbols, in bit order. -/
  toggles : List Toggle
deriving DecidableEq, Repr

namespace VariantShader

/-- The text of a stage. -/
def stageText (s : VariantShader) : Stage → StageText
  | .vertex => s.vertex
  | .fragment => s.fragment

/-- The name of the generated struct that holds a variant's texts. -/
def sourcesType (s : VariantShader) : Text := s.typeName ++ "ShaderSources"

/-- The name of the generated class that chooses a variant. -/
def configType (s : VariantShader) : Text := s.typeName ++ "ShaderConfig"

/-- The toggle of a symbol. -/
def toggle? (s : VariantShader) (symbol : Text) : Option Toggle :=
  s.toggles.find? (·.symbol == symbol)

/-- The variant with every symbol on. -/
def allEnabled (s : VariantShader) : Variant := Variant.ofToggles s.toggles

/-- The text of a stage in a variant. -/
def assemble (s : VariantShader) (stage : Stage) (v : Variant) : Text :=
  (s.stageText stage).assemble s.toggles v

/-- The text of a stage with these lines. -/
def splitStage (stage : Stage) (lines : List Text) : Except ShaderFault StageText :=
  match StageText.ofLines? lines with
  | none => .error (.emptyStage stage)
  | some text => .ok text

/-- The shader of a capture. Of several faults the first in this order counts: the file name,
    the vertex stage, the fragment stage, the number of symbols. -/
def ofCapture (fileName : Text) (c : Capture) : Except ShaderFault VariantShader :=
  if isIncludable fileName then do
    let vertex ← splitStage .vertex c.vertex
    let fragment ← splitStage .fragment c.fragment
    if c.symbols.size ≤ Toggle.maxCount then
      pure ⟨fileName, ShaderVariants.typeName fileName, vertex, fragment,
        Toggle.ofSymbols c.symbols⟩
    else throw (.tooManySymbols c.symbols.size)
  else throw (.unsupportedFileName fileName)

/-- What binding the symbols tells the log: which accessors had to be told apart. -/
def bindingEvents (s : VariantShader) : List Event :=
  (s.toggles.filter fun t => t.accessor ≠ accessorName t.symbol).map .sharedAccessor

/-- What a run tells the log of the shader that it built. -/
def summaryEvents (s : VariantShader) : List Event :=
  .summarized s.fileName s.toggles.length s.vertex.lineCount s.fragment.lineCount ::
    s.toggles.map .boundSymbol

end VariantShader

end ShaderVariants
