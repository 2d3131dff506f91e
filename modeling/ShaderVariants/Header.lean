import ShaderVariants.Code.Frame
import ShaderVariants.Code.Member
import ShaderVariants.VariantShader

/-!
# The header

The header declares a struct for the texts of a variant and a class that chooses
the variant.
-/

namespace ShaderVariants.Header

/-- The name of the header for an input file. -/
def fileName (input : Text) : Text := input ++ ".h"

/-- The field for the text of a stage. -/
def fieldLine (stage : Stage) : Text := "    std::string " ++ stage.keyword ++ " \x7b\x7d;"

/-- The line that ends a struct or a class. -/
def endLine : Text := "\x7d;"

/-- The struct that holds the texts of a variant, one field per stage. -/
def structLines (s : VariantShader) : List Text :=
  ("struct " ++ s.sourcesType ++ " \x7b") :: (Stage.all.map fieldLine ++ [endLine])

/-- The public members of the class, in groups: the constants, two functions for each toggle,
    the mask, the comparisons, the assembling. -/
def publicGroups (s : VariantShader) : List (List Code.Member) :=
  (if s.toggles = [] then []
    else [s.toggles.map fun t => Code.Member.bitConstant t.accessor t.bit]) ++
  s.toggles.map (fun t => [.setter t.accessor t.symbol, .getter t.accessor]) ++
  [[.maskGetter],
    Code.Comparison.all.map fun op => .comparison op s.configType,
    [.assembler s.sourcesType]]

/-- The members of the class that only the class sees. -/
def privateMembers : List Code.Member := [.maskField]

/-- All members of the class, in the order of their declarations. -/
def members (s : VariantShader) : List Code.Member := (publicGroups s).flatten ++ privateMembers

/-- The line above the public members. -/
def publicLine : Text := "public:"

/-- The line above the private members. -/
def privateLine : Text := "private:"

/-- The class, with a blank line behind each group of its public members. -/
def classLines (s : VariantShader) : List Text :=
  ("class " ++ s.configType ++ " \x7b") :: publicLine ::
    ((publicGroups s).flatMap (fun group => group.flatMap Code.Member.lines ++ [[]]) ++
      privateLine :: (privateMembers.flatMap Code.Member.lines ++ [endLine]))

/-- The lines above the namespace. -/
def includeLines : List Text :=
  ["#pragma once", [], "#include <cstdint>", "#include <string>", []]

/-- The text of the header. -/
def text (s : VariantShader) (settings : Settings) : Text :=
  Text.unlines <| Code.frameLines settings s.fileName includeLines <|
    structLines s ++ [[]] ++ classLines s

end ShaderVariants.Header
