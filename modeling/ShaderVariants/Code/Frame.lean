import ShaderVariants.Settings

/-!
# The frame of a generated file

Both files have the same frame: the banner, the lines that stand outside the
namespace, and the content within it. A banner or a namespace that the settings
do not ask for leaves no trace.
-/

namespace ShaderVariants.Code

/-- The lines that warn against editing the file. -/
def bannerLines (settings : Settings) (fileName : Text) : List Text :=
  if settings.banner then
    ["// GENERATED FILE - DO NOT EDIT", "// Source: " ++ fileName, "// Generator: shader-gen", []]
  else []

/-- The lines that open the namespace. -/
def openingLines (settings : Settings) : List Text :=
  if settings.namespacePath = [] then []
  else ["namespace " ++ settings.namespacePath ++ " \x7b", []]

/-- The lines that close the namespace. -/
def closingLines (settings : Settings) : List Text :=
  if settings.namespacePath = [] then []
  else [[], "\x7d // namespace " ++ settings.namespacePath]

/-- The lines of a file with `outside` before the namespace and `inside` within it. -/
def frameLines (settings : Settings) (fileName : Text) (outside inside : List Text) : List Text :=
  bannerLines settings fileName ++ outside ++ openingLines settings ++ inside ++
    closingLines settings

end ShaderVariants.Code
