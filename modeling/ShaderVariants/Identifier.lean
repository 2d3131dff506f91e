import ShaderVariants.Text.Basic

/-!
# Identifiers

Which texts are C++ identifiers, and how a name of any spelling becomes one: its
letters and digits in Pascal case, behind a fixed first part where that is
needed.
-/

namespace ShaderVariants

/-- The character may start an identifier. -/
def isIdentifierStart (c : Char) : Bool := c.isAlpha || c == '_'

/-- The character may continue an identifier. -/
def isIdentifierPart (c : Char) : Bool := c.isAlphanum || c == '_'

namespace Text

/-- The text is a C++ identifier: ASCII letters, digits and underscores, no digit in front. -/
def isIdentifier : Text → Bool
  | [] => false
  | c :: t => isIdentifierStart c && t.all isIdentifierPart

/-- The word with a capital in front. The rest is kept where it has a lower-case letter and is
    lowered where it has none. -/
def capitalize : Text → Text
  | [] => []
  | c :: t => c.toUpper :: (if t.any Char.isLower then t else t.map Char.toLower)

/-- The words of a name, capitalized and joined. Words are runs of ASCII letters and digits. -/
def pascalCase (name : Text) : Text :=
  (name.splitOnP (!·.isAlphanum)).flatMap capitalize

/-- The name itself where it is an identifier, and otherwise the name behind `first`. -/
def identifierBehind (first name : Text) : Text :=
  if name.isIdentifier then name else first ++ name

end Text

/-- The first part of the type names for an input file: its name up to the first dot in Pascal
    case. -/
def typeName (fileName : Text) : Text :=
  Text.identifierBehind "Shader" (Text.pascalCase (fileName.takeWhile (· ≠ '.')))

/-- The accessor name that a symbol asks for. -/
def accessorName (symbol : Text) : Text :=
  Text.identifierBehind "Sym" (Text.pascalCase symbol)

end ShaderVariants
