import ShaderVariants.Document.Word

/-!
# Outlines of documents

What a document says line by line, with keys and scalars as they are spelled. A
text has an outline or breaks the grammar; what the words mean, and whether the
statements agree with each other, is asked of the outline alone.
-/

namespace ShaderVariants.Document

/-- A key as it is spelled: the words of its parts, between which dots stand. -/
abbrev Key := List Word

/-- A value as it is spelled. -/
inductive Expression where
  | word (w : Word)
  | array (items : List Expression)
  | table (assignments : List (Key × Expression))

/-- The value that takes the place of a missing one. -/
def Expression.missing : Expression := .word .missing

/-- What one line of a document says. -/
inductive Statement where
  | assign (key : Key) (value : Expression)
  | openTable (key : Key)
  /-- Opens the next table of an array of tables. -/
  | openItem (key : Key)

/-- The statements of a document in their order. -/
abbrev Outline := List Statement

end ShaderVariants.Document
