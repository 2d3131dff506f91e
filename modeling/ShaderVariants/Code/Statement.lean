import ShaderVariants.Code.Literal
import ShaderVariants.Packing
import ShaderVariants.StageText

/-!
# Statements that assemble a stage

The generated code assembles the text of a stage in a field: it assigns the
prologue, appends the directive of each symbol that is on, and appends the body
in statements of several literals. A literal holds at most `literalLimit` bytes
of a line and a statement at most `statementLimit` bytes of the body.
-/

namespace ShaderVariants.Code

/-- A statement on the field of a stage. -/
inductive Statement where
  | assign (stage : Stage) (value : Text)
  /-- Appends a text to the field where an accessor answers true. -/
  | appendIf (accessor : Text) (stage : Stage) (value : Text)
  /-- Appends the pieces of a text to the field, one literal each. -/
  | append (stage : Stage) (pieces : List Text)
deriving DecidableEq, Repr

namespace Statement

/-- The bytes of the body that a statement may hold. -/
def statementLimit : Nat := 16384

/-- The bytes of a line that a literal may hold. -/
def literalLimit : Nat := 2048

/-- The field of a stage. -/
def field (stage : Stage) : Text := "sources." ++ stage.keyword

/-- One literal a line, and a semicolon behind the last. -/
def literalLines : List Text → List Text
  | [] => []
  | [piece] => ["        " ++ literal piece ++ ";"]
  | piece :: rest => ("        " ++ literal piece) :: literalLines rest

/-- The lines of the statement. -/
def lines : Statement → List Text
  | assign stage value => ["    " ++ field stage ++ " = " ++ literal value ++ ";"]
  | appendIf accessor stage value =>
    ["    if (Get" ++ accessor ++ "()) \x7b",
      "        " ++ field stage ++ " += " ++ literal value ++ ";",
      "    \x7d"]
  | append stage pieces => ("    " ++ field stage ++ " +=") :: literalLines pieces

/-- The pieces of a body: its lines cut at the size of a literal. -/
def bodyPieces (body : List Text) : List Text := body.flatMap (Text.pieces literalLimit)

/-- The statements that assemble the text of a stage. -/
def ofStage (stage : Stage) (text : StageText) (toggles : List Toggle) : List Statement :=
  assign stage text.prologue ::
    toggles.map (fun t => appendIf t.accessor stage (StageText.define t.symbol ++ ['\n'])) ++
    (Packing.pack Text.utf8Size statementLimit (bodyPieces text.body)).map (append stage)

end Statement

end ShaderVariants.Code
