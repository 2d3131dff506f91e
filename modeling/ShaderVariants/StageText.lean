import ShaderVariants.Stage
import ShaderVariants.Variant

/-!
# Stage texts

The text of a stage is its first line, the prologue, and the lines after it, the
body. The text of a variant has one `#define` line per symbol that is on between
the two.
-/

namespace ShaderVariants

/-- A stage's lines, the first apart from the rest. -/
structure StageText where
  /-- The first line, as a rule `#version`. -/
  prologue : Text
  body : List Text
deriving DecidableEq, Repr

namespace StageText

/-- Splits the lines of a stage; there is nothing to split without a line. -/
def ofLines? : List Text → Option StageText
  | [] => none
  | line :: rest => some ⟨line, rest⟩

/-- All lines of the stage. -/
def toLines (s : StageText) : List Text := s.prologue :: s.body

/-- The number of lines of the stage. -/
def lineCount (s : StageText) : Nat := s.body.length + 1

/-- The directive that turns a symbol on. -/
def define (symbol : Text) : Text := "#define " ++ symbol

/-- The directives of a variant, one line per toggle that is on, in the order of the toggles. -/
def defines (toggles : List Toggle) (v : Variant) : List Text :=
  (toggles.filter v.get).map fun t => define t.symbol

/-- The text of a variant: the prologue, the directives of the symbols that are on, the body. -/
def assemble (s : StageText) (toggles : List Toggle) (v : Variant) : Text :=
  s.prologue ++ Text.unlines (defines toggles v) ++ s.body.flatten

/-- Splitting keeps every line. -/
theorem ofLines?_eq_some_iff {lines : List Text} {s : StageText} :
    ofLines? lines = some s ↔ lines = s.toLines := by
  cases lines with
  | nil => simp [ofLines?, toLines]
  | cons line rest =>
    cases s
    simp [ofLines?, toLines]

end StageText

end ShaderVariants
