import ShaderVariants.Text.Basic

/-!
# Stages

The two shader stages that a combined source holds.
-/

namespace ShaderVariants

/-- A shader stage with a text of its own. -/
inductive Stage where
  | vertex
  | fragment
deriving DecidableEq, Repr

namespace Stage

/-- Both stages, in the order in which they are checked and generated. -/
def all : List Stage := [vertex, fragment]

/-- The word for the stage in markers, messages and generated fields. -/
def keyword : Stage → Text
  | vertex => "vertex"
  | fragment => "fragment"

/-- The stage whose keyword starts the text. -/
def ofMarker? (t : Text) : Option Stage :=
  all.find? fun stage => stage.keyword.isPrefixOf t

end Stage

end ShaderVariants
