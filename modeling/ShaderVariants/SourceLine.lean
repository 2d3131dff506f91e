import ShaderVariants.Stage
import ShaderVariants.Text.Whitespace

/-!
# Source lines

What one line of a combined source means: a marker that opens a stage, a marker
for a stage that is not supported, or a line of the body. Any line of the body
may name a symbol.
-/

namespace ShaderVariants.SourceLine

/-- The start of a marker. -/
def markerStart : Text := "#shader "

/-- The start of a line that names a symbol. -/
def ifdefStart : Text := "#ifdef "

/-- The directive of such a line by itself. -/
def ifdefDirective : Text := "#ifdef"

inductive Kind where
  | marker (stage : Stage)
  /-- Looks like a marker and names no stage; `value` is the word that it names. -/
  | unsupported (value : Text)
  /-- Belongs to the stage that is open. -/
  | body
deriving DecidableEq, Repr

/-- What the line is. A marker starts at the first character and goes by how its text starts, so
    `#shader vertex_main` opens the vertex stage; `#shader` without a blank is body. -/
def classify (line : Text) : Kind :=
  match markerStart.isPrefixOf? line with
  | none => .body
  | some rest =>
    match Stage.ofMarker? rest with
    | some stage => .marker stage
    | none => .unsupported ((Text.firstWord? rest).getD [])

/-- The symbol that the line names: the first word after `#ifdef `. -/
def ifdefSymbol? (line : Text) : Option Text :=
  (ifdefStart.isPrefixOf? line.trim).bind Text.firstWord?

/-- The line is an `#ifdef` that names no symbol. -/
def isBareIfdef (line : Text) : Bool := line.trim == ifdefDirective

end ShaderVariants.SourceLine
