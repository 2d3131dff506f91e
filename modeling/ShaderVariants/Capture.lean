import ShaderVariants.Outcome
import ShaderVariants.SourceLine
import ShaderVariants.Symbols
import ShaderVariants.Text.Lines

/-!
# Captures

A capture is a combined source sorted by stage: the body lines behind a vertex
marker, those behind a fragment marker, those before the first marker, and the
symbols that any of them name. A marker for an unsupported stage ends the scan.
-/

namespace ShaderVariants

/-- The lines of a combined source by where they belong, and the symbols that they name. -/
structure Capture where
  preamble : List Text := []
  vertex : List Text := []
  fragment : List Text := []
  symbols : Symbols := ∅
deriving DecidableEq

/-- A marker that names no supported stage. -/
structure BadMarker where
  /-- The number of the line, from one. -/
  lineNumber : Nat
  /-- The word that it names. -/
  value : Text
  /-- The line without the whitespace at its end. -/
  line : Text
deriving DecidableEq, Repr

/-- The wording of the fault. -/
def BadMarker.message (b : BadMarker) : Text :=
  "Unsupported shader type '" ++ b.value ++ "' on line " ++ Text.decimal b.lineNumber ++ ": " ++
    b.line

namespace Capture

/-- The lines of a stage. -/
def stageLines (c : Capture) : Stage → List Text
  | .vertex => c.vertex
  | .fragment => c.fragment

/-- Puts a body line in front of the lines of the stage that is open there. -/
def consLine (active : Option Stage) (line : Text) (c : Capture) : Capture :=
  match active with
  | none => { c with preamble := line :: c.preamble }
  | some .vertex => { c with vertex := line :: c.vertex }
  | some .fragment => { c with fragment := line :: c.fragment }

/-- The stage that a line opens; a body line opens none. -/
def openedStage? (number : Nat) (line : Text) : Except BadMarker (Option Stage) :=
  match SourceLine.classify line with
  | .marker stage => .ok (some stage)
  | .unsupported value => .error ⟨number, value, line.trimEnd⟩
  | .body => .ok none

/-- The symbols after a body line. -/
def noteSymbol (seen : Symbols) (line : Text) : Symbols :=
  match SourceLine.ifdefSymbol? line with
  | some symbol => seen.insert symbol
  | none => seen

/-- What a body line tells the log. -/
def lineEvents (number : Nat) (seen : Symbols) (line : Text) : List Event :=
  match SourceLine.ifdefSymbol? line with
  | some symbol => if symbol ∈ seen then [] else [.foundSymbol number symbol]
  | none => if SourceLine.isBareIfdef line then [.bareIfdef number] else []

/-- Scans lines from line `number` on, where the stage `active` is open and the symbols `seen`
    are known. -/
def scanLines (active : Option Stage) (number : Nat) (seen : Symbols) :
    List Text → Outcome BadMarker Capture
  | [] => { result := .ok { symbols := seen } }
  | line :: rest =>
    match openedStage? number line with
    | .error marker => { result := .error marker }
    | .ok (some stage) =>
      (scanLines (some stage) (number + 1) seen rest).after [.enteredStage number stage]
    | .ok none =>
      ((scanLines active (number + 1) (noteSymbol seen line) rest).map (consLine active line)).after
        (lineEvents number seen line)

/-- The counts of a capture, as the log has them. -/
def countEvent (c : Capture) : Event :=
  .scanned c.vertex.length c.fragment.length c.preamble.length c.symbols.size

def scan (source : Text) : Outcome BadMarker Capture :=
  (scanLines none 1 ∅ source.lines).andThen fun c => { events := [c.countEvent], result := .ok c }

/-- What a combined source holds. -/
def ofSource? (source : Text) : Except BadMarker Capture := (scan source).result

/-- The count at the end changes nothing of what was found. -/
theorem ofSource?_eq (source : Text) :
    ofSource? source = (scanLines none 1 ∅ source.lines).result := by
  simp only [ofSource?, scan, Outcome.result_andThen]
  cases (scanLines none 1 ∅ source.lines).result <;> rfl

end Capture

end ShaderVariants
