import ShaderVariants.Path
import ShaderVariants.Settings
import ShaderVariants.Stage
import ShaderVariants.Toggle

/-!
# Events

What a run tells its log, as data: each event has a level and a wording.
-/

namespace ShaderVariants

/-- How much an event matters. -/
inductive Level where
  | trace
  | debug
  | info
  | warn
  | error
deriving DecidableEq, Repr

/-- The word for the level in a log. -/
def Level.word : Level → Text
  | trace => "TRACE"
  | debug => "DEBUG"
  | info => "INFO"
  | warn => "WARN"
  | error => "ERROR"

/-- Something that a run tells its log. -/
inductive Event where
  | enteredStage (line : Nat) (stage : Stage)
  /-- A line named a symbol for the first time. -/
  | foundSymbol (line : Nat) (symbol : Text)
  /-- A line holds an `#ifdef` and no symbol. -/
  | bareIfdef (line : Nat)
  /-- A source was read to its end: how many lines and symbols it gave. -/
  | scanned (vertex fragment preamble symbols : Nat)
  /-- A toggle got its bit behind its accessor name, which an earlier toggle had taken. -/
  | sharedAccessor (toggle : Toggle)
  /-- A shader was built: how many symbols and lines it has. -/
  | summarized (fileName : Text) (symbols vertex fragment : Nat)
  /-- A toggle of the shader that was built. -/
  | boundSymbol (toggle : Toggle)
  | generated (path : Path)
  /-- An output file holds what generating would write. -/
  | inSync (path : Path)
  | outOfSync (path : Path)
  | missing (path : Path)
  | loadedSettings (path : Path) (settings : Settings)
  | generating (input : Path)
  | checking (input outputDir : Path)
  | wrote (header definition : Path)
  | allInSync
  | failed (message : Text)
deriving DecidableEq, Repr

namespace Event

/-- How much the event matters. -/
def level : Event → Level
  | enteredStage .. => .trace
  | foundSymbol .. | scanned .. | boundSymbol .. | loadedSettings .. | wrote .. => .debug
  | bareIfdef .. | sharedAccessor .. | outOfSync .. | missing .. => .warn
  | summarized .. | generated .. | inSync .. | generating .. | checking .. | allInSync => .info
  | failed .. => .error

/-- The start of what is said of a line. -/
def atLine (line : Nat) : Text := "line " ++ Text.decimal line ++ ": "

/-- The wording of the event. -/
def message : Event → Text
  | enteredStage line stage => atLine line ++ "entering Active(" ++ stage.keyword.capitalize ++ ")"
  | foundSymbol line symbol => atLine line ++ "symbol '" ++ symbol ++ "'"
  | bareIfdef line => atLine line ++ "'#ifdef' without a symbol"
  | scanned vertex fragment preamble symbols =>
    "Scanned " ++ Text.decimal vertex ++ " vertex lines, " ++ Text.decimal fragment ++
      " fragment lines, " ++ Text.decimal preamble ++ " preamble lines, " ++
      Text.decimal symbols ++ " symbols"
  | sharedAccessor toggle =>
    "Symbol '" ++ toggle.symbol ++ "' shares its accessor with an earlier symbol, using '" ++
      toggle.accessor ++ "'"
  | summarized fileName symbols vertex fragment =>
    fileName ++ ": " ++ Text.decimal symbols ++ " symbols, " ++ Text.decimal vertex ++
      " vertex lines, " ++ Text.decimal fragment ++ " fragment lines"
  | boundSymbol toggle =>
    "  bit " ++ (Text.decimal toggle.bit).leftpad 2 ' ' ++ ": " ++ toggle.symbol ++ " -> " ++
      toggle.accessor
  | generated path => "Generated " ++ path.text
  | inSync path => "In sync: " ++ path.text
  | outOfSync path => "Out of sync: " ++ path.text
  | missing path => "Missing: " ++ path.text
  | loadedSettings path settings =>
    "Loaded settings from " ++ path.text ++ ": namespace '" ++ settings.namespacePath ++
      "', banner " ++ (if settings.banner then "on" else "off")
  | generating input => "Generating from " ++ input.text
  | checking input outputDir => "Checking " ++ input.text ++ " against " ++ outputDir.text
  | wrote header definition => "Wrote " ++ header.text ++ " and " ++ definition.text
  | allInSync => "All outputs in sync"
  | failed message => message

end Event

end ShaderVariants
