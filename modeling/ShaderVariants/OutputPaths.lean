import ShaderVariants.Definition
import ShaderVariants.Failure

/-!
# Output paths

Both files are named for the input file and stand in the output directory. Their names
are texts, whatever the name of the input file is.
-/

namespace ShaderVariants

/-- The name of the input file, as it is shown. -/
def inputName (input : Path) : Except Failure Text :=
  match input.fileName? with
  | some name => .ok name.shown
  | none => .error (.io input .noInputName)

/-- Where the two files of a shader go. -/
structure OutputPaths where
  header : Path
  definition : Path
deriving DecidableEq, Repr

namespace OutputPaths

/-- The paths in a directory for an input file name. -/
def ofName (name : Text) (outputDir : Path) : OutputPaths :=
  ⟨outputDir.join (.ofText (Header.fileName name)),
    outputDir.join (.ofText (Definition.fileName name))⟩

/-- The paths in a directory for an input file. -/
def ofInput (input outputDir : Path) : Except Failure OutputPaths :=
  (inputName input).map fun name => ofName name outputDir

end OutputPaths

end ShaderVariants
