import ShaderVariants.Host

/-!
# Publishing

Several files are written as one: each text goes into a temporary file beside
its path first, and only when all are written do they take their places. Where
that fails the temporary files are removed.
-/

namespace ShaderVariants

/-- A text and the path where it belongs. -/
structure Output where
  path : Path
  text : Text
deriving DecidableEq, Repr

namespace Publish

variable {m : Type → Type} [Monad m] [Host m]

/-- The ending of a temporary file. -/
def ending : Text := ".tmp"

/-- The temporary file beside a path that names a file. -/
def temporary? (p : Path) : Option Path := p.sibling? ending

/-- Writes each text into its temporary file, up to the first failure: the temporary files that
    were begun, and the failure if there was one. -/
def stageAll : List Output → m (List Path × Except Failure Unit)
  | [] => pure ([], .ok ())
  | o :: rest => do
    match temporary? o.path with
    | none => pure ([], .error (.io o.path .noOutputName))
    | some temporary =>
      match ← Host.writeSynced temporary o.text with
      | .error cause => pure ([temporary], .error (.io temporary cause))
      | .ok () =>
        let (later, result) ← stageAll rest
        pure (temporary :: later, result)

/-- Puts temporary files in their places, up to the first failure. -/
def replaceAll : List (Path × Path) → m (Except Failure Unit)
  | [] => pure (.ok ())
  | (temporary, path) :: rest => do
    match ← Host.rename temporary path with
    | .error cause => pure (.error (.io path cause))
    | .ok () =>
      Host.report (.generated path)
      replaceAll rest

/-- Removes a temporary file if it is there. -/
def discard (temporary : Path) : m Unit := do
  if ← Host.pathExists temporary then
    let _ ← Host.removeFile temporary

/-- Writes the outputs as one. -/
def publish (outputs : List Output) : m (Except Failure Unit) := do
  let (temporaries, staged) ← stageAll outputs
  let result ← match staged with
    | .ok () => replaceAll (temporaries.zip (outputs.map Output.path))
    | .error f => pure (.error f)
  match result with
  | .ok () => pure (.ok ())
  | .error f =>
    temporaries.forM discard
    pure (.error f)

end Publish

end ShaderVariants
