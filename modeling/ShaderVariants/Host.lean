import ShaderVariants.Failure

/-!
# Hosts

What a run asks of the system around it: operations on files and a log. A run is
written against these operations alone, so it means the same on a file tree that
is a value as on a disk.
-/

namespace ShaderVariants

/-- A monad with file operations and a log. -/
class Host (m : Type → Type) where
  /-- A file that is open for writing. -/
  File : Type
  readText : Path → m (Except IoCause Text)
  /-- Makes a directory in one that exists. -/
  makeDirectory : Path → m (Except IoCause Unit)
  /-- Opens an empty file, in the place of one that may be there. -/
  createFile : Path → m (Except IoCause File)
  /-- Writes a text into an open file. Where that fails, a part of it may be written. -/
  writeAll : File → Text → m (Except IoCause Unit)
  /-- Waits until what was written is kept. -/
  syncAll : File → m (Except IoCause Unit)
  /-- Puts a file in the place of another path. -/
  rename : Path → Path → m (Except IoCause Unit)
  removeFile : Path → m (Except IoCause Unit)
  /-- A directory stands at the path. -/
  isDirectory : Path → m Bool
  /-- Something stands at the path. -/
  pathExists : Path → m Bool
  report : Event → m Unit

namespace Host

variable {m : Type → Type} [Monad m] [Host m]

/-- Tells the log several events. -/
def reportAll (events : List Event) : m Unit := events.forM report

/-- An operation whose failure ends the run as a failure on the path. -/
def onPath {α : Type} (p : Path) (operation : m (Except IoCause α)) : ExceptT Failure m α :=
  ExceptT.mk do return (← operation).mapError (.io p)

/-- A result that needs no host. -/
def settle {α : Type} (r : Except Failure α) : ExceptT Failure m α := ExceptT.mk (pure r)

/-- Reports the events of an outcome and goes on with its result. -/
def follow {α : Type} (o : Outcome Failure α) : ExceptT Failure m α := do
  reportAll (m := m) o.events
  settle o.result

/-- Writes a file and waits until it is kept. -/
def writeSynced (p : Path) (text : Text) : m (Except IoCause Unit) := do
  match ← createFile p with
  | .error cause => pure (.error cause)
  | .ok file =>
    match ← writeAll file text with
    | .error cause => pure (.error cause)
    | .ok () => syncAll file

/-! ## Making directories -/

/-- Takes the failure to make a directory for success where the directory is there. -/
def unlessDirectory (p : Path) : Except IoCause Unit → m (Except IoCause Unit)
  | .ok () => pure (.ok ())
  | .error cause => do return if ← isDirectory p then .ok () else .error cause

/-- Goes on from the first attempt to make a directory. If all that it lacked are the
    directories above, those are made before the second attempt. -/
def retry (p : Path) (above : Unit → m (Except IoCause Unit)) :
    Except IoCause Unit → m (Except IoCause Unit)
  | .error .notFound => do
    match ← above () with
    | .ok () => unlessDirectory p (← makeDirectory p)
    | .error cause => pure (.error cause)
  | result => unlessDirectory p result

/-- Makes the first directory of a list, where each next one holds the one before. The next ones
    are made only if the first cannot be made without them. -/
def makeNested : List Path → m (Except IoCause Unit)
  | [] => pure (.ok ())
  | p :: above => do retry p (fun () => makeNested above) (← makeDirectory p)

/-- Makes a directory and those above it. The empty path needs none. -/
def makeDirectories (p : Path) : m (Except IoCause Unit) :=
  if p.glyphs = [] then pure (.ok ())
  else do retry p (fun () => makeNested p.ancestors) (← makeDirectory p)

end Host

end ShaderVariants
