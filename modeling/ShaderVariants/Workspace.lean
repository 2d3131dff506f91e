import ShaderVariants.FileTree.Operations
import ShaderVariants.Host

/-!
# Workspaces

A host that is a value: a file tree and the events of the log so far.
-/

namespace ShaderVariants

/-- A file tree and a log. -/
structure Workspace where
  files : FileTree := {}
  log : List Event := []

namespace Workspace

/-- The workspace in a fresh directory of a tree, from which relative paths start. -/
def inFresh (t : FileTree) (directory : Location) : Workspace :=
  { files := { (t.erase directory).insert directory .directory with current := directory } }

/-- The tree that is left when the workspace's directory is removed. -/
def left (w : Workspace) : FileTree := { w.files.erase w.files.current with current := [] }

end Workspace

/-- A run on a workspace. -/
abbrev Session := StateM Workspace

namespace Session

theorem bind_apply {σ α β : Type} (x : StateM σ α) (f : α → StateM σ β) (s : σ) :
    (x >>= f) s = f (x s).1 (x s).2 := rfl

theorem pure_apply {σ α : Type} (a : α) (s : σ) : (pure a : StateM σ α) s = (a, s) := rfl

/-- An operation that looks at the files. -/
def look {α : Type} (f : FileTree → α) : Session α := fun w => (f w.files, w)

/-- An operation that changes the files or fails and leaves them. -/
def change (f : FileTree → Except IoCause FileTree) : Session (Except IoCause Unit) := fun w =>
  match f w.files with
  | .ok files => (.ok (), { w with files })
  | .error cause => (.error cause, w)

/-- Opens a file. An open file is known by its location. -/
def createFile (p : Path) : Session (Except IoCause Location) := fun w =>
  match w.files.createFile p with
  | .ok (l, files) => (.ok l, { w with files })
  | .error cause => (.error cause, w)

/-- Writes a text into an open file. -/
def writeAll (l : Location) (text : Text) : Session (Except IoCause Unit) :=
  change fun t => .ok (t.fillFile l text.toUtf8)

/-- Puts an event behind the log. -/
def report (e : Event) : Session Unit := fun w => ((), { w with log := w.log ++ [e] })

instance : Host Session where
  File := Location
  readText p := look (·.readText p)
  makeDirectory p := change (·.makeDirectory p)
  createFile := createFile
  writeAll := writeAll
  syncAll _ := pure (.ok ())
  rename source target := change (·.rename source target)
  removeFile p := change (·.removeFile p)
  isDirectory p := look (·.isDirectory p)
  pathExists p := look (·.pathExists p)
  report := report

end Session

end ShaderVariants
