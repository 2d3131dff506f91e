import ShaderVariants.Workspace

/-!
# Unreliable systems

A host that is a value, as a workspace is, on a system that may refuse any operation for
reasons of its own: a full device, a missing permission, an interrupted call. What is
refused is not done, but of a text some bytes may be written before the refusal.
-/

namespace ShaderVariants

/-- How the system refuses an operation. -/
structure SystemRefusal where
  cause : IoCause
  /-- How many bytes of a text are written before. -/
  written : Nat := 0
deriving DecidableEq, Repr

/-- A workspace on a system that may refuse operations. -/
structure UnreliableSystem where
  workspace : Workspace
  /-- Whether the system refuses the operations to come, one answer for each. Behind the end of the
      list it refuses nothing. -/
  answers : List (Option SystemRefusal) := []
  /-- The paths where the system has refused to look for a file or to remove it. -/
  kept : List Path := []

/-- A run on such a system. -/
abbrev Trial := StateM UnreliableSystem

namespace Trial

/-- Asks for an operation. If it is refused, `refused` says what that leaves. -/
def ask {α : Type} (operation : Session α) (refused : SystemRefusal → Trial α) : Trial α := fun s =>
  let next := { s with answers := s.answers.tail }
  match s.answers.head?.join with
  | some r => refused r next
  | none => ((operation s.workspace).1, { next with workspace := (operation s.workspace).2 })

/-- What is refused has not begun. -/
def refuse {α : Type} (r : SystemRefusal) : Trial (Except IoCause α) := pure (.error r.cause)

/-- A part of the text is in the file. -/
def refusePart (l : Location) (text : Text) (r : SystemRefusal) :
    Trial (Except IoCause Unit) := fun s =>
  let files := s.workspace.files.fillFile l (text.toUtf8.extract 0 r.written)
  (.error r.cause, { s with workspace := { s.workspace with files } })

/-- Whatever is at the path stays there. -/
def keep {α : Type} (p : Path) (answer : α) : Trial α := fun s =>
  (answer, { s with kept := p :: s.kept })

instance : Host Trial where
  File := Location
  readText p := ask (Host.readText p) refuse
  makeDirectory p := ask (Host.makeDirectory p) refuse
  createFile p := ask (Session.createFile p) refuse
  writeAll l text := ask (Session.writeAll l text) (refusePart l text)
  syncAll _ := ask (pure (.ok ())) refuse
  rename source target := ask (Host.rename source target) refuse
  removeFile p := ask (Host.removeFile p) fun r => keep p (.error r.cause)
  isDirectory p := ask (Host.isDirectory p) fun _ => pure false
  pathExists p := ask (Host.pathExists p) fun _ => keep p false
  report e := fun s => ((), { s with workspace := (Session.report e s.workspace).2 })

end Trial

end ShaderVariants
