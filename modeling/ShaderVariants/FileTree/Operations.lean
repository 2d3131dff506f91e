import ShaderVariants.FileTree.Walk
import ShaderVariants.Text.Utf8

/-!
# Operations on files

What a system does for its callers: each operation resolves its paths first and
then looks at or changes what stands there, or fails and leaves the tree as it
is.
-/

namespace ShaderVariants

namespace FileTree

/-- What stands at a path. -/
def entryAt? (t : FileTree) (p : Path) : Option Entry :=
  match t.resolve p with
  | .ok l => t.find? l
  | .error _ => none

/-- Something stands at the path. -/
def pathExists (t : FileTree) (p : Path) : Bool := (t.entryAt? p).isSome

/-- A directory stands at the path. -/
def isDirectory (t : FileTree) (p : Path) : Bool := t.entryAt? p == some .directory

/-- The bytes of a file. -/
def readBytes (t : FileTree) (p : Path) : Except IoCause ByteArray := do
  let l ← t.resolve p
  match t.find? l with
  | none => throw .notFound
  | some .directory => throw .isADirectory
  | some (.file bytes) => pure bytes

/-- The text of a file. -/
def readText (t : FileTree) (p : Path) : Except IoCause Text := do
  let bytes ← t.readBytes p
  match Text.ofUtf8? bytes with
  | none => throw .invalidUtf8
  | some text => pure text

/-- Makes a directory in one that exists. -/
def makeDirectory (t : FileTree) (p : Path) : Except IoCause FileTree := do
  match ← t.place p with
  | .special => throw .alreadyExists
  | .child directory name =>
    let l ← child directory name
    match t.find? l with
    | some _ => throw .alreadyExists
    | none => pure (t.insert l .directory)

/-- Creates an empty file, in the place of one that may be there: where it is, and the tree. -/
def createFile (t : FileTree) (p : Path) : Except IoCause (Location × FileTree) := do
  match ← t.place p with
  | .special => throw .isADirectory
  | .child directory name =>
    if p.endsInSeparator then throw .isADirectory
    let l ← child directory name
    match t.find? l with
    | some .directory => throw .isADirectory
    | _ => pure (l, t.insert l (.file .empty))

/-- Fills the file at a location. -/
def fillFile (t : FileTree) (l : Location) (bytes : ByteArray) : FileTree :=
  t.insert l (.file bytes)

/-- Writes a file, over one that may be there. -/
def writeBytes (t : FileTree) (p : Path) (bytes : ByteArray) : Except IoCause FileTree :=
  (t.createFile p).map fun (l, u) => u.fillFile l bytes

/-- Puts a file in the place of another path. Directories are not moved. -/
def rename (t : FileTree) (source target : Path) : Except IoCause FileTree := do
  let sourcePlace ← t.place source
  let targetPlace ← t.place target
  match sourcePlace, targetPlace with
  | .child sourceDirectory sourceName, .child targetDirectory targetName =>
    let s ← child sourceDirectory sourceName
    match t.find? s with
    | none => throw .notFound
    | some .directory => throw .isADirectory
    | some (.file bytes) =>
      let l ← child targetDirectory targetName
      if source.endsInSeparator ∨ target.endsInSeparator then throw .notADirectory
      match t.find? l with
      | some .directory => throw .isADirectory
      | _ => pure ((t.erase s).insert l (.file bytes))
  | _, _ => throw .busy

/-- Removes a file. -/
def removeFile (t : FileTree) (p : Path) : Except IoCause FileTree := do
  match ← t.place p with
  | .special => throw .isADirectory
  | .child directory name =>
    let l ← child directory name
    match t.find? l with
    | none => throw .notFound
    | some .directory => throw .isADirectory
    | some (.file _) => if p.endsInSeparator then throw .notADirectory else pure (t.erase l)

/-- Removes what stands at a path and all below it. -/
def removeAll (t : FileTree) (p : Path) : Except IoCause FileTree := do
  let l ← t.resolve p
  match t.find? l with
  | none => throw .notFound
  | some _ => pure (t.erase l)

/-! ## Listing -/

end FileTree

namespace Node

mutual

/-- All that stands below a node, under the names that lead there. -/
def contents : Node → List (Location × Entry)
  | file _ => []
  | directory children => contentsOfAll children

/-- The children of a directory and all that stands below them. -/
def contentsOfAll : List (Glyphs × Node) → List (Location × Entry)
  | [] => []
  | (name, n) :: rest =>
    ([name], n.entry) :: n.contents.map (fun (l, e) => (name :: l, e)) ++ contentsOfAll rest

end

end Node

namespace FileTree

/-- How the listing shows an entry: the names to it, and a separator behind a directory. -/
def entryLine (l : Location) : Entry → Text
  | .file _ => Glyphs.shown ([Path.separator].intercalate l)
  | .directory => Glyphs.shown ([Path.separator].intercalate l ++ [Path.separator])

/-- All that stands below the current directory, in the order of the lines as texts. -/
def listing (t : FileTree) : List Text :=
  match t.node? t.current with
  | none => []
  | some n => (n.contents.map fun (l, e) => entryLine l e).mergeSort Text.isAtMost

end FileTree

end ShaderVariants
