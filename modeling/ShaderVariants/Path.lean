import ShaderVariants.Text.Glyphs

/-!
# Paths

A path is kept as it was written, since messages show it so. It need not be a text.
Its components are what stands between the separators: empty components count for
nothing, and neither does `.` except as the first component. The last component is
the file name, unless it is `..`.
-/

namespace ShaderVariants

/-- A path as it was written. -/
structure Path where
  glyphs : Glyphs
deriving DecidableEq, Repr

namespace Path

instance : Coe Text Path := ⟨fun t => ⟨.ofText t⟩⟩

/-- The path as messages show it. -/
def text (p : Path) : Text := p.glyphs.shown

def separator : Glyph := '/'

/-- The component for the directory itself. -/
@[match_pattern] def here : Glyphs := ['.']

/-- The component for the directory above. -/
@[match_pattern] def above : Glyphs := ['.', '.']

/-- The path starts at the root. -/
def isAbsolute (p : Path) : Bool := p.glyphs.head? == some separator

/-- The path ends in a separator and so asks for a directory. -/
def endsInSeparator (p : Path) : Bool := p.glyphs.getLast? == some separator

/-- What stands between the separators, empty parts included, last part first. -/
def partsBackward (p : Path) : List Glyphs := (p.glyphs.splitOn separator).reverse

/-- Drops the parts at the end that count for nothing: empty ones, and `.` unless it comes
    first. -/
def dropIdle : List Glyphs → List Glyphs
  | [] => []
  | part :: rest =>
    if rest ≠ [] ∧ (part = [] ∨ part = here) then dropIdle rest else part :: rest

/-- The path of parts given last first. A lone empty part is the root. -/
def ofBackward : List Glyphs → Path
  | [] => ⟨[]⟩
  | [[]] => ⟨[separator]⟩
  | parts => ⟨[separator].intercalate parts.reverse⟩

/-- The last component, if it names a file. -/
def fileName? (p : Path) : Option Glyphs :=
  match dropIdle p.partsBackward with
  | [] => none
  | part :: _ => if part = [] ∨ part = here ∨ part = above then none else some part

/-- The parts of the paths above, nearest first, down to a first component. -/
def ancestorsBackward : List Glyphs → List Path
  | [] => []
  | part :: rest =>
    if rest ≠ [] ∧ (part = [] ∨ part = here) then ancestorsBackward rest
    else if part = [] then []
    else ofBackward (part :: rest) :: ancestorsBackward rest

/-- The paths above, nearest first. The root and the empty path are left out. -/
def ancestors (p : Path) : List Path := ancestorsBackward (dropIdle p.partsBackward).tail

/-- The path without its last component. -/
def parent (p : Path) : Path := ofBackward (dropIdle (dropIdle p.partsBackward).tail)

/-- A name below the path. -/
def join (p : Path) (name : Glyphs) : Path :=
  if p.glyphs = [] ∨ p.endsInSeparator then ⟨p.glyphs ++ name⟩
  else ⟨p.glyphs ++ separator :: name⟩

/-- The path beside this one whose name has `ending` behind it. -/
def sibling? (p : Path) (ending : Text) : Option Path :=
  p.fileName?.map fun name => p.parent.join (name ++ .ofText ending)

/-- The components that a walk along the path takes, `.` and `..` included. -/
def segments (p : Path) : List Glyphs := (p.glyphs.splitOn separator).filter (· ≠ [])

example : fileName? ⟨['a', '/', '.', '/']⟩ = some ['a'] := by decide

example : fileName? ⟨['a', '/', '.', '.']⟩ = none := by decide

example : sibling? ⟨['d', '/', '.', '/', 'f']⟩ ['~'] = some ⟨['d', '/', 'f', '~']⟩ := by decide

example : ancestors ⟨['a', '/', '/', 'b', '/', 'c', '/']⟩ =
    [⟨['a', '/', '/', 'b']⟩, ⟨['a']⟩] := by decide

end Path

end ShaderVariants
