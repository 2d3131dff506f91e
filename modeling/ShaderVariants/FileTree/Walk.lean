import ShaderVariants.FileTree.Basic
import ShaderVariants.IoCause
import ShaderVariants.Path

/-!
# Walking along paths

A path leads from directory to directory. What one step does is said of
locations by `FileTree.step`. A walk of many steps keeps the nodes that it came
by, so that each step looks at one directory only; `walk_cons` says that it
takes the same steps one after the other.
-/

namespace ShaderVariants

namespace FileTree

/-- The most bytes that a name may have. -/
def nameLimit : Nat := 255

/-- The number of bytes that no path reaches. -/
def pathLimit : Nat := 4096

/-! ## Steps -/

/-- A walk goes on from a directory only. -/
def checkEntry : Option Entry → Except IoCause Unit
  | none => .error .notFound
  | some (.file _) => .error .notADirectory
  | some .directory => .ok ()

/-- The location is a directory, so that a walk can go on from it. -/
def checkDirectory (t : FileTree) (l : Location) : Except IoCause Unit := checkEntry (t.find? l)

/-- Where a name leads from a directory. -/
inductive Turn where
  | stay
  | up
  | down
deriving DecidableEq

/-- Where a name leads, unless it is too long. -/
def turn : (name : Glyphs) → Except IoCause Turn
  | Path.here => .ok .stay
  | Path.above => .ok .up
  | name => if name.size ≤ nameLimit then .ok .down else .error .nameTooLong

/-- One step of a walk. Nothing need stand where it leads. -/
def step (t : FileTree) (l : Location) (name : Glyphs) : Except IoCause Location := do
  t.checkDirectory l
  match ← turn name with
  | .stay => pure l
  | .up => pure l.dropLast
  | .down => pure (l ++ [name])

/-! ## Trails -/

/-- The names from the root to where a walk has come, nearest first, each with what stands
    there. -/
abbrev Trail := List (Glyphs × Option Node)

/-- Where the walk has come. -/
def Trail.location (trail : Trail) : Location := (trail.map Prod.fst).reverse

/-- What stands where the walk has come. -/
def reached (t : FileTree) : Trail → Option Node
  | [] => some t.root
  | (_, found) :: _ => found

/-- Goes on to a name. -/
def enter (t : FileTree) (trail : Trail) (name : Glyphs) : Trail :=
  (name, (t.reached trail).bind (·.child? name)) :: trail

/-- The trail straight down to a location. -/
def trailTo (t : FileTree) (l : Location) : Trail := l.foldl t.enter []

/-- One step of a walk with its trail. -/
def stepOn (t : FileTree) (trail : Trail) (name : Glyphs) : Except IoCause Trail := do
  checkEntry ((t.reached trail).map Node.entry)
  match ← turn name with
  | .stay => pure trail
  | .up => pure trail.tail
  | .down => pure (t.enter trail name)

/-- A walk of several steps with its trail. -/
def walkOn (t : FileTree) (trail : Trail) : List Glyphs → Except IoCause Trail
  | [] => .ok trail
  | name :: rest => (t.stepOn trail name).bind fun next => t.walkOn next rest

/-- A walk of several steps. -/
def walk (t : FileTree) (l : Location) (names : List Glyphs) : Except IoCause Location :=
  (t.walkOn (t.trailTo l) names).map Trail.location

theorem location_foldl_enter (t : FileTree) (l : Location) (trail : Trail) :
    (l.foldl t.enter trail).location = trail.location ++ l := by
  induction l generalizing trail with
  | nil => simp
  | cons name l ih =>
    rw [List.foldl_cons, ih]
    simp [enter, Trail.location]

theorem reached_foldl_enter (t : FileTree) (l : Location) (trail : Trail) :
    t.reached (l.foldl t.enter trail) = (t.reached trail).bind (Node.descendant? l) := by
  induction l generalizing trail with
  | nil => exact (Option.bind_fun_some _).symm
  | cons name l ih =>
    rw [List.foldl_cons, ih, enter, reached]
    cases t.reached trail <;> rfl

/-- A trail ends at its location. -/
@[simp] theorem location_trailTo (t : FileTree) (l : Location) : (t.trailTo l).location = l :=
  t.location_foldl_enter l []

/-- What stands at the end of a trail stands at its location. -/
theorem reached_trailTo (t : FileTree) (l : Location) : t.reached (t.trailTo l) = t.node? l :=
  t.reached_foldl_enter l []

theorem trailTo_append_singleton (t : FileTree) (l : Location) (name : Glyphs) :
    t.trailTo (l ++ [name]) = t.enter (t.trailTo l) name := by
  simp [trailTo]

/-- One step back along a trail is the step to the directory above. -/
theorem tail_trailTo (t : FileTree) (l : Location) : (t.trailTo l).tail = t.trailTo l.dropLast := by
  rcases List.eq_nil_or_concat l with rfl | ⟨l, name, rfl⟩
  · rfl
  · rw [List.concat_eq_append, trailTo_append_singleton, List.dropLast_concat, enter,
      List.tail_cons]

/-- A step with its trail is the step of its location. -/
theorem stepOn_trailTo (t : FileTree) (l : Location) (name : Glyphs) :
    t.stepOn (t.trailTo l) name = (t.step l name).map t.trailTo := by
  unfold stepOn step checkDirectory
  rw [reached_trailTo, find?]
  cases checkEntry ((t.node? l).map Node.entry) with
  | error _ => rfl
  | ok _ =>
    cases turn name with
    | error _ => rfl
    | ok way =>
      cases way with
      | stay => rfl
      | up => exact congrArg Except.ok (t.tail_trailTo l)
      | down => exact congrArg Except.ok (t.trailTo_append_singleton l name).symm

/-- A walk without steps stays where it is. -/
@[simp] theorem walk_nil (t : FileTree) (l : Location) : t.walk l [] = .ok l := by
  simp [walk, walkOn, Except.map]

/-- A walk takes its first step and goes on from there. -/
theorem walk_cons (t : FileTree) (l : Location) (name : Glyphs) (rest : List Glyphs) :
    t.walk l (name :: rest) = (t.step l name).bind fun next => t.walk next rest := by
  unfold walk
  rw [walkOn, stepOn_trailTo]
  cases t.step l name <;> rfl

/-! ## Paths -/

/-- Where the walk along a path starts, if the system takes the path at all. -/
def start (t : FileTree) (p : Path) : Except IoCause Location :=
  if Glyph.char '\x00' ∈ p.glyphs then .error .invalidPath
  else if p.glyphs = [] then .error .notFound
  else if pathLimit ≤ p.glyphs.size then .error .nameTooLong
  else .ok (if p.isAbsolute then [] else t.current)

/-- The location of a path. A separator at the end asks for a directory. -/
def resolve (t : FileTree) (p : Path) : Except IoCause Location := do
  let origin ← t.start p
  t.walk origin (p.segments ++ if p.endsInSeparator then [Path.here] else [])

/-- A path seen as a name in a directory. -/
inductive Place where
  | child (directory : Location) (name : Glyphs)
  /-- The root, or a last component that is `.` or `..`. -/
  | special
deriving DecidableEq

/-- The directory and the name that a path ends in; the directory exists. -/
def place (t : FileTree) (p : Path) : Except IoCause Place := do
  let origin ← t.start p
  let segments := p.segments
  match segments.getLast? with
  | none => pure .special
  | some name =>
    let directory ← t.walk origin segments.dropLast
    t.checkDirectory directory
    if name = Path.here ∨ name = Path.above then pure .special else pure (.child directory name)

/-- The location of a name in a directory, unless the name is too long. -/
def child (directory : Location) (name : Glyphs) : Except IoCause Location :=
  if name.size ≤ nameLimit then .ok (directory ++ [name]) else .error .nameTooLong

end FileTree

end ShaderVariants
