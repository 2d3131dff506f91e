import ShaderVariants.Proofs.Cpp.Grammar

/-!
# Running C++

What the fragment of C++ does: expressions have values, statements change a frame of
local variables and the object at hand, and an object is the store of its fields and
of the constants of its class. A step that C++ does not allow has no result.

A string takes the operand of `=` or `+=` through `view`: all of the literal where it
is `id`, and what stands before the first U+0000 where the operand is a pointer to
characters.
-/

namespace ShaderVariants.Cpp

inductive Value where
  | word (w : BitVec 64)
  | truth (b : Bool)
  | text (t : Text)
deriving DecidableEq, Repr

/-- The values of variables and fields by their paths. -/
abbrev Store := List Text → Option Value

def Store.empty : Store := fun _ => none

/-- The store with another value at a path. -/
def Store.set (σ : Store) (path : List Text) (v : Value) : Store :=
  fun p => if p = path then some v else σ p

/-- The variables of a running function. -/
structure Frame where
  locals : Store
  object : Store

namespace Frame

/-- The value at a path, that of a local variable before that of a member. -/
def read (f : Frame) (path : List Text) : Option Value := (f.locals path).or (f.object path)

/-- The frame with another value where there was one. -/
def write (f : Frame) (path : List Text) (v : Value) : Option Frame :=
  if (f.locals path).isSome then some { f with locals := f.locals.set path v }
  else if (f.object path).isSome then some { f with object := f.object.set path v }
  else none

end Frame

/-- What a running function finds around it. -/
structure Surroundings where
  /-- What a string takes of a literal. -/
  view : Text → Text
  call : Text → Option Value
  /-- The string fields of a struct. -/
  fields : Text → Option (List Text)

def Surroundings.none : Surroundings := ⟨id, fun _ => Option.none, fun _ => Option.none⟩

/-- What an operator makes of two values. A shift by the width or more is not allowed. -/
def Operator.apply : Operator → Value → Value → Option Value
  | .shiftLeft, .word v, .word w => if w.toNat < 64 then some (.word (v <<< w.toNat)) else none
  | .bitAnd, .word v, .word w => some (.word (v &&& w))
  | .less, .word v, .word w => some (.truth (decide (v.toNat < w.toNat)))
  | .equal, .word v, .word w => some (.truth (v == w))
  | .notEqual, .word v, .word w => some (.truth (v != w))
  | _, _, _ => none

def Expr.eval (around : Surroundings) (f : Frame) : Expr → Option Value
  | .number n => some (.word (BitVec.ofNat 64 n))
  | .text t => some (.text (around.view t))
  | .name path => f.read path
  | .call function => around.call function
  | .uint64 e => e.eval around f
  | .complement e =>
    match e.eval around f with
    | some (.word w) => some (.word (~~~w))
    | _ => none
  | .binary op left right => do op.apply (← left.eval around f) (← right.eval around f)

/-- What an assignment makes of the value before it and of its operand. -/
def AssignOp.apply : AssignOp → Value → Value → Option Value
  | .set, .word _, .word w => some (.word w)
  | .set, .text _, .text t => some (.text t)
  | .append, .text s, .text t => some (.text (s ++ t))
  | .bitOr, .word v, .word w => some (.word (v ||| w))
  | .bitAnd, .word v, .word w => some (.word (v &&& w))
  | _, _, _ => none

/-- The frame after an assignment. -/
def Assignment.exec (around : Surroundings) (a : Assignment) (f : Frame) : Option Frame := do
  let before ← f.read a.target
  let operand ← a.value.eval around f
  let after ← a.op.apply before operand
  f.write a.target after

/-- The frame after a statement that does not end the function. -/
def Stmt.exec (around : Surroundings) : Stmt → Frame → Option Frame
  | .assign a, f => a.exec around f
  | .branch condition yes no, f =>
    match condition.eval around f, no with
    | some (.truth true), _ => yes.exec around f
    | some (.truth false), some a => a.exec around f
    | some (.truth false), none => some f
    | _, _ => none
  | .declare (.named type) name, f => do
    let fields ← around.fields type
    some { f with locals := fields.foldl (fun σ field => σ.set [name, field] (.text [])) f.locals }
  | _, _ => none

/-- The frame at the end of a function, and the expression that it returns. -/
def runBody (around : Surroundings) : List Stmt → Frame → Option (Frame × Option Expr)
  | [], f => some (f, none)
  | .give e :: _, f => some (f, some e)
  | s :: rest, f => do runBody around rest (← s.exec around f)

/-- A statement that has a result does not end the function. -/
theorem runBody_cons {around : Surroundings} {s : Stmt} {f f' : Frame}
    (h : s.exec around f = some f') (rest : List Stmt) :
    runBody around (s :: rest) f = runBody around rest f' := by
  have hgive : ∀ e, s = .give e → False := by
    rintro e rfl
    exact absurd h (by simp [Stmt.exec])
  rw [runBody, h]
  · rfl
  · exact hgive

namespace Member

/-- The member has this name and an initial value. -/
def binds (name : Text) : Member → Bool
  | .constant _ n _ => n == name
  | .field _ n (some _) => n == name
  | _ => false

/-- The value with which the member begins. -/
def initial? : Member → Option Value
  | .constant _ _ e => e.eval .none ⟨.empty, .empty⟩
  | .field _ _ (some e) => e.eval .none ⟨.empty, .empty⟩
  | _ => none

/-- The member is a function with a body, and declared with this result and this name. -/
def defines (result : CType) (name : Text) : Member → Bool
  | .function r n _ (some _) => r == result && n == name
  | _ => false

/-- The statements of the member, if it is the constructor of the class with this name. -/
def constructs? (record : Text) : Member → Option (List Stmt)
  | .constructor name body => if name = record then some body else none
  | _ => none

/-- The name of the member, if it is a string that begins empty. -/
def emptyString? : Member → Option Text
  | .field .string name none => some name
  | _ => none

end Member

namespace Record

/-- The initial values that the members give. -/
def initialValues (r : Record) : Store
  | [name] => (r.members.find? (Member.binds name)).bind Member.initial?
  | _ => none

/-- An object as it is constructed by default: with the initial values, and what a constructor makes
    of them. -/
def initial (r : Record) : Store :=
  match r.members.findSome? (Member.constructs? r.name) with
  | none => r.initialValues
  | some body => ((runBody .none body ⟨.empty, r.initialValues⟩).map (·.1.object)).getD .empty

/-- What a function without parameters returns. -/
def get (r : Record) (result : CType) (name : Text) (object : Store) : Option Value :=
  match r.members.find? (Member.defines result name) with
  | some (.function _ _ none (some body)) =>
    match runBody .none body ⟨.empty, object⟩ with
    | some (f, some e) => e.eval .none f
    | _ => none
  | _ => none

/-- The object after a call of a function on a truth value. -/
def set (r : Record) (name : Text) (argument : Bool) (object : Store) : Option Store :=
  match r.members.find? (Member.defines .void name) with
  | some (.function _ _ (some (.bool, parameter)) (some body)) =>
    (runBody .none body ⟨Store.empty.set [parameter] (.truth argument), object⟩).map (·.1.object)
  | _ => none

/-- The object after several such calls, in their order. -/
def setAll (r : Record) : List (Text × Bool) → Store → Option Store
  | [], object => some object
  | (name, argument) :: rest, object => (r.set name argument object).bind (r.setAll rest)

end Record

/-- A header and the definition of the function that its class declares. -/
structure Program where
  sources : Record
  config : Record
  assemble : Definition
deriving DecidableEq, Repr

namespace Program

def header : Reader (Record × Record) := do
  let sources ← Reader.record "struct"
  let config ← Reader.record "class"
  pure (sources, config)

/-- Reads a program from two files. Both must be in one namespace, and the function must be the
    one that the class declares as `Assemble`. -/
def ofTexts? (headerText definitionText : Text) : Option Program := do
  let (scope, sources, config) ← (Reader.scoped header).ofText? headerText
  let (scope', d) ← (Reader.scoped Reader.definition).ofText? definitionText
  if scope = scope' ∧ d.record = config.name ∧ d.name = "Assemble" ∧
      d.result = .named sources.name ∧ .function d.result d.name none none ∈ config.members then
    some ⟨sources, config, d⟩
  else none

/-- What the function finds around it when it runs on an object. -/
def surroundings (p : Program) (view : Text → Text) (object : Store) : Surroundings where
  view := view
  call getter := p.config.get .bool getter object
  fields type :=
    if type = p.sources.name then some (p.sources.members.filterMap Member.emptyString?) else none

/-- A field of the struct that the function returns on an object. -/
def assembled (p : Program) (view : Text → Text) (object : Store) (field : Text) : Option Text :=
  match runBody (p.surroundings view object) p.assemble.body ⟨.empty, object⟩ with
  | some (f, some (.name [result])) =>
    match f.locals [result, field] with
    | some (.text t) => some t
    | _ => none
  | _ => none

end Program

end ShaderVariants.Cpp
