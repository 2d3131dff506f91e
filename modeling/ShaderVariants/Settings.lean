import ShaderVariants.Identifier

/-!
# Settings

What shapes the generated C++ apart from the shader: the namespace around it and
the banner above it. A namespace is empty or a path of identifiers between `::`.
-/

namespace ShaderVariants

/-- A namespace path with a segment that is no identifier. -/
structure NamespaceFault where
  /-- The whole path. -/
  path : Text
  /-- Its first segment that is no identifier. -/
  segment : Text
deriving DecidableEq, Repr

/-- The wording of the fault. -/
def NamespaceFault.message (f : NamespaceFault) : Text :=
  "namespace '" ++ f.path ++ "' has invalid segment '" ++ f.segment ++ "'"

/-- The parts of a namespace path between `::`. -/
def namespaceSegments : Text → List Text
  | [] => [[]]
  | ':' :: ':' :: t => [] :: namespaceSegments t
  | c :: t =>
    match namespaceSegments t with
    | [] => [[c]]
    | segment :: rest => (c :: segment) :: rest

/-- The fault of a namespace path, if it has one. -/
def namespaceFault? (path : Text) : Option NamespaceFault :=
  if path = [] then none
  else ((namespaceSegments path).find? (!·.isIdentifier)).map (⟨path, ·⟩)

/-- What shapes the generated C++ apart from the shader. -/
structure Settings where
  /-- The namespace around the generated types; empty for none. -/
  namespacePath : Text := "Shaders"
  /-- The files start with the banner that warns against editing them. -/
  banner : Bool := true
deriving DecidableEq, Repr

namespace Settings

instance : Inhabited Settings := ⟨{}⟩

/-- The settings name a namespace that C++ accepts. -/
def IsValid (s : Settings) : Prop := namespaceFault? s.namespacePath = none

instance (s : Settings) : Decidable s.IsValid :=
  inferInstanceAs (Decidable (_ = none))

end Settings

/-- The segments never run out. -/
theorem namespaceSegments_ne_nil (t : Text) : namespaceSegments t ≠ [] := by
  fun_cases namespaceSegments t <;> simp [*]

/-- A path has no fault exactly when it is empty or all its segments are identifiers. -/
theorem namespaceFault?_eq_none_iff {path : Text} :
    namespaceFault? path = none ↔
      path = [] ∨ ∀ segment ∈ namespaceSegments path, segment.isIdentifier = true := by
  by_cases h : path = [] <;> simp [namespaceFault?, h]

example : namespaceSegments ['a', ':', ':', ':', 'b'] = [['a'], [':', 'b']] := by decide +kernel

end ShaderVariants
