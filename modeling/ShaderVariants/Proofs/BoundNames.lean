import ShaderVariants.Proofs.Shaders

/-!
# Names that symbols are bound to

The base form of a symbol is its name in Pascal case, behind a fixed first part where it
could not begin an identifier. A symbol is bound to its base form unless an earlier symbol
has the same one; then its bit stands behind it. So the toggles are known from the list of
symbols alone, and all names that are made are identifiers.
-/

namespace ShaderVariants

variable {a b name : Text} {seen taken : List Text} {s : Symbols} {t : Toggle}

/-! ## Identifiers -/

theorem isIdentifierStart_of_isUpper {c : Char} (h : c.isUpper = true) :
    isIdentifierStart c = true := by
  have halpha : c.isAlpha = true := Bool.or_eq_true_iff.2 (.inl h)
  exact Bool.or_eq_true_iff.2 (.inl halpha)

theorem isIdentifierStart_of_isDigit {c : Char} (h : c.isDigit = true) :
    isIdentifierStart c = false :=
  forall_isAlphanum (P := fun c => c.isDigit = true → isIdentifierStart c = false)
    (by decide) (isAlphanum_of_isDigit h) h

/-- The keywords of C++ and the words that stand for operators. -/
def reservedWords : List Text :=
  ["alignas", "alignof", "and", "and_eq", "asm", "auto", "bitand", "bitor", "bool", "break", "case",
    "catch", "char", "char8_t", "char16_t", "char32_t", "class", "co_await", "co_return",
    "co_yield", "compl", "concept", "const", "const_cast", "consteval", "constexpr", "constinit",
    "continue", "decltype", "default", "delete", "do", "double", "dynamic_cast", "else", "enum",
    "explicit", "export", "extern", "false", "float", "for", "friend", "goto", "if", "inline",
    "int", "long", "mutable", "namespace", "new", "noexcept", "not", "not_eq", "nullptr",
    "operator", "or", "or_eq", "private", "protected", "public", "register", "reinterpret_cast",
    "requires", "return", "short", "signed", "sizeof", "static", "static_assert", "static_cast",
    "struct", "switch", "template", "this", "thread_local", "throw", "true", "try", "typedef",
    "typeid", "typename", "union", "unsigned", "using", "virtual", "void", "volatile", "wchar_t",
    "while", "xor", "xor_eq"]

/-- The name can be declared: it is an identifier and no reserved word. -/
def IsDeclarable (name : Text) : Prop := name.isIdentifier = true ∧ name ∉ reservedWords

/-- Reserved words begin with a small letter. -/
theorem head_of_mem_reservedWords (h : name ∈ reservedWords) :
    name.head?.any Char.isUpper = false := by
  have hall : ∀ word ∈ reservedWords, word.head?.any Char.isUpper = false := by decide +kernel
  exact hall name h

/-- A name in Pascal case can be declared with anything behind it that an identifier can hold. -/
theorem isDeclarable_append (h : IsPascal a)
    (hb : ∀ c ∈ b, isIdentifierPart c = true) : IsDeclarable (a ++ b) := by
  have hpart := h.isIdentifierPart
  obtain ⟨c, t, rfl, hc, -⟩ := h
  constructor
  · refine Bool.and_eq_true_iff.2 ⟨isIdentifierStart_of_isUpper hc, ?_⟩
    apply List.all_eq_true.2
    intro d hd
    rcases List.mem_append.1 hd with hd | hd
    · exact hpart d (List.mem_cons_of_mem c hd)
    · exact hb d hd
  · intro hmem
    have hlower := head_of_mem_reservedWords hmem
    exact Bool.false_ne_true (hlower.symm.trans hc)

theorem IsPascal.isDeclarable (h : IsPascal name) : IsDeclarable name := by
  have hempty := isDeclarable_append h (b := []) fun _ hc => absurd hc List.not_mem_nil
  rwa [List.append_nil] at hempty

/-- A name in Pascal case fails to be an identifier in two ways only. -/
theorem isIdentifier_pascalCase (name : Text) :
    name.pascalCase.isIdentifier = !name.pascalCase.head?.all Char.isDigit := by
  cases hcase : name.pascalCase with
  | nil => rfl
  | cons c t =>
    have hpart : t.all isIdentifierPart = true := by
      apply List.all_eq_true.2
      intro d hd
      apply isIdentifierPart_of_isAlphanum
      exact Text.isAlphanum_of_mem_pascalCase (hcase ▸ List.mem_cons_of_mem c hd)
    rw [Text.isIdentifier, hpart, Bool.and_true, List.head?_cons, Option.all_some]
    rcases Text.pascalCase_head hcase with hupper | hdigit
    · have hletter : c.isDigit = false := by
        apply Bool.eq_false_iff.2
        intro hdigit
        have hstart := isIdentifierStart_of_isUpper hupper
        exact Bool.false_ne_true ((isIdentifierStart_of_isDigit hdigit).symm.trans hstart)
      rw [isIdentifierStart_of_isUpper hupper, hletter]
      rfl
    · rw [isIdentifierStart_of_isDigit hdigit, hdigit]
      rfl

/-! ## Base forms -/

/-- The Pascal case of a symbol, behind `Sym` if it is empty or begins with a digit. -/
def baseForm (symbol : Text) : Text :=
  if symbol.pascalCase.head?.all Char.isDigit then "Sym" ++ symbol.pascalCase
  else symbol.pascalCase

theorem accessorName_eq_baseForm (symbol : Text) : accessorName symbol = baseForm symbol := by
  rw [accessorName, Text.identifierBehind, isIdentifier_pascalCase, baseForm]
  cases symbol.pascalCase.head?.all Char.isDigit <;> rfl

namespace Toggle

/-- An accessor can be declared. -/
theorem isDeclarable_accessor (h : t ∈ ofSymbols s) : IsDeclarable t.accessor := by
  have hname := isPascal_accessorName t.symbol
  rcases accessor_eq_of_mem_bindFrom h with heq | heq
  · rw [heq]
    exact hname.isDeclarable
  · rw [heq]
    apply isDeclarable_append hname
    intro c hc
    exact isIdentifierPart_of_mem_numbered hname.isIdentifierPart c
      (List.mem_append_right (accessorName t.symbol) hc)

/-! ## Binding -/

/-- Of the names in use, those without an underscore are the base forms of the symbols seen. -/
def Covers (seen taken : List Text) : Prop :=
  ∀ name, '_' ∉ name → (name ∈ taken ↔ name ∈ seen.map accessorName)

theorem Covers.nil : Covers [] [] := fun _ _ => Iff.rfl

theorem Covers.accessorAt_eq (h : Covers seen taken) (bit : Nat) (symbol : Text) :
    accessorAt bit taken symbol =
      if accessorName symbol ∈ seen.map accessorName then numbered (accessorName symbol) bit
      else accessorName symbol :=
  if_congr (h _ (isPascal_accessorName symbol).underscore_notMem) rfl rfl

/-- A numbered name has an underscore, so it is not the base form of any symbol. -/
theorem Covers.concat (h : Covers seen taken) (bit : Nat) (symbol : Text) :
    Covers (seen ++ [symbol]) (accessorAt bit taken symbol :: taken) := by
  intro name hname
  rw [List.mem_cons, h name hname, List.map_append, List.mem_append, List.map_singleton,
    List.mem_singleton, h.accessorAt_eq]
  split
  · next hseen =>
    constructor
    · rintro (rfl | hmem)
      · exact absurd (List.mem_append_right _ List.mem_cons_self) hname
      · exact .inl hmem
    · rintro (hmem | rfl)
      · exact .inr hmem
      · exact .inr hseen
  · exact or_comm

/-- The toggle of a symbol that has a bit in a list of symbols. -/
def ofBit (names : List Text) (bit : Nat) (symbol : Text) : Toggle where
  symbol := symbol
  accessor :=
    if baseForm symbol ∈ (names.take bit).map baseForm then
      baseForm symbol ++ '_' :: Text.decimal bit
    else baseForm symbol
  bit := bit

theorem bindFrom_eq_mapIdx (h : Covers seen taken) (l : List Text) :
    bindFrom seen.length taken l = l.mapIdx fun i => ofBit (seen ++ l) (seen.length + i) := by
  induction l generalizing seen taken with
  | nil => rfl
  | cons symbol l ih =>
    have hrest := ih (h.concat seen.length symbol)
    have hfirst : accessorAt seen.length taken symbol =
        (ofBit (seen ++ symbol :: l) seen.length symbol).accessor := by
      rw [h.accessorAt_eq, ofBit, List.take_left, accessorName_eq_baseForm,
        funext accessorName_eq_baseForm]
      rfl
    rw [List.length_append, List.length_singleton, List.append_assoc,
      List.singleton_append] at hrest
    rw [bindFrom_cons, hrest, hfirst, List.mapIdx_cons]
    simp only [Nat.add_assoc, Nat.add_comm 1]
    rfl

/-- The toggles of the symbols, each made from the symbols before it. -/
theorem ofSymbols_eq_mapIdx (s : Symbols) :
    ofSymbols s = s.names.mapIdx fun i => ofBit s.names i := by
  have h := bindFrom_eq_mapIdx Covers.nil s.names
  simp only [List.length_nil, Nat.zero_add, List.nil_append] at h
  exact h

end Toggle

/-! ## Shaders -/

namespace VariantShader

variable {fileName : Text} {c : Capture}

theorem splitStage_of_ne_nil (stage : Stage) {lines : List Text} (h : lines ≠ []) :
    ∃ text, splitStage stage lines = .ok text := by
  obtain ⟨first, rest, rfl⟩ := List.exists_cons_of_ne_nil h
  exact ⟨⟨first, rest⟩, rfl⟩

/-- Nothing else keeps a capture from giving a shader. -/
theorem exists_ofCapture_eq_ok (hname : isIncludable fileName = true) (hvertex : c.vertex ≠ [])
    (hfragment : c.fragment ≠ []) (hsize : c.symbols.size ≤ Toggle.maxCount) :
    ∃ s, ofCapture fileName c = .ok s ∧ s.toggles = Toggle.ofSymbols c.symbols := by
  obtain ⟨vertex, hv⟩ := splitStage_of_ne_nil .vertex hvertex
  obtain ⟨fragment, hf⟩ := splitStage_of_ne_nil .fragment hfragment
  refine ⟨⟨fileName, ShaderVariants.typeName fileName, vertex, fragment,
    Toggle.ofSymbols c.symbols⟩, ?_, rfl⟩
  rw [ofCapture, if_pos hname, hv, hf]
  simp only [bind, Except.bind, if_pos hsize]
  rfl

end VariantShader

theorem isDeclarable_typeName_append (fileName : Text) {ending : String}
    (h : ending.toList.all Char.isAlphanum = true) : IsDeclarable (typeName fileName ++ ending) := by
  apply isDeclarable_append (isPascal_typeName fileName)
  intro c hc
  rw [Text.ofString_eq_toList] at hc
  exact isIdentifierPart_of_isAlphanum (List.all_eq_true.1 h c hc)

/-- Symbols that fit a mask are bound, each to its bit and to its base form, with the bit behind it
    exactly if an earlier symbol has the same base form. The accessors are distinct, and they and
    the names of the types for any file name can be declared. -/
theorem toggles_named (symbols : Symbols) (hsize : symbols.size ≤ Toggle.maxCount)
    (fileName : Text) :
    (∀ c : Capture, c.symbols = symbols → isIncludable fileName = true → c.vertex ≠ [] →
      c.fragment ≠ [] → ∃ s, VariantShader.ofCapture fileName c = .ok s ∧
        s.toggles = Toggle.ofSymbols symbols) ∧
    (Toggle.ofSymbols symbols = symbols.names.mapIdx fun i symbol => {
      symbol := symbol
      accessor :=
        if ∃ earlier ∈ symbols.names.take i, baseForm earlier = baseForm symbol then
          baseForm symbol ++ '_' :: Text.decimal i
        else baseForm symbol
      bit := i }) ∧
    ((Toggle.ofSymbols symbols).map Toggle.accessor).Nodup ∧
    (∀ t ∈ Toggle.ofSymbols symbols, IsDeclarable t.accessor) ∧
    IsDeclarable (typeName fileName) ∧
    ∀ s : VariantShader, s.typeName = typeName fileName →
      IsDeclarable s.sourcesType ∧ IsDeclarable s.configType := by
  refine ⟨?_, ?_, Toggle.nodup_accessor_ofSymbols symbols,
    fun t => Toggle.isDeclarable_accessor, (isPascal_typeName fileName).isDeclarable, ?_⟩
  · intro c hc hname hvertex hfragment
    subst hc
    exact VariantShader.exists_ofCapture_eq_ok hname hvertex hfragment hsize
  · rw [Toggle.ofSymbols_eq_mapIdx]
    congr 1
    funext i symbol
    simp only [Toggle.ofBit, List.mem_map]
  · intro s hs
    rw [VariantShader.sourcesType, VariantShader.configType, hs]
    exact ⟨isDeclarable_typeName_append fileName (by decide),
      isDeclarable_typeName_append fileName (by decide)⟩

/-- Symbols of which two pairs have the same base form, and one has no letters or digits. -/
def collidingSymbols : Symbols := Symbols.ofList ["USE_FOG", "_2D", "use-fog", "2d", "é"]

/-- Their accessors, and a shader that is bound to them. -/
theorem toggles_named_colliding :
    collidingSymbols.size ≤ Toggle.maxCount ∧
      (Toggle.ofSymbols collidingSymbols).map Toggle.accessor =
        ["UseFog", "Sym2d", "UseFog_2", "Sym2d_3", "Sym"] ∧
      ∃ s, VariantShader.ofCapture "2d.glsl" ⟨[], ["v\n"], ["f\n"], collidingSymbols⟩ = .ok s ∧
        s.toggles = Toggle.ofSymbols collidingSymbols := by
  have hsize : collidingSymbols.size ≤ Toggle.maxCount := by decide +kernel
  obtain ⟨hbound, htoggles, -⟩ := toggles_named collidingSymbols hsize "2d.glsl"
  refine ⟨hsize, ?_, ?_⟩
  · rw [htoggles]
    decide +kernel
  · exact hbound _ rfl (by decide +kernel) nofun nofun

end ShaderVariants
