import ShaderVariants.Proofs.Generated.Files

/-!
# Characters of the generated lines

Text from outside reaches a generated line as a name, as the value of a literal, in a
comment, or between the quotes of the `#include`. Whichever way it takes, it brings no
character that ends a line, and only a comment can hold a slash of it.
-/

namespace ShaderVariants

/-! ## Texts without certain characters -/

namespace Text

variable {chars chars' : List Char} {t u : Text} {c : Char}

/-- None of the characters stands in the text. -/
def Lacks (chars : List Char) (t : Text) : Prop := ∀ c ∈ t, c ∉ chars

instance : Decidable (Lacks chars t) := List.decidableBAll (· ∉ chars) t

theorem lacks_nil (chars : List Char) : Lacks chars [] := fun _ h => absurd h List.not_mem_nil

@[simp] theorem lacks_append : Lacks chars (t ++ u) ↔ Lacks chars t ∧ Lacks chars u :=
  List.forall_mem_append

/-- A fixed text is checked character by character. -/
@[simp] theorem lacks_ofString {s : String} : Lacks chars (ofString s) ↔ Lacks chars s.toList := by
  rw [ofString_eq_toList]

theorem Lacks.mono (h : Lacks chars t) (hsub : chars' ⊆ chars) : Lacks chars' t :=
  fun c hc hmem => h c hc (hsub hmem)

theorem Lacks.notMem (h : Lacks chars t) (hc : c ∈ chars) : c ∉ t := fun hmem => h c hmem hc

/-- A text whose characters all have what the others lack has none of the others. -/
theorem lacks_of_forall {P : Char → Prop} [DecidablePred P] (ht : ∀ c ∈ t, P c)
    (hchars : chars.any (P ·) = false) : Lacks chars t := by
  intro c hc hmem
  have hnot := List.any_eq_false.1 hchars c hmem
  exact hnot (decide_eq_true (ht c hc))

/-- The characters that end a line. -/
def lineBreaks : List Char := ['\n', '\r']

/-- The characters that end a line, and the one that a comment begins with. -/
def codeBreaks : List Char := '/' :: lineBreaks

theorem Lacks.lineBreaks (h : Lacks codeBreaks t) : Lacks Text.lineBreaks t :=
  h.mono (List.subset_cons_self _ _)

theorem Lacks.newline_notMem (h : Lacks Text.lineBreaks t) : '\n' ∉ t := h.notMem (by decide)

theorem Lacks.return_notMem (h : Lacks Text.lineBreaks t) : '\r' ∉ t := h.notMem (by decide)

theorem Lacks.slash_notMem (h : Lacks codeBreaks t) : '/' ∉ t := h.notMem (by decide)

theorem IsWord.lacks (h : t.IsWord) : Lacks Text.lineBreaks t :=
  lacks_of_forall h.2 (by decide)

end Text

open Text

variable {s : VariantShader} {settings : Settings} {line t : Text}

theorem lacks_name (h : Cpp.IsWhole t) : Lacks codeBreaks t :=
  lacks_of_forall h.2 (by decide)

theorem lacks_of_isIncludable (h : isIncludable t = true) : Lacks lineBreaks t :=
  lacks_of_forall (forall_of_isIncludable h) (by decide)

theorem Settings.IsValid.lacks_namespacePath (h : settings.IsValid) :
    Lacks codeBreaks settings.namespacePath := by
  by_cases hpath : settings.namespacePath = []
  · rw [hpath]
    exact lacks_nil _
  · have hchars := isIdentifierPart_or_of_mem_joinScope (h.isWhole hpath)
    rw [joinScope_namespaceSegments] at hchars
    exact lacks_of_forall hchars (by decide)

/-! ## Lines of code -/

/-- Nothing within the line ends it, and it is not for the preprocessor. -/
structure IsCodeLine (line : Text) : Prop where
  lacks : Lacks lineBreaks line
  head?_ne : line.head? ≠ some '#'

theorem isCodeLine_nil : IsCodeLine [] := ⟨lacks_nil _, nofun⟩

theorem isCodeLine_ofString {t : String}
    (ht : Lacks lineBreaks t.toList ∧ t.toList.head? ≠ some '#') : IsCodeLine t :=
  ⟨lacks_ofString.2 ht.1, ofString_eq_toList t ▸ ht.2⟩

/-- A fixed text at the front shows that the line is not for the preprocessor. -/
theorem isCodeLine_behind {t : String} {u : Text}
    (ht : Lacks lineBreaks t.toList ∧ t.toList.head? ≠ some '#' ∧ t.toList ≠ [])
    (hu : Lacks lineBreaks u) : IsCodeLine (t ++ u) := by
  obtain ⟨hlacks, hhead, hne⟩ := ht
  refine ⟨lacks_append.2 ⟨lacks_ofString.2 hlacks, hu⟩, ?_⟩
  obtain ⟨c, rest, heq⟩ := List.exists_cons_of_ne_nil hne
  rw [heq] at hhead
  rw [ofString_eq_toList, heq]
  exact hhead

/-! ## Literals -/

namespace Code

theorem isAsciiControl_digitChar {n : Nat} (h : n < 8) : isAsciiControl n.digitChar = false := by
  revert n
  decide

/-- No escape has a control character in it. -/
theorem isAsciiControl_of_mem_escape {c d : Char} (h : d ∈ escape c) :
    isAsciiControl d = false := by
  unfold escape at h
  split_ifs at h with _ _ _ _ _ hcontrol
  -- the simple escapes are fixed texts
  iterate 5
    · simp only [List.mem_cons, List.not_mem_nil, or_false] at h
      rcases h with rfl | rfl <;> decide
  · have hoctal : ∀ n < 8, ∀ m < 8, ∀ k < 8,
        d ∈ ['\\', n.digitChar, m.digitChar, k.digitChar] → isAsciiControl d = false := by
      intro n hn m hm k hk hmem
      simp only [List.mem_cons, List.not_mem_nil, or_false] at hmem
      rcases hmem with rfl | rfl | rfl | rfl
      · decide
      · exact isAsciiControl_digitChar hn
      · exact isAsciiControl_digitChar hm
      · exact isAsciiControl_digitChar hk
    exact hoctal _ (Nat.mod_lt _ (by decide)) _ (Nat.mod_lt _ (by decide)) _
      (Nat.mod_lt _ (by decide)) h
  · rw [List.mem_singleton.1 h]
    exact Bool.eq_false_iff.2 hcontrol

/-- A literal is written without control characters, whatever text it is for. -/
theorem isAsciiControl_of_mem_literal {c : Char} (h : c ∈ literal t) :
    isAsciiControl c = false := by
  unfold literal at h
  simp only [List.cons_append, List.mem_cons, List.mem_append, List.not_mem_nil, or_false] at h
  rcases h with rfl | h | rfl
  · decide
  · obtain ⟨d, -, hd⟩ := List.mem_flatMap.1 h
    exact isAsciiControl_of_mem_escape hd
  · decide

theorem lacks_literal (t : Text) : Lacks lineBreaks (literal t) :=
  lacks_of_forall (fun _ => isAsciiControl_of_mem_literal) (by decide)

/-! ## Members -/

namespace Member

variable {m : Member} {accessor symbol : Text}

/-- The setter without its comment. -/
def setterLines (accessor : Text) : List Text := (setter accessor []).lines.tail

theorem lines_setter (accessor symbol : Text) :
    (setter accessor symbol).lines = toggleComment symbol :: setterLines accessor := rfl

theorem lacks_setterLines (h : Cpp.IsWhole accessor) :
    ∀ line ∈ setterLines accessor, Lacks codeBreaks line := by
  have hset := lacks_name (isWhole_setterName h)
  have hbit := lacks_name (isWhole_bitName h)
  simp only [setterLines, lines, List.tail_cons, List.forall_mem_cons, lacks_append, lacks_ofString,
    hset, hbit, and_true]
  decide

/-- Only the comment of a setter shows the spelling of a symbol. -/
theorem IsSound.lacks_or (h : m.IsSound) (hline : line ∈ m.lines) :
    Lacks codeBreaks line ∨
      ∃ accessor symbol, m = .setter accessor symbol ∧ line = toggleComment symbol := by
  cases m with
  | bitConstant accessor bit =>
    left
    have hname := lacks_name (isWhole_bitName h)
    have hbit := lacks_name (isWhole_decimal bit)
    rw [lines, List.mem_singleton] at hline
    simp only [hline, lacks_append, lacks_ofString, hname, hbit, and_true]
    decide
  | setter accessor symbol =>
    rw [lines_setter] at hline
    rcases List.mem_cons.1 hline with rfl | hline
    · exact .inr ⟨accessor, symbol, rfl, rfl⟩
    · exact .inl (lacks_setterLines h line hline)
  | getter accessor =>
    left
    have hget := lacks_name (isWhole_getterName h)
    have hbit := lacks_name (isWhole_bitName h)
    rw [lines, List.mem_singleton] at hline
    simp only [hline, lacks_append, lacks_ofString, hget, hbit, and_true]
    decide
  | comparison op configType =>
    left
    have htype := lacks_name (isWhole_of_isPascal h)
    have hop : Lacks codeBreaks op.symbol := by
      cases op <;> exact lacks_ofString.2 (by decide)
    rw [lines, List.mem_singleton] at hline
    simp only [hline, lacks_append, lacks_ofString, htype, hop, and_true]
    decide
  | assembler sourcesType =>
    left
    have htype := lacks_name (isWhole_of_isPascal h)
    rw [lines, List.mem_singleton] at hline
    simp only [hline, lacks_append, lacks_ofString, htype, and_true]
    decide
  | maskGetter =>
    left
    rw [lines, List.mem_singleton] at hline
    rw [hline, lacks_ofString]
    decide
  | maskField =>
    left
    rw [lines, List.mem_singleton] at hline
    rw [hline, lacks_ofString]
    decide

theorem lacks_toggleComment (h : Lacks lineBreaks symbol) :
    Lacks lineBreaks (toggleComment symbol) := by
  simp only [toggleComment, lacks_append, lacks_ofString, h, and_true]
  decide

end Member

/-! ## Statements -/

namespace Statement

variable {a : Statement} {pieces : List Text}

theorem lacks_field (stage : Stage) : Lacks lineBreaks (field stage) := by
  cases stage
  all_goals
    simp only [field, Stage.keyword, lacks_append, lacks_ofString]
    decide

theorem isCodeLine_of_mem_literalLines (hline : line ∈ literalLines pieces) : IsCodeLine line := by
  have hclose : Lacks lineBreaks (";" : Text) := lacks_ofString.2 (by decide)
  induction pieces with
  | nil => exact absurd hline List.not_mem_nil
  | cons piece pieces ih =>
    have hpiece := lacks_literal piece
    cases pieces with
    | nil =>
      rw [List.mem_singleton.1 hline, List.append_assoc]
      exact isCodeLine_behind (by decide) (lacks_append.2 ⟨hpiece, hclose⟩)
    | cons next pieces =>
      rcases List.mem_cons.1 hline with rfl | hline
      · exact isCodeLine_behind (by decide) hpiece
      · exact ih hline

/-- Whatever texts a statement is for, its lines are indented lines of code. -/
theorem IsSound.isCodeLine (h : a.IsSound) : ∀ line ∈ a.lines, IsCodeLine line := by
  have hset : Lacks lineBreaks (" = " : Text) := lacks_ofString.2 (by decide)
  have happend : Lacks lineBreaks (" += " : Text) := lacks_ofString.2 (by decide)
  have hclose : Lacks lineBreaks (";" : Text) := lacks_ofString.2 (by decide)
  cases a with
  | assign stage value =>
    simp only [lines, List.forall_mem_singleton, List.append_assoc]
    apply isCodeLine_behind (by decide)
    simp only [lacks_append, lacks_field, lacks_literal, hset, hclose, and_true]
  | appendIf accessor stage value =>
    have hname := (lacks_name h).lineBreaks
    have hopen : Lacks lineBreaks ("()) \x7b" : Text) := lacks_ofString.2 (by decide)
    simp only [lines, List.forall_mem_cons, List.append_assoc]
    refine ⟨?_, ?_, isCodeLine_ofString (by decide), fun _ hnone => absurd hnone List.not_mem_nil⟩
    · exact isCodeLine_behind (by decide) (lacks_append.2 ⟨hname, hopen⟩)
    · apply isCodeLine_behind (by decide)
      simp only [lacks_append, lacks_field, lacks_literal, happend, hclose, and_true]
  | append stage pieces =>
    have hopen : Lacks lineBreaks (" +=" : Text) := lacks_ofString.2 (by decide)
    intro line hline
    rcases List.mem_cons.1 hline with rfl | hline
    · rw [List.append_assoc]
      exact isCodeLine_behind (by decide) (lacks_append.2 ⟨lacks_field stage, hopen⟩)
    · exact isCodeLine_of_mem_literalLines hline

end Statement

end Code

/-! ## The header -/

namespace Header

/-- The lines of the header within the namespace. -/
def contentLines (s : VariantShader) : List Text := structLines s ++ [[]] ++ classLines s

/-- All lines of the header. -/
def fileLines (s : VariantShader) (settings : Settings) : List Text :=
  Code.frameLines settings s.fileName includeLines (contentLines s)

theorem text_eq (s : VariantShader) (settings : Settings) :
    text s settings = Text.unlines (fileLines s settings) := rfl

/-- The lines for a toggle. -/
def toggleLines (t : Toggle) : List Text :=
  Code.Member.toggleComment t.symbol ::
    (Code.Member.setterLines t.accessor ++ (Code.Member.getter t.accessor).lines ++ [[]])

/-- The lines in front of those for the toggles. -/
def leadingLines (s : VariantShader) : List Text :=
  structLines s ++ [[]] ++ ("class " ++ s.configType ++ " \x7b") :: publicLine ::
    if s.toggles = [] then []
    else (s.toggles.map fun t => Code.Member.bitConstant t.accessor t.bit).flatMap
      Code.Member.lines ++ [[]]

/-- The lines behind those for the toggles. -/
def trailingLines (s : VariantShader) : List Text :=
  [[.maskGetter], Code.Comparison.all.map fun op => .comparison op s.configType,
    [.assembler s.sourcesType]].flatMap (fun group => group.flatMap Code.Member.lines ++ [[]]) ++
      privateLine :: (privateMembers.flatMap Code.Member.lines ++ [endLine])

theorem contentLines_eq (s : VariantShader) :
    contentLines s = leadingLines s ++ s.toggles.flatMap toggleLines ++ trailingLines s := by
  have hconstants : ((if s.toggles = [] then []
      else [s.toggles.map fun t => Code.Member.bitConstant t.accessor t.bit]).flatMap
        fun group => group.flatMap Code.Member.lines ++ [[]]) =
          if s.toggles = [] then []
          else (s.toggles.map fun t => Code.Member.bitConstant t.accessor t.bit).flatMap
            Code.Member.lines ++ [[]] := by
    split
    · rfl
    · exact List.flatMap_singleton _ _
  have htoggles : ((s.toggles.map fun t =>
      [Code.Member.setter t.accessor t.symbol, .getter t.accessor]).flatMap
        fun group => group.flatMap Code.Member.lines ++ [[]]) = s.toggles.flatMap toggleLines := by
    rw [List.flatMap_map]
    rfl
  simp only [contentLines, classLines, publicGroups, List.flatMap_append, hconstants, htoggles,
    leadingLines, trailingLines, List.append_assoc, List.cons_append]

theorem lacks_structLines (h : s.IsSound) : ∀ line ∈ structLines s, Lacks codeBreaks line := by
  have htype := lacks_name (Code.Member.isWhole_of_isPascal h.isPascal_sourcesType)
  simp only [structLines, Stage.all, List.map_cons, List.map_nil, List.cons_append, List.nil_append,
    fieldLine, Stage.keyword, endLine, List.forall_mem_cons, lacks_append, lacks_ofString, htype,
    and_true]
  decide

theorem lacks_or_of_mem_members (h : s.IsSound) {m : Code.Member} (hm : m ∈ members s)
    (hline : line ∈ m.lines) :
    Lacks codeBreaks line ∨ ∃ t ∈ s.toggles, line = Code.Member.toggleComment t.symbol := by
  refine ((h.isSound_member hm).lacks_or hline).imp_right ?_
  rintro ⟨accessor, symbol, rfl, rfl⟩
  rcases mem_members_iff.1 hm with ⟨t, ht, heq | heq | heq⟩ | heq | ⟨op, heq⟩ | heq | heq
  case inl.inr.inl =>
    obtain ⟨-, rfl⟩ := Code.Member.setter.inj heq
    exact ⟨t, ht, rfl⟩
  all_goals exact absurd heq nofun

/-- Only the comments of the toggles show how the symbols are spelled. -/
theorem lacks_or_of_mem_contentLines (h : s.IsSound) (hline : line ∈ contentLines s) :
    Lacks codeBreaks line ∨ ∃ t ∈ s.toggles, line = Code.Member.toggleComment t.symbol := by
  have htype := lacks_name (Code.Member.isWhole_of_isPascal h.isPascal_configType)
  have hclass : Lacks codeBreaks ("class " ++ s.configType ++ " \x7b") := by
    simp only [lacks_append, lacks_ofString, htype, and_true]
    decide
  simp only [contentLines, classLines, List.mem_append, List.mem_cons, List.not_mem_nil, or_false,
    List.mem_flatMap] at hline
  rcases hline with (hline | rfl) | rfl | rfl | ⟨group, hgroup, ⟨m, hm, hline⟩ | rfl⟩ | rfl |
    ⟨m, hm, hline⟩ | rfl
  · exact .inl (lacks_structLines h line hline)
  · exact .inl (lacks_nil _)
  · exact .inl hclass
  · exact .inl (lacks_ofString.2 (by decide))
  · have hmem := List.mem_append_left privateMembers (List.mem_flatten.2 ⟨group, hgroup, hm⟩)
    exact lacks_or_of_mem_members h hmem hline
  · exact .inl (lacks_nil _)
  · exact .inl (lacks_ofString.2 (by decide))
  · exact lacks_or_of_mem_members h (List.mem_append_right _ hm) hline
  · exact .inl (lacks_ofString.2 (by decide))

end Header

/-! ## The definition -/

namespace Definition

theorem isCodeLine_of_mem_functionLines (h : s.IsSound) (hline : line ∈ functionLines s) :
    IsCodeLine line := by
  have hsources := (lacks_name (Code.Member.isWhole_of_isPascal h.isPascal_sourcesType)).lineBreaks
  have hconfig := (lacks_name (Code.Member.isWhole_of_isPascal h.isPascal_configType)).lineBreaks
  have hfirst : IsCodeLine (s.sourcesType ++ " " ++ s.configType ++ "::Assemble() const") := by
    constructor
    · simp only [lacks_append, lacks_ofString, hsources, hconfig, and_true]
      decide
    · obtain ⟨c, t, heq, hc, -⟩ := h.isPascal_sourcesType
      rw [heq]
      rintro hhash
      obtain rfl : c = '#' := Option.some.inj hhash
      exact absurd hc (by decide)
  have hresult : IsCodeLine ("    " ++ s.sourcesType ++ " sources \x7b\x7d;") := by
    rw [List.append_assoc]
    exact isCodeLine_behind (by decide) (lacks_append.2 ⟨hsources, lacks_ofString.2 (by decide)⟩)
  simp only [functionLines, List.mem_append, List.mem_cons, List.not_mem_nil, or_false,
    List.mem_flatMap] at hline
  rcases hline with ((rfl | rfl | rfl) | ⟨stage, -, rfl | ⟨a, ha, hline⟩⟩) | rfl | rfl | rfl
  · exact hfirst
  · exact isCodeLine_ofString (by decide)
  · exact hresult
  · exact isCodeLine_nil
  · exact (h.isSound_statement ha).isCodeLine line hline
  · exact isCodeLine_nil
  · exact isCodeLine_ofString (by decide)
  · exact isCodeLine_ofString (by decide)

end Definition

/-! ## The frame -/

namespace Code

variable {fileName : Text} {outside inside : List Text}

theorem isCodeLine_of_mem_bannerLines (h : isIncludable fileName = true)
    (hline : line ∈ bannerLines settings fileName) : IsCodeLine line := by
  unfold bannerLines at hline
  split at hline
  · simp only [List.mem_cons, List.not_mem_nil, or_false] at hline
    rcases hline with rfl | rfl | rfl | rfl
    · exact isCodeLine_ofString (by decide)
    · exact isCodeLine_behind (by decide) (lacks_of_isIncludable h)
    · exact isCodeLine_ofString (by decide)
    · exact isCodeLine_nil
  · exact absurd hline List.not_mem_nil

theorem isCodeLine_of_mem_openingLines (h : settings.IsValid)
    (hline : line ∈ openingLines settings) : IsCodeLine line := by
  unfold openingLines at hline
  split at hline
  · exact absurd hline List.not_mem_nil
  · simp only [List.mem_cons, List.not_mem_nil, or_false] at hline
    rcases hline with rfl | rfl
    · rw [List.append_assoc]
      exact isCodeLine_behind (by decide)
        (lacks_append.2 ⟨h.lacks_namespacePath.lineBreaks, lacks_ofString.2 (by decide)⟩)
    · exact isCodeLine_nil

theorem isCodeLine_of_mem_closingLines (h : settings.IsValid)
    (hline : line ∈ closingLines settings) : IsCodeLine line := by
  unfold closingLines at hline
  split at hline
  · exact absurd hline List.not_mem_nil
  · simp only [List.mem_cons, List.not_mem_nil, or_false] at hline
    rcases hline with rfl | rfl
    · exact isCodeLine_nil
    · exact isCodeLine_behind (by decide) h.lacks_namespacePath.lineBreaks

/-- The frame keeps lines apart if what it is made for does. -/
theorem lacks_frameLines (hvalid : settings.IsValid) (hname : isIncludable fileName = true)
    (houtside : ∀ line ∈ outside, Lacks lineBreaks line)
    (hinside : ∀ line ∈ inside, Lacks lineBreaks line) :
    ∀ line ∈ frameLines settings fileName outside inside, Lacks lineBreaks line := by
  intro line hline
  simp only [frameLines, List.mem_append] at hline
  rcases hline with (((hline | hline) | hline) | hline) | hline
  · exact (isCodeLine_of_mem_bannerLines hname hline).lacks
  · exact houtside line hline
  · exact (isCodeLine_of_mem_openingLines hvalid hline).lacks
  · exact hinside line hline
  · exact (isCodeLine_of_mem_closingLines hvalid hline).lacks

end Code

/-! ## The files -/

namespace Header

theorem lacks_of_mem_fileLines (h : s.IsSound) (hvalid : settings.IsValid)
    (hsymbols : ∀ t ∈ s.toggles, t.symbol.IsWord) :
    ∀ line ∈ fileLines s settings, Lacks lineBreaks line := by
  apply Code.lacks_frameLines hvalid h.includable
  · simp only [includeLines, List.forall_mem_cons, lacks_ofString]
    decide
  · intro line hline
    rcases lacks_or_of_mem_contentLines h hline with hlacks | ⟨t, ht, rfl⟩
    · exact hlacks.lineBreaks
    · exact Code.Member.lacks_toggleComment (hsymbols t ht).lacks

end Header

namespace Definition

/-- All lines of the definition. -/
def fileLines (s : VariantShader) (settings : Settings) : List Text :=
  Code.frameLines settings s.fileName (includeLines s) (functionLines s)

theorem text_eq (s : VariantShader) (settings : Settings) :
    text s settings = Text.unlines (fileLines s settings) := rfl

theorem lacks_of_mem_fileLines (h : s.IsSound) (hvalid : settings.IsValid) :
    ∀ line ∈ fileLines s settings, Lacks lineBreaks line := by
  have hname := lacks_of_isIncludable h.includable
  apply Code.lacks_frameLines hvalid h.includable
  · simp only [includeLines, Header.fileName, List.forall_mem_cons, lacks_append, lacks_ofString,
      hname]
    decide
  · intro line hline
    exact (isCodeLine_of_mem_functionLines h hline).lacks

end Definition

end ShaderVariants
