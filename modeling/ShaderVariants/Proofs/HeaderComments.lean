import ShaderVariants.Proofs.ArtifactLines
import ShaderVariants.Proofs.Cpp.Comments

/-!
# Comments of the header

The header spells a symbol in one place, the comment above its setter. A symbol without
the mark that closes comments leaves nothing there, and the code of the header knows it by
its accessor and its bit alone. A symbol with the mark closes the comment early, and what it
has behind the mark is code.
-/

namespace ShaderVariants

open Cpp

variable {settings : Settings} {s s₁ s₂ : VariantShader} {line fileName : Text}

/-! ## The comment of a toggle -/

namespace Code.Member

variable {symbol body : Text}

theorem slash_notMem_indent : '/' ∉ ("    " : Text) := by
  rw [Text.ofString_eq_toList]
  decide

/-- The comment ends with its line just where the symbol does not end it. -/
theorem closesAtEnd_toggleComment_iff :
    ClosesAtEnd (toggleComment symbol) ↔ ¬closeMark <:+: symbol := by
  rw [toggleComment_eq, closesAtEnd_iff slash_notMem_indent, closeMark_isInfix_iff]

theorem withoutComments_toggleComment (h : ¬closeMark <:+: symbol) :
    withoutComments (toggleComment symbol) = "    " := by
  have hbody := mt (closeMark_isInfix_iff symbol).1 h
  have hcode := withoutComments_blockComment slash_notMem_indent hbody []
  have hnone : withoutComments [] = [] := rfl
  rwa [List.append_nil, hnone, List.append_nil, ← toggleComment_eq] at hcode

theorem map_withoutComments_toggleComment {l : List Toggle}
    (h : ∀ t ∈ l, ¬closeMark <:+: t.symbol) :
    (l.map fun t => withoutComments (toggleComment t.symbol)) =
      List.replicate l.length ("    " : Text) := by
  apply List.map_eq_replicate_iff.2
  intro t ht
  exact withoutComments_toggleComment (h t ht)

/-- What stands in a symbol behind its first mark is code. -/
theorem withoutComments_toggleComment_append (h : ¬closeMark <:+: body ++ ['*']) (rest : Text) :
    withoutComments (toggleComment (body ++ closeMark ++ rest)) =
      "    " ++ withoutComments (rest ++ "` */") := by
  have hbody := closeMark_notIn_behind h
  rw [← List.append_assoc] at hbody
  have hcode := withoutComments_blockComment slash_notMem_indent hbody (rest ++ "` */")
  rw [← hcode, toggleComment, opening_eq]
  simp only [List.append_assoc, List.cons_append]

/-- Behind the line of the comment no comment goes on, whatever the symbol. -/
theorem isOver_toggleComment (symbol : Text) : Comment.IsOver (toggleComment symbol) := by
  have hclose : ∀ p, ¬Comment.InBlock (Comment.run p "` */").2 := by
    intro p
    rw [Text.ofString_ofList]
    rintro (h | h) <;> cases p <;> revert h <;> decide
  rw [Comment.IsOver, toggleComment, Comment.run_append rfl rfl]
  exact hclose _

end Code.Member

/-! ## Lines without comments -/

namespace Code

/-- The banner is all comment. -/
theorem comment_of_mem_bannerLines (h : isIncludable fileName = true)
    (hline : line ∈ bannerLines settings fileName) :
    Comment.IsOver line ∧ withoutComments line = [] := by
  have hcomment {body : Text} (hbody : '\n' ∉ body) :
      Comment.IsOver ([] ++ '/' :: '/' :: body) ∧ withoutComments ([] ++ '/' :: '/' :: body) = [] :=
    ⟨Comment.isOver_lineComment List.not_mem_nil hbody,
      withoutComments_lineComment List.not_mem_nil hbody⟩
  unfold bannerLines at hline
  split at hline
  · simp only [List.mem_cons, List.not_mem_nil, or_false] at hline
    rcases hline with rfl | rfl | rfl | rfl
    · rw [Text.ofString_ofList]
      exact hcomment (by decide)
    · rw [Text.ofString_ofList]
      apply hcomment
      rw [List.append_eq, List.mem_append, not_or]
      exact ⟨by decide, notMem_of_isIncludable h (by decide)⟩
    · rw [Text.ofString_ofList]
      exact hcomment (by decide)
    · exact ⟨Comment.isOver_of_slash_notMem List.not_mem_nil, rfl⟩
  · exact absurd hline List.not_mem_nil

theorem map_withoutComments_bannerLines (h : isIncludable fileName = true) :
    (bannerLines settings fileName).map withoutComments =
      List.replicate (if settings.banner then 4 else 0) [] := by
  rw [← length_bannerLines settings fileName]
  apply List.map_eq_replicate_iff.2
  intro line hline
  exact (comment_of_mem_bannerLines h hline).2

theorem isOver_of_mem_openingLines (h : settings.IsValid) (hline : line ∈ openingLines settings) :
    Comment.IsOver line := by
  apply Comment.isOver_of_slash_notMem
  have hpath := h.lacks_namespacePath
  have hlacks : ∀ line ∈ openingLines settings, Text.Lacks Text.codeBreaks line := by
    unfold openingLines
    split
    · exact fun _ hmem => absurd hmem List.not_mem_nil
    · simp only [List.forall_mem_cons, Text.lacks_append, Text.lacks_ofString, hpath, and_true]
      decide
  exact (hlacks line hline).slash_notMem

theorem isOver_of_mem_closingLines (h : settings.IsValid) (hline : line ∈ closingLines settings) :
    Comment.IsOver line := by
  unfold closingLines at hline
  split at hline
  · exact absurd hline List.not_mem_nil
  · simp only [List.mem_cons, List.not_mem_nil, or_false] at hline
    rcases hline with rfl | rfl
    · exact Comment.isOver_of_slash_notMem List.not_mem_nil
    · have hcut : "\x7d // namespace " ++ settings.namespacePath =
          "\x7d " ++ '/' :: '/' :: (" namespace " ++ settings.namespacePath) := by
        repeat rw [Text.ofString_ofList]
        rfl
      have hpath := h.lacks_namespacePath.lineBreaks.newline_notMem
      rw [hcut]
      apply Comment.isOver_lineComment
      · rw [Text.ofString_eq_toList]
        decide
      · rw [List.mem_append, not_or, Text.ofString_eq_toList]
        exact ⟨by decide, hpath⟩

end Code

/-! ## The header -/

namespace Header

theorem isOver_of_mem_fileLines (h : s.IsSound) (hvalid : settings.IsValid)
    (hline : line ∈ fileLines s settings) : Comment.IsOver line := by
  have hinclude : ∀ line ∈ includeLines, Text.Lacks Text.codeBreaks line := by
    simp only [includeLines, List.forall_mem_cons, Text.lacks_ofString]
    decide
  simp only [fileLines, Code.frameLines, List.mem_append] at hline
  rcases hline with (((hline | hline) | hline) | hline) | hline
  · exact (Code.comment_of_mem_bannerLines h.includable hline).1
  · exact Comment.isOver_of_slash_notMem (hinclude line hline).slash_notMem
  · exact Code.isOver_of_mem_openingLines hvalid hline
  · rcases lacks_or_of_mem_contentLines h hline with hlacks | ⟨t, -, rfl⟩
    · exact Comment.isOver_of_slash_notMem hlacks.slash_notMem
    · exact Code.Member.isOver_toggleComment t.symbol
  · exact Code.isOver_of_mem_closingLines hvalid hline

variable (htype : s₁.typeName = s₂.typeName)
  (htoggles : (s₁.toggles.map fun t => (t.accessor, t.bit)) =
    s₂.toggles.map fun t => (t.accessor, t.bit))

include htype htoggles in
theorem leadingLines_congr : leadingLines s₁ = leadingLines s₂ := by
  have hnone : s₁.toggles = [] ↔ s₂.toggles = [] := by
    rw [← List.map_eq_nil_iff, htoggles, List.map_eq_nil_iff]
  have hconstants : (s₁.toggles.map fun t => Code.Member.bitConstant t.accessor t.bit) =
      s₂.toggles.map fun t => Code.Member.bitConstant t.accessor t.bit := by
    have hpairs := congrArg (List.map fun p => Code.Member.bitConstant p.1 p.2) htoggles
    rwa [List.map_map, List.map_map] at hpairs
  simp only [leadingLines, structLines, VariantShader.sourcesType, VariantShader.configType, htype,
    hnone, hconstants]

include htype in
theorem trailingLines_congr : trailingLines s₁ = trailingLines s₂ := by
  simp only [trailingLines, VariantShader.sourcesType, VariantShader.configType, htype]

/-- Toggles with the same accessors differ in what their comments leave, or in nothing. -/
theorem map_flatMap_toggleLines_eq_iff {l l' : List Toggle}
    (h : l.map Toggle.accessor = l'.map Toggle.accessor) :
    (l.flatMap toggleLines).map withoutComments = (l'.flatMap toggleLines).map withoutComments ↔
      (l.map fun t => withoutComments (Code.Member.toggleComment t.symbol)) =
        l'.map fun t => withoutComments (Code.Member.toggleComment t.symbol) := by
  induction l generalizing l' with
  | nil =>
    obtain rfl := List.map_eq_nil_iff.1 h.symm
    exact iff_of_true rfl rfl
  | cons t l ih =>
    cases l' with
    | nil => exact absurd h (List.cons_ne_nil _ _)
    | cons t' l' =>
      obtain ⟨haccessor, hrest⟩ := List.cons.inj h
      simp only [List.flatMap_cons, toggleLines, List.map_append, List.map_cons, List.cons_append,
        List.cons.injEq, haccessor, List.append_right_inj]
      exact and_congr_right' (ih hrest)

/-- The lines of the header without comments. -/
def codeLines (s : VariantShader) (settings : Settings) : List Text :=
  (fileLines s settings).map withoutComments

theorem withoutComments_text (h : s.IsSound) (hvalid : settings.IsValid) :
    withoutComments (text s settings) = Text.unlines (codeLines s settings) := by
  rw [text_eq]
  apply withoutComments_unlines
  intro line hline
  exact isOver_of_mem_fileLines h hvalid hline

theorem newline_notMem_codeLines (h : s.IsSound) (hvalid : settings.IsValid)
    (hsymbols : ∀ t ∈ s.toggles, t.symbol.IsWord) : ∀ line ∈ codeLines s settings, '\n' ∉ line := by
  intro code hcode
  obtain ⟨line, hline, rfl⟩ := List.mem_map.1 hcode
  apply newline_notMem_withoutComments
  exact (lacks_of_mem_fileLines h hvalid hsymbols line hline).newline_notMem

theorem toggleComment_mem_lines (h : s.IsSound) (hvalid : settings.IsValid)
    (hsymbols : ∀ t ∈ s.toggles, t.symbol.IsWord) {t : Toggle} (ht : t ∈ s.toggles) :
    Code.Member.toggleComment t.symbol ++ ['\n'] ∈ (text s settings).lines := by
  have hbreaks : ∀ line ∈ fileLines s settings, '\n' ∉ line := fun line hline =>
    (lacks_of_mem_fileLines h hvalid hsymbols line hline).newline_notMem
  have hblock : Code.Member.toggleComment t.symbol ∈ s.toggles.flatMap toggleLines :=
    List.mem_flatMap.2 ⟨t, ht, List.mem_cons_self⟩
  rw [text_eq, Text.lines_unlines hbreaks]
  apply List.mem_map_of_mem
  simp only [fileLines, Code.frameLines, contentLines_eq, List.mem_append, hblock, true_or, or_true]

include htype htoggles in
/-- The code of the header is that of its fixed parts and what the comments leave. -/
theorem codeLines_eq_iff (h₁ : s₁.IsSound) (h₂ : s₂.IsSound) :
    codeLines s₁ settings = codeLines s₂ settings ↔
      (s₁.toggles.map fun t => withoutComments (Code.Member.toggleComment t.symbol)) =
        s₂.toggles.map fun t => withoutComments (Code.Member.toggleComment t.symbol) := by
  have haccessors : s₁.toggles.map Toggle.accessor = s₂.toggles.map Toggle.accessor := by
    have hfirst := congrArg (List.map Prod.fst) htoggles
    rwa [List.map_map, List.map_map] at hfirst
  simp only [codeLines, fileLines, Code.frameLines, contentLines_eq, List.map_append,
    Code.map_withoutComments_bannerLines h₁.includable,
    Code.map_withoutComments_bannerLines h₂.includable, leadingLines_congr htype htoggles,
    trailingLines_congr htype, List.append_left_inj, List.append_right_inj]
  exact map_flatMap_toggleLines_eq_iff haccessors

end Header

/-- Two headers for the same type, accessors and bits have the same code exactly if the comments of
    their toggles leave the same code, and so if no symbol has a `*/`. Such a comment stands on a
    line of the header. It ends with its line exactly if the symbol has no `*/`, and then it leaves
    nothing but the indent; otherwise what stands in the symbol behind the first `*/` is code. -/
theorem header_code_eq_iff {fileName₁ fileName₂ source₁ source₂ : Text} (hvalid : settings.IsValid)
    (h₁ : (VariantShader.ofSource fileName₁ source₁).result = .ok s₁)
    (h₂ : (VariantShader.ofSource fileName₂ source₂).result = .ok s₂)
    (htype : s₁.typeName = s₂.typeName)
    (htoggles : (s₁.toggles.map fun t => (t.accessor, t.bit)) =
      s₂.toggles.map fun t => (t.accessor, t.bit)) :
    (withoutComments (Header.text s₁ settings) = withoutComments (Header.text s₂ settings) ↔
      (s₁.toggles.map fun t => withoutComments (Code.Member.toggleComment t.symbol)) =
        s₂.toggles.map fun t => withoutComments (Code.Member.toggleComment t.symbol)) ∧
    ((∀ t ∈ s₁.toggles ++ s₂.toggles, ¬closeMark <:+: t.symbol) →
      withoutComments (Header.text s₁ settings) = withoutComments (Header.text s₂ settings)) ∧
    ∀ s ∈ [s₁, s₂], ∀ t ∈ s.toggles,
      let comment := Code.Member.toggleComment t.symbol
      comment ++ ['\n'] ∈ (Header.text s settings).lines ∧
      (ClosesAtEnd comment ↔ ¬closeMark <:+: t.symbol) ∧
      (¬closeMark <:+: t.symbol → withoutComments comment = "    ") ∧
      ∀ body rest, t.symbol = body ++ closeMark ++ rest → ¬closeMark <:+: body ++ ['*'] →
        withoutComments comment = "    " ++ withoutComments (rest ++ "` */") := by
  obtain ⟨c₁, hsource₁, hholds₁⟩ := VariantShader.holds_of_ofSource h₁
  obtain ⟨c₂, hsource₂, hholds₂⟩ := VariantShader.holds_of_ofSource h₂
  have hsound₁ := hholds₁.isSound
  have hsound₂ := hholds₂.isSound
  have hsymbols₁ : ∀ t ∈ s₁.toggles, t.symbol.IsWord := fun _ => hholds₁.isWord_symbol hsource₁
  have hsymbols₂ : ∀ t ∈ s₂.toggles, t.symbol.IsWord := fun _ => hholds₂.isWord_symbol hsource₂
  have hcode : withoutComments (Header.text s₁ settings) =
      withoutComments (Header.text s₂ settings) ↔
        (s₁.toggles.map fun t => withoutComments (Code.Member.toggleComment t.symbol)) =
          s₂.toggles.map fun t => withoutComments (Code.Member.toggleComment t.symbol) := by
    rw [Header.withoutComments_text hsound₁ hvalid, Header.withoutComments_text hsound₂ hvalid,
      Text.unlines_inj (Header.newline_notMem_codeLines hsound₁ hvalid hsymbols₁)
        (Header.newline_notMem_codeLines hsound₂ hvalid hsymbols₂)]
    exact Header.codeLines_eq_iff htype htoggles hsound₁ hsound₂
  refine ⟨hcode, ?_, ?_⟩
  · intro hmarks
    obtain ⟨hmarks₁, hmarks₂⟩ := List.forall_mem_append.1 hmarks
    have hlength : s₁.toggles.length = s₂.toggles.length := by
      rw [← List.length_map (fun t : Toggle => (t.accessor, t.bit)), htoggles, List.length_map]
    rw [hcode, Code.Member.map_withoutComments_toggleComment hmarks₁,
      Code.Member.map_withoutComments_toggleComment hmarks₂, hlength]
  · intro s hs t ht comment
    have hline : comment ++ ['\n'] ∈ (Header.text s settings).lines := by
      rcases List.mem_pair.1 hs with rfl | rfl
      · exact Header.toggleComment_mem_lines hsound₁ hvalid hsymbols₁ ht
      · exact Header.toggleComment_mem_lines hsound₂ hvalid hsymbols₂ ht
    refine ⟨hline, Code.Member.closesAtEnd_toggleComment_iff, ?_, ?_⟩
    · exact Code.Member.withoutComments_toggleComment
    · intro body rest hsymbol hbody
      show withoutComments (Code.Member.toggleComment t.symbol) = _
      rw [hsymbol]
      exact Code.Member.withoutComments_toggleComment_append hbody rest

/-- A source with a symbol that ends the comment of its toggle. -/
def markSource : Text := "#shader vertex\n#ifdef A*/B\nv\n#endif\n#shader fragment\nf\n"

/-- The same source with an underscore in place of the mark. -/
def plainSource : Text := "#shader vertex\n#ifdef A_B\nv\n#endif\n#shader fragment\nf\n"

/-- The two sources have one type, one accessor and one bit, and their headers differ in code. -/
theorem header_code_ne_of_closeMark :
    ∃ s₁ s₂, (VariantShader.ofSource "fog.glsl" markSource).result = .ok s₁ ∧
      (VariantShader.ofSource "fog.glsl" plainSource).result = .ok s₂ ∧
      s₁.typeName = s₂.typeName ∧
      (s₁.toggles.map fun t => (t.accessor, t.bit)) =
        (s₂.toggles.map fun t => (t.accessor, t.bit)) ∧
      withoutComments (Header.text s₁ {}) ≠ withoutComments (Header.text s₂ {}) ∧
      ¬ClosesAtEnd (Code.Member.toggleComment "A*/B") := by
  have hmark : ((VariantShader.ofSource "fog.glsl" markSource).result.toOption.map fun s =>
      (s.typeName, s.toggles)) = some (("Fog" : Text), [⟨"A*/B", "AB", 0⟩]) := by
    decide +kernel
  have hplain : ((VariantShader.ofSource "fog.glsl" plainSource).result.toOption.map fun s =>
      (s.typeName, s.toggles)) = some (("Fog" : Text), [⟨"A_B", "AB", 0⟩]) := by
    decide +kernel
  obtain ⟨s₁, h₁, hs₁⟩ := Outcome.exists_of_toOption_map_eq_some hmark
  obtain ⟨s₂, h₂, hs₂⟩ := Outcome.exists_of_toOption_map_eq_some hplain
  obtain ⟨htype₁, htoggles₁⟩ := Prod.mk.inj hs₁
  obtain ⟨htype₂, htoggles₂⟩ := Prod.mk.inj hs₂
  have htype : s₁.typeName = s₂.typeName := htype₁.trans htype₂.symm
  have htoggles : (s₁.toggles.map fun t => (t.accessor, t.bit)) =
      s₂.toggles.map fun t => (t.accessor, t.bit) := by
    rw [htoggles₁, htoggles₂]
    rfl
  have hvalid : Settings.IsValid {} := by decide +kernel
  obtain ⟨hcode, -, hcomments⟩ := header_code_eq_iff hvalid h₁ h₂ htype htoggles
  refine ⟨s₁, s₂, h₁, h₂, htype, htoggles, ?_, ?_⟩
  · rw [ne_eq, hcode, htoggles₁, htoggles₂]
    decide +kernel
  · obtain ⟨-, hcloses, -⟩ := hcomments s₁ (List.mem_pair.2 (.inl rfl)) ⟨"A*/B", "AB", 0⟩
      (htoggles₁ ▸ List.mem_cons_self)
    intro hend
    apply hcloses.1 hend
    exact ⟨['A'], ['B'], by decide +kernel⟩

end ShaderVariants
