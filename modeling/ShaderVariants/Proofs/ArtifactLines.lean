import ShaderVariants.Proofs.BodyStatements
import ShaderVariants.Proofs.Generated.Lines
import ShaderVariants.Proofs.Lines

/-!
# Lines of the artifacts

No text from outside breaks a line of the two files. So the files have the lines that the
generator writes and no others, their number follows from the number of the symbols and
the sizes of the bodies, and the definition includes the header and nothing else.
-/

namespace ShaderVariants

/-! ## Texts made of lines -/

namespace Text

variable {ls : List Text} {c : Char}

theorem lines_unlines (h : ∀ l ∈ ls, '\n' ∉ l) : lines (unlines ls) = ls.map (· ++ ['\n']) := by
  induction ls with
  | nil => rfl
  | cons l ls ih =>
    obtain ⟨hl, hls⟩ := List.forall_mem_cons.1 h
    rw [unlines_cons, lines_append_newline hl, ih hls, List.map_cons]

/-- Lines are seen in their text, if no newline stands within one. -/
theorem unlines_inj {ls' : List Text} (h : ∀ l ∈ ls, '\n' ∉ l) (h' : ∀ l ∈ ls', '\n' ∉ l) :
    unlines ls = unlines ls' ↔ ls = ls' := by
  refine ⟨fun heq => ?_, congrArg unlines⟩
  have hlines := congrArg lines heq
  rw [lines_unlines h, lines_unlines h'] at hlines
  exact List.map_injective_iff.2 (List.append_left_injective ['\n']) hlines

theorem count_newline_unlines (h : ∀ l ∈ ls, '\n' ∉ l) : (unlines ls).count '\n' = ls.length := by
  induction ls with
  | nil => rfl
  | cons l ls ih =>
    obtain ⟨hl, hls⟩ := List.forall_mem_cons.1 h
    rw [unlines_cons, List.count_append, List.count_cons_self, List.count_eq_zero_of_not_mem hl,
      ih hls, List.length_cons, Nat.zero_add]

theorem notMem_unlines (hc : c ≠ '\n') (h : ∀ l ∈ ls, c ∉ l) : c ∉ unlines ls := by
  intro hmem
  obtain ⟨l, hl, hmem⟩ := List.mem_flatMap.1 hmem
  rcases List.mem_append.1 hmem with hmem | hmem
  · exact h l hl hmem
  · exact hc (List.mem_singleton.1 hmem)

end Text

variable {fileName source : Text} {settings : Settings} {s : VariantShader} {stage : Stage}

/-! ## How many lines there are -/

/-- The number of lines of a frame. -/
def frameCount (settings : Settings) : Nat :=
  (if settings.banner then 4 else 0) + (if settings.namespacePath = [] then 0 else 4)

namespace Code

theorem length_bannerLines (settings : Settings) (fileName : Text) :
    (bannerLines settings fileName).length = if settings.banner then 4 else 0 := by
  unfold bannerLines
  split <;> rfl

theorem length_frameLines (settings : Settings) (fileName : Text) (outside inside : List Text) :
    (frameLines settings fileName outside inside).length =
      outside.length + inside.length + frameCount settings := by
  have hscope : (openingLines settings).length + (closingLines settings).length =
      if settings.namespacePath = [] then 0 else 4 := by
    unfold openingLines closingLines
    split <;> rfl
  simp only [frameLines, List.length_append, frameCount, length_bannerLines, ← hscope]
  omega

end Code

namespace Header

theorem length_contentLines (s : VariantShader) :
    (contentLines s).length = 18 + 12 * s.toggles.length + if s.toggles = [] then 0 else 1 := by
  have hleading : (leadingLines s).length =
      7 + s.toggles.length + if s.toggles = [] then 0 else 1 := by
    have hstruct : (structLines s).length = 4 := rfl
    unfold leadingLines
    split
    · next hnone => simp [hstruct, hnone]
    · simp [hstruct, List.length_flatMap, Code.Member.lines, Function.comp_def]
      omega
  have htoggle (t : Toggle) : (toggleLines t).length = 11 := rfl
  have htrailing : (trailingLines s).length = 11 := rfl
  simp only [contentLines_eq, List.length_append, List.length_flatMap, htoggle, htrailing, hleading,
    List.map_const', List.sum_replicate_nat]
  omega

end Header

namespace Code.Statement

theorem length_literalLines (pieces : List Text) :
    (literalLines pieces).length = pieces.length := by
  induction pieces with
  | nil => rfl
  | cons piece pieces ih =>
    cases pieces with
    | nil => rfl
    | cons next pieces =>
      show (literalLines (next :: pieces)).length + 1 = (next :: pieces).length + 1
      rw [ih]

end Code.Statement

namespace Definition

open Code Statement

/-- Each body statement takes a line and each of its pieces another one. -/
theorem length_bodyLines (s : VariantShader) (stage : Stage) :
    ((bodyGroups s stage).flatMap fun group => (append stage group).lines).length =
      (bodyPieces (s.stageText stage).body).length + (bodyGroups s stage).length := by
  rw [← flatten_bodyGroups]
  induction bodyGroups s stage with
  | nil => rfl
  | cons group groups ih =>
    rw [List.flatMap_cons, List.length_append, ih, lines, List.length_cons, length_literalLines,
      List.flatten_cons, List.length_append, List.length_cons]
    omega

theorem length_stageLines (s : VariantShader) (stage : Stage) :
    ((stageStatements s stage).flatMap lines).length =
      1 + 3 * s.toggles.length +
        ((bodyPieces (s.stageText stage).body).length + (bodyGroups s stage).length) := by
  have hdirectives : ((s.toggles.map fun t =>
      appendIf t.accessor stage (StageText.define t.symbol ++ ['\n'])).flatMap lines).length =
        3 * s.toggles.length := by
    simp [List.length_flatMap, lines, Function.comp_def, Nat.mul_comm]
  have hassign : (assign stage (s.stageText stage).prologue).lines.length = 1 := rfl
  rw [stageStatements_eq, List.flatMap_append, List.flatMap_map, List.length_append,
    length_bodyLines, openingStatements, List.flatMap_cons, List.length_append, hdirectives,
    hassign]

theorem length_functionLines (s : VariantShader) :
    (functionLines s).length = 10 + 6 * s.toggles.length +
      (Stage.all.map fun stage => (bodyPieces (s.stageText stage).body).length +
        (bodyGroups s stage).length).sum := by
  simp only [functionLines, Stage.all, List.flatMap_cons, List.flatMap_nil, List.length_append,
    List.length_cons, List.length_nil, length_stageLines, List.map_cons, List.map_nil,
    List.sum_cons, List.sum_nil]
  omega

end Definition

/-! ## What is included -/

/-- What an `#include` names: what stands behind the first quote, up to the next one. -/
def includeOperand? (line : Text) : Option Text :=
  (("#include \"" : Text).isPrefixOf? line).map (·.takeWhile (· ≠ '"'))

theorem IsCodeLine.includeOperand?_eq_none {line : Text} (h : IsCodeLine line) :
    includeOperand? (line ++ ['\n']) = none := by
  apply Option.map_eq_none_iff.2
  apply Option.eq_none_iff_forall_ne_some.2
  intro rest hrest
  have hline := Text.isPrefixOf?_eq_some_iff.1 hrest
  rw [Text.ofString_eq_toList] at hline
  -- a line that begins so begins with the mark of the preprocessor
  cases line with
  | nil => exact absurd hline (by simp)
  | cons c line => exact h.head?_ne (congrArg List.head? hline)

theorem includeOperand?_eq_some {name : Text} (h : '"' ∉ name) (rest : Text) :
    includeOperand? ("#include \"" ++ name ++ '"' :: rest) = some name := by
  have hopen : ("#include \"" : Text).isPrefixOf? ("#include \"" ++ name ++ '"' :: rest) =
      some (name ++ '"' :: rest) := by
    rw [Text.isPrefixOf?_eq_some_iff, List.append_assoc]
  have hname : ∀ c ∈ name, decide (c ≠ '"') = true := by
    intro c hc
    apply decide_eq_true
    rintro rfl
    exact h hc
  have hquote : ('"' :: rest).takeWhile (· ≠ '"') = [] := List.takeWhile_cons_of_neg (by simp)
  rw [includeOperand?, hopen, Option.map_some, List.takeWhile_append_of_pos hname, hquote,
    List.append_nil]

/-! ## The artifacts -/

namespace Header

theorem count_newline_text (h : s.IsSound) (hvalid : settings.IsValid)
    (hsymbols : ∀ t ∈ s.toggles, t.symbol.IsWord) :
    (text s settings).count '\n' =
      23 + 12 * s.toggles.length + (if s.toggles = [] then 0 else 1) + frameCount settings := by
  have hbreaks : ∀ line ∈ fileLines s settings, '\n' ∉ line := fun line hline =>
    (lacks_of_mem_fileLines h hvalid hsymbols line hline).newline_notMem
  have hinclude : includeLines.length = 5 := rfl
  rw [text_eq, Text.count_newline_unlines hbreaks, fileLines, Code.length_frameLines, hinclude,
    length_contentLines]
  omega

end Header

namespace Definition

theorem count_newline_text (h : s.IsSound) (hvalid : settings.IsValid) :
    (text s settings).count '\n' =
      12 + 6 * s.toggles.length + frameCount settings +
        (Stage.all.map fun stage => (Code.Statement.bodyPieces (s.stageText stage).body).length +
          (bodyGroups s stage).length).sum := by
  have hbreaks : ∀ line ∈ fileLines s settings, '\n' ∉ line := fun line hline =>
    (lacks_of_mem_fileLines h hvalid line hline).newline_notMem
  have hinclude : (includeLines s).length = 2 := rfl
  rw [text_eq, Text.count_newline_unlines hbreaks, fileLines, Code.length_frameLines, hinclude,
    length_functionLines]
  omega

/-- The header is all that the definition includes. -/
theorem includeOperands_text (h : s.IsSound) (hvalid : settings.IsValid) :
    (text s settings).lines.filterMap includeOperand? = [Header.fileName s.fileName] := by
  have hcode {ls : List Text} (hls : ∀ line ∈ ls, IsCodeLine line) :
      (ls.map (· ++ ['\n'])).filterMap includeOperand? = [] := by
    rw [List.filterMap_map]
    apply List.filterMap_eq_nil_iff.2
    intro line hline
    exact (hls line hline).includeOperand?_eq_none
  have hquote : '"' ∉ Header.fileName s.fileName := by
    rw [Header.fileName, List.mem_append, not_or, Text.ofString_eq_toList]
    exact ⟨notMem_of_isIncludable h.includable (by decide), by decide⟩
  have hinclude : ((includeLines s).map (· ++ ['\n'])).filterMap includeOperand? =
      [Header.fileName s.fileName] := by
    have hline : includeOperand? ("#include \"" ++ Header.fileName s.fileName ++ "\"" ++ ['\n']) =
        some (Header.fileName s.fileName) := by
      have hclose : ("\"" : Text) = ['"'] := by
        rw [Text.ofString_eq_toList]
        rfl
      rw [hclose, List.append_assoc]
      exact includeOperand?_eq_some hquote ['\n']
    have hblank : includeOperand? ([] ++ ['\n']) = none := isCodeLine_nil.includeOperand?_eq_none
    simp only [includeLines, List.map_cons, List.map_nil, List.filterMap_cons, List.filterMap_nil,
      hline, hblank]
  have hbreaks : ∀ line ∈ fileLines s settings, '\n' ∉ line := fun line hline =>
    (lacks_of_mem_fileLines h hvalid line hline).newline_notMem
  rw [text_eq, Text.lines_unlines hbreaks]
  simp only [fileLines, Code.frameLines, List.map_append, List.filterMap_append, hinclude,
    hcode fun _ => Code.isCodeLine_of_mem_bannerLines h.includable,
    hcode fun _ => Code.isCodeLine_of_mem_openingLines hvalid,
    hcode fun _ => Code.isCodeLine_of_mem_closingLines hvalid,
    hcode fun _ => isCodeLine_of_mem_functionLines h, List.append_nil, List.nil_append]

end Definition

/-- Neither file has a carriage return, and the lines of both are counted from the symbols and the
    lines of the source, whatever characters these have. The only file that the definition includes
    is the header. -/
theorem artifact_lines (hvalid : settings.IsValid) {a : Artifacts}
    (hok : (Artifacts.ofSource fileName source settings).result = .ok a) :
    ∃ c, Capture.ofSource? source = .ok c ∧
      let n := c.symbols.size
      let frame := (if settings.banner then 4 else 0) +
        (if settings.namespacePath = [] then 0 else 4)
      '\r' ∉ a.header ∧ '\r' ∉ a.definition ∧
      a.header.count '\n' = 23 + 12 * n + (if n = 0 then 0 else 1) + frame ∧
      a.definition.count '\n' = 12 + 6 * n + frame + (Stage.all.map fun stage =>
        ((c.stageLines stage).tail.flatMap (Text.pieces 2048)).length +
          (Definition.bodyGroups a.shader stage).length).sum ∧
      a.definition.lines.filterMap includeOperand? = [Header.fileName fileName] := by
  obtain ⟨hshader, ha⟩ := Artifacts.ofSource_eq_ok hok
  obtain ⟨c, hsource, hholds⟩ := VariantShader.holds_of_ofSource hshader
  have hsound := hholds.isSound
  have hsize : c.symbols.size = a.shader.toggles.length := by
    rw [hholds.toggles_eq, Toggle.length_ofSymbols]
  have hheader := Header.lacks_of_mem_fileLines hsound hvalid fun _ => hholds.isWord_symbol hsource
  have hdefinition := Definition.lacks_of_mem_fileLines hsound hvalid
  rw [ha]
  refine ⟨c, hsource, ?_, ?_, ?_, ?_, ?_⟩
  · exact Text.notMem_unlines (by decide) fun line hline => (hheader line hline).return_notMem
  · exact Text.notMem_unlines (by decide) fun line hline => (hdefinition line hline).return_notMem
  · have hcount := Header.count_newline_text hsound hvalid fun _ => hholds.isWord_symbol hsource
    simp only [← List.length_eq_zero_iff, ← hsize] at hcount
    exact hcount
  · have hcount := Definition.count_newline_text hsound hvalid
    have hbody (stage : Stage) : (a.shader.stageText stage).body = (c.stageLines stage).tail := by
      rw [hholds.lines_eq]
      rfl
    simp only [hbody, ← hsize] at hcount
    exact hcount
  · exact hholds.fileName_eq ▸ Definition.includeOperands_text hsound hvalid

/-- A source with carriage returns, a quote, a backslash and other characters that may end lines. -/
def strangeSource : Text :=
  "#shader vertex\r\n#ifdef \"A\\\r\nv\r\n#shader fragment\r\nf\rg\u0085h\u2028"

/-- None of its characters changes the number of lines: 44 for one symbol in the header, and 28 in
    the definition, where a body of one line adds two. -/
theorem artifact_lines_strange :
    ∃ a, (Artifacts.ofSource "x/*y.glsl" strangeSource ⟨"A::B", true⟩).result = .ok a ∧
      '\r' ∉ a.header ∧ '\r' ∉ a.definition ∧
      a.header.count '\n' = 44 ∧ a.definition.count '\n' = 28 ∧
      a.definition.lines.filterMap includeOperand? = [("x/*y.glsl.h" : Text)] := by
  have hcapture : ((Capture.ofSource? strangeSource).toOption.map fun c =>
      (c.symbols.size, Stage.all.map fun stage =>
        ((c.stageLines stage).tail.flatMap (Text.pieces 2048)).length)) = some (1, [1, 0]) := by
    decide +kernel
  have hgroups : ((Artifacts.ofSource "x/*y.glsl" strangeSource ⟨"A::B", true⟩).result.toOption.map
      fun a => Stage.all.map fun stage => (Definition.bodyGroups a.shader stage).length) =
        some [1, 0] := by
    decide +kernel
  obtain ⟨a, hok, hgroups⟩ := Outcome.exists_of_toOption_map_eq_some hgroups
  obtain ⟨c, hsource, hr, hr', hheader, hdefinition, hinclude⟩ :=
    artifact_lines (by decide +kernel) hok
  rw [hsource] at hcapture
  obtain ⟨hsize, hpieces⟩ := Prod.mk.inj (Option.some.inj hcapture)
  refine ⟨a, hok, hr, hr', ?_, ?_, ?_⟩
  · rw [hheader, hsize]
    decide +kernel
  · simp only [Stage.all, List.map_cons, List.map_nil, List.cons.injEq, and_true] at hpieces hgroups
    rw [hdefinition, hsize]
    simp only [Stage.all, List.map_cons, List.map_nil, hpieces, hgroups]
    decide +kernel
  · have hname : Header.fileName "x/*y.glsl" = ("x/*y.glsl.h" : Text) := by decide +kernel
    rw [hinclude, hname]

end ShaderVariants
