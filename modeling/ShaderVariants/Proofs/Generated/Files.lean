import ShaderVariants.Proofs.Cpp.Execution
import ShaderVariants.Proofs.Generated.Frame
import ShaderVariants.Proofs.Generated.Soundness

/-!
# The files as a program

The header and the definition of a shader that a source gives are a program of the
fragment of C++, and the program is known: its struct, its class and its function are
those of the shader, declaration by declaration and statement by statement. The header
is read so where no symbol closes the comment above its setter.
-/

namespace ShaderVariants

open Cpp

variable {s : VariantShader} {settings : Settings}

/-! ## The header -/

namespace Header

/-- The tokens of the field for the text of a stage. -/
def fieldTokens (stage : Stage) : List Token :=
  [.word "std", .mark "::", .word "string", .word stage.keyword, .mark "\x7b", .mark "\x7d",
    .mark ";"]

def structTokens (s : VariantShader) : List Token :=
  .word "struct" :: .word s.sourcesType :: .mark "\x7b" ::
    (Stage.all.flatMap fieldTokens ++ [.mark "\x7d", .mark ";"])

def classTokens (s : VariantShader) : List Token :=
  .word "class" :: .word s.configType :: .mark "\x7b" :: .word "public" :: .mark ":" ::
    ((publicGroups s).flatten.flatMap Code.Member.tokens ++ .word "private" :: .mark ":" ::
      (privateMembers.flatMap Code.Member.tokens ++ [.mark "\x7d", .mark ";"]))

def sourcesRecord (s : VariantShader) : Record :=
  ⟨s.sourcesType, Stage.all.map fun stage => .field .string stage.keyword none⟩

def configRecord (s : VariantShader) : Record :=
  ⟨s.configType, .label "public" :: ((publicGroups s).flatten.map Code.Member.asCpp ++
    .label "private" :: privateMembers.map Code.Member.asCpp)⟩

theorem spells_brace : Spells (" \x7b" ++ ['\n']) [.mark "\x7b"] := by
  repeat rw [Text.ofString_ofList]
  exact (rfl : run _ _ = _)

theorem spells_endLine : Spells (endLine ++ ['\n']) [.mark "\x7d", .mark ";"] := by
  rw [endLine]
  repeat rw [Text.ofString_ofList]
  exact (rfl : run _ _ = _)

theorem spells_struct (h : s.IsSound) : Spells (Text.unlines (structLines s)) (structTokens s) := by
  have hopen : Spells "struct " [.word "struct"] := by
    repeat rw [Text.ofString_ofList]
    exact (rfl : run _ _ = _)
  have hfield : ∀ stage ∈ Stage.all,
      Spells (Text.unlines [fieldLine stage]) (fieldTokens stage) := by
    rintro (_ | _) -
    all_goals
      simp only [fieldLine, fieldTokens, Stage.keyword, Text.unlines_cons, Text.unlines_nil]
      repeat rw [Text.ofString_ofList]
      exact (rfl : run _ _ = _)
  have hfields := Spells.unlines hfield
  rw [← List.map_eq_flatMap] at hfields
  have hname := h.isPascal_sourcesType
  have hbody := (spells_brace.append (hfields.append spells_endLine)).word
    (Code.Member.isWhole_of_isPascal hname) (((ends_fixed rfl rfl).append _).append _)
  simpa only [structLines, structTokens, Text.unlines_cons, Text.unlines_append,
    Text.unlines_nil, List.append_assoc, List.cons_append, List.nil_append] using
    hopen.append hbody

theorem spells_class (h : s.IsSound) (hmarks : ∀ t ∈ s.toggles, ¬closeMark <:+: t.symbol) :
    Spells (Text.unlines (classLines s)) (classTokens s) := by
  have hopen : Spells "class " [.word "class"] := by
    repeat rw [Text.ofString_ofList]
    exact (rfl : run _ _ = _)
  have hpublic : Spells (publicLine ++ ['\n']) [.word "public", .mark ":"] := by
    rw [publicLine]
    repeat rw [Text.ofString_ofList]
    exact (rfl : run _ _ = _)
  have hprivate : Spells (privateLine ++ ['\n']) [.word "private", .mark ":"] := by
    rw [privateLine]
    repeat rw [Text.ofString_ofList]
    exact (rfl : run _ _ = _)
  have hmember : ∀ m ∈ members s, Spells (Text.unlines m.lines) m.tokens := fun m hm =>
    (h.isSound_member hm).spells (keepsComment_of_mem hmarks hm)
  have hgroup : ∀ group ∈ publicGroups s,
      Spells (Text.unlines (group.flatMap Code.Member.lines ++ [[]]))
        (group.flatMap Code.Member.tokens) := by
    intro group hgroup
    have hmembers : Spells (Text.unlines (group.flatMap Code.Member.lines))
        (group.flatMap Code.Member.tokens) := by
      refine Spells.unlines fun m hm => hmember m ?_
      exact List.mem_append_left _ (List.mem_flatten.2 ⟨group, hgroup, hm⟩)
    rw [Text.unlines_append, ← List.append_nil (group.flatMap Code.Member.tokens)]
    exact hmembers.append Spells.newline
  have hpublics := Spells.unlines hgroup
  rw [← List.flatMap_assoc, List.flatMap_id'] at hpublics
  have hprivates : Spells (Text.unlines (privateMembers.flatMap Code.Member.lines))
      (privateMembers.flatMap Code.Member.tokens) :=
    Spells.unlines fun m hm => hmember m (List.mem_append_right _ hm)
  have hname := h.isPascal_configType
  have hbody := (spells_brace.append (hpublic.append (hpublics.append (hprivate.append
    (hprivates.append spells_endLine))))).word (Code.Member.isWhole_of_isPascal hname)
      (((ends_fixed rfl rfl).append _).append _)
  simpa only [classLines, classTokens, Text.unlines_cons, Text.unlines_append,
    Text.unlines_nil, List.append_assoc, List.cons_append, List.nil_append] using
    hopen.append hbody

theorem reads_field (stage : Stage) (rest : List Token) :
    Reader.member (fieldTokens stage ++ rest) =
      some (.field .string stage.keyword none, rest) := by
  simp only [fieldTokens, List.cons_append, List.nil_append]
  exact Reader.member_empty_field (Reader.ctype_string _) (by simp [Reader.label]) (by simp)

theorem reads_struct (s : VariantShader) (rest : List Token) :
    Reader.record "struct" (structTokens s ++ rest) = some (sourcesRecord s, rest) := by
  have hfields : Reader.many Reader.member (Stage.all.flatMap fieldTokens ++
      .mark "\x7d" :: .mark ";" :: rest) =
        some (Stage.all.map (fun stage => .field .string stage.keyword none) ++ [],
          .mark ";" :: rest) :=
    Reader.many_append (fun _ => True) (fun stage _ rest _ => reads_field stage rest)
      (fun stage _ rest => ⟨by simp [fieldTokens], trivial⟩) trivial Reader.many_nil
  simp only [structTokens, List.cons_append, List.append_assoc, List.nil_append]
  exact Reader.record_of hfields

/-- Members are read in their order, in front of whatever is read behind them. -/
theorem reads_members {l : List Code.Member} (hl : ∀ m ∈ l, m.IsSound) {tokens rest : List Token}
    {l' : List Cpp.Member} (h : Reader.many Reader.member tokens = some (l', rest)) :
    Reader.many Reader.member (l.flatMap Code.Member.tokens ++ tokens) =
      some (l.map Code.Member.asCpp ++ l', rest) := by
  refine Reader.many_append (fun _ => True) (fun m hm rest _ => (hl m hm).reads rest) ?_ trivial h
  intro m _ rest
  refine ⟨?_, trivial⟩
  cases m <;> simp [Code.Member.tokens]

theorem reads_label (access : Text) {tokens rest : List Token} {l : List Cpp.Member}
    (h : Reader.many Reader.member tokens = some (l, rest)) :
    Reader.many Reader.member (.word access :: .mark ":" :: tokens) =
      some (.label access :: l, rest) :=
  Reader.many_cons (by simp) (Reader.member_label access)
    (Nat.lt_succ_of_lt (Nat.lt_succ_self _)) h

theorem reads_class (h : s.IsSound) (rest : List Token) :
    Reader.record "class" (classTokens s ++ rest) = some (configRecord s, rest) := by
  have hprivates : Reader.many Reader.member (privateMembers.flatMap Code.Member.tokens ++
      .mark "\x7d" :: .mark ";" :: rest) =
        some (privateMembers.map Code.Member.asCpp ++ [], .mark ";" :: rest) :=
    reads_members (fun m hm => h.isSound_member (List.mem_append_right _ hm)) Reader.many_nil
  rw [List.append_nil] at hprivates
  have hpublics := reads_members
    (fun m hm => h.isSound_member (List.mem_append_left privateMembers hm))
    (reads_label "private" hprivates)
  simp only [classTokens, List.cons_append, List.append_assoc, List.nil_append]
  exact Reader.record_of (reads_label "public" hpublics)

/-- The content of the header is the struct and the class. -/
theorem reads_header (h : s.IsSound) (rest : List Token) :
    Program.header (structTokens s ++ classTokens s ++ rest) =
      some ((sourcesRecord s, configRecord s), rest) := by
  rw [List.append_assoc, Program.header, Reader.bind_apply, reads_struct]
  simp [reads_class h]

/-- The text of the header within the namespace. -/
def content (s : VariantShader) : Text := Text.unlines (structLines s ++ [[]] ++ classLines s)

theorem spells_content (h : s.IsSound) (hmarks : ∀ t ∈ s.toggles, ¬closeMark <:+: t.symbol) :
    Spells (content s) (structTokens s ++ classTokens s) := by
  rw [content, Text.unlines_append, Text.unlines_append, ← List.append_nil (structTokens s)]
  exact ((spells_struct h).append Spells.newline).append (spells_class h hmarks)

end Header

/-! ## The definition -/

namespace Definition

def functionTokens (s : VariantShader) : List Token :=
  .word s.sourcesType :: .word s.configType :: .mark "::" :: .word "Assemble" :: .mark "(" ::
    .mark ")" :: .word "const" :: .mark "\x7b" ::
    (.word s.sourcesType :: .word "sources" :: .mark "\x7b" :: .mark "\x7d" :: .mark ";" ::
      ((statements s).flatMap Code.Statement.tokens ++
        [.word "return", .word "sources", .mark ";", .mark "\x7d"]))

def assembleDefinition (s : VariantShader) : Cpp.Definition :=
  ⟨.named s.sourcesType, s.configType, "Assemble",
    .declare (.named s.sourcesType) "sources" ::
      ((statements s).map Code.Statement.asCpp ++ [.give (.name ["sources"])])⟩

theorem spells_statements (h : s.IsSound) :
    Spells (Text.unlines (Stage.all.flatMap fun stage =>
        [] :: (stageStatements s stage).flatMap Code.Statement.lines))
      ((statements s).flatMap Code.Statement.tokens) := by
  have hstage : ∀ stage ∈ Stage.all,
      Spells (Text.unlines ([] :: (stageStatements s stage).flatMap Code.Statement.lines))
        ((stageStatements s stage).flatMap Code.Statement.tokens) := by
    intro stage _
    have hstatements := Spells.unlines fun a (ha : a ∈ stageStatements s stage) =>
      (h.isSound_statement ha).spells
    rw [Text.unlines_cons]
    exact Spells.newline.append hstatements
  rw [statements, List.flatMap_assoc]
  exact Spells.unlines hstage

/-- The text of the definition within the namespace. -/
def content (s : VariantShader) : Text := Text.unlines (functionLines s)

theorem spells_content (h : s.IsSound) : Spells (content s) (functionTokens s) := by
  have hspace : Spells " " [] := Spells.spaces (by decide)
  have hindent : Spells "    " [] := Spells.spaces (by decide)
  have hname : Spells ("::Assemble() const" ++ '\n' :: ("\x7b" ++ ['\n']))
      [.mark "::", .word "Assemble", .mark "(", .mark ")", .word "const", .mark "\x7b"] := by
    repeat rw [Text.ofString_ofList]
    exact (rfl : run _ _ = _)
  have hdeclare : Spells (" sources \x7b\x7d;" ++ ['\n'])
      [.word "sources", .mark "\x7b", .mark "\x7d", .mark ";"] := by
    repeat rw [Text.ofString_ofList]
    exact (rfl : run _ _ = _)
  have hreturn : Spells ('\n' :: ("    return sources;" ++ '\n' :: ("\x7d" ++ ['\n'])))
      [.word "return", .word "sources", .mark ";", .mark "\x7d"] := by
    repeat rw [Text.ofString_ofList]
    exact (rfl : run _ _ = _)
  have hsources := Code.Member.isWhole_of_isPascal h.isPascal_sourcesType
  have hconfig := Code.Member.isWhole_of_isPascal h.isPascal_configType
  have hbody := (hdeclare.append ((spells_statements h).append hreturn)).word hsources
    (((ends_fixed rfl rfl).append _).append _)
  have hqualified := (hname.append (hindent.append hbody)).word hconfig
    (((ends_fixed rfl rfl).append _).append _)
  have hresult := (hspace.append hqualified).word hsources ((ends_fixed rfl rfl).append _)
  simpa only [content, functionLines, functionTokens, Text.unlines_append, Text.unlines_cons,
    Text.unlines_nil, List.append_assoc, List.cons_append, List.nil_append] using hresult

theorem reads_function (h : s.IsSound) (rest : List Token) :
    Reader.definition (functionTokens s ++ rest) = some (assembleDefinition s, rest) := by
  have hplain := Code.Member.isPlain_of_isPascal h.isPascal_sourcesType
  have hresult : Reader.IsName "sources" := by
    refine ⟨by simp, ?_⟩
    rw [Text.ofString_eq_toList]
    decide
  have hreturn : Reader.many Reader.stmt (.word "return" :: .word "sources" :: .mark ";" ::
      .mark "\x7d" :: rest) = some ([.give (.name ["sources"])], rest) :=
    Reader.many_one (by simp) (Reader.stmt_give (Reader.expr_name hresult (.inr rfl)))
  have hstatement : ∀ a ∈ statements s, a.IsSound := by
    intro a ha
    obtain ⟨stage, -, ha⟩ := List.mem_flatMap.1 ha
    exact h.isSound_statement ha
  have hstatements := Reader.many_append (fun tokens => Reader.keyword "else" tokens = none)
    (fun a ha rest hrest => (hstatement a ha).reads hrest) (fun a _ rest => a.opens rest)
    (by simp) hreturn
  have hbody := Reader.many_cons (by simp) (Reader.stmt_declare hplain "sources")
    (by simp only [List.length_cons]; omega) hstatements
  simp only [functionTokens, List.cons_append, List.append_assoc, List.nil_append]
  exact Reader.definition_of hplain hbody

end Definition

/-! ## The program -/

theorem tokens?_of_spells {t : Text} {o : List Token} (h : Spells t o) : tokens? t = some o := by
  have hrun : run .blank (t ++ ['\n']) = (o ++ [], .blank) := h.append Spells.newline
  rw [List.append_nil] at hrun
  rw [tokens?, hrun]

theorem ofText?_of_spells {α : Type} {reader : Reader α} {t : Text} {o : List Token} {a : α}
    (ht : Spells t o) (ho : reader o = some (a, [])) : reader.ofText? t = some a := by
  rw [Reader.ofText?, tokens?_of_spells ht]
  simp [ho]

/-- The program of a shader. -/
def VariantShader.program (s : VariantShader) : Program :=
  ⟨Header.sourcesRecord s, Header.configRecord s, Definition.assembleDefinition s⟩

theorem spells_header (h : s.IsSound) (hmarks : ∀ t ∈ s.toggles, ¬closeMark <:+: t.symbol)
    (hvalid : settings.IsValid) :
    Spells (Header.text s settings)
      (settings.scopeTokens (Header.structTokens s ++ Header.classTokens s)) := by
  have houtside : Spells (Text.unlines Header.includeLines) [] := by
    have hpragma : Spells ("#pragma once" ++ '\n' :: ['\n']) [] := by
      rw [Text.ofString_ofList]
      exact (rfl : run _ _ = _)
    have hinteger : Spells ("#include <cstdint>" ++ ['\n']) [] := by
      rw [Text.ofString_ofList]
      exact (rfl : run _ _ = _)
    have hstring : Spells ("#include <string>" ++ '\n' :: ['\n']) [] := by
      rw [Text.ofString_ofList]
      exact (rfl : run _ _ = _)
    simpa only [Header.includeLines, Text.unlines_cons, Text.unlines_nil, List.append_assoc,
      List.cons_append, List.nil_append] using hpragma.append (hinteger.append hstring)
  exact spells_frame hvalid h.includable houtside (Header.spells_content h hmarks)

theorem spells_definition (h : s.IsSound) (hvalid : settings.IsValid) :
    Spells (Definition.text s settings) (settings.scopeTokens (Definition.functionTokens s)) := by
  have houtside : Spells (Text.unlines (Definition.includeLines s)) [] := by
    have hopen : run .blank "#include \"" = ([], .skip) := by
      rw [Text.ofString_ofList]
      rfl
    have hclose : (".h" : Text) ++ "\"" = ['.', 'h', '"'] := by
      repeat rw [Text.ofString_ofList]
      rfl
    have hnewline : '\n' ∉ s.fileName ++ ['.', 'h', '"'] := by
      rw [List.mem_append, not_or]
      exact ⟨notMem_of_isIncludable h.includable (by decide), by decide⟩
    have hlast : (s.fileName ++ ['.', 'h', '"']).getLast? ≠ some '\\' := by
      rw [List.getLast?_append]
      show some '"' ≠ some '\\'
      decide
    have hline := (Spells.skipped hopen hnewline hlast).append Spells.newline
    rw [← hclose] at hline
    simpa only [Definition.includeLines, Header.fileName, Text.unlines_cons, Text.unlines_nil,
      List.append_assoc, List.cons_append, List.nil_append] using hline
  exact spells_frame hvalid h.includable houtside (Definition.spells_content h)

theorem keyword_namespace_function (h : s.IsSound) :
    Reader.keyword "namespace" (Definition.functionTokens s) = none := by
  have hsources : s.sourcesType ≠ "namespace" := by
    obtain ⟨c, t, heq, hc, -⟩ := h.isPascal_sourcesType
    rw [heq, Text.ofString_eq_toList]
    intro hnamespace
    obtain rfl := (List.cons.inj hnamespace).1
    exact absurd hc (by decide)
  simp [Definition.functionTokens, hsources]

theorem ofTexts?_of_spells (h : s.IsSound) (settings : Settings) {headerText definitionText : Text}
    (hheader : Spells headerText
      (settings.scopeTokens (Header.structTokens s ++ Header.classTokens s)))
    (hdefinition : Spells definitionText (settings.scopeTokens (Definition.functionTokens s))) :
    Program.ofTexts? headerText definitionText = some s.program := by
  have hrecords := ofText?_of_spells hheader
    (Settings.reads_scoped (Header.reads_header h) (by simp [Header.structTokens]))
  have hfunction := ofText?_of_spells hdefinition
    (Settings.reads_scoped (Definition.reads_function h) (keyword_namespace_function h))
  have hassembler : .assembler s.sourcesType ∈ (Header.publicGroups s).flatten := by
    refine List.mem_flatten.2 ⟨[.assembler s.sourcesType], ?_, List.mem_singleton.2 rfl⟩
    simp [Header.publicGroups]
  have hdeclared : Code.Member.asCpp (.assembler s.sourcesType) ∈
      (Header.configRecord s).members :=
    List.mem_cons_of_mem _ (List.mem_append_left _ (List.mem_map_of_mem hassembler))
  rw [Program.ofTexts?, hrecords, hfunction]
  exact if_pos ⟨rfl, rfl, rfl, rfl, hdeclared⟩

/-- The two files are read as the program of the shader, unless a symbol closes the comment that it
    stands in. -/
theorem ofTexts?_text (h : s.IsSound) (hmarks : ∀ t ∈ s.toggles, ¬closeMark <:+: t.symbol)
    (hvalid : settings.IsValid) :
    Program.ofTexts? (Header.text s settings) (Definition.text s settings) = some s.program :=
  ofTexts?_of_spells h settings (spells_header h hmarks hvalid) (spells_definition h hvalid)

/-- So is what stands within the namespace, whatever the settings call it. -/
theorem ofTexts?_content (h : s.IsSound) (hmarks : ∀ t ∈ s.toggles, ¬closeMark <:+: t.symbol) :
    Program.ofTexts? (Header.content s) (Definition.content s) = some s.program :=
  ofTexts?_of_spells h ⟨[], false⟩ (Header.spells_content h hmarks) (Definition.spells_content h)

/-- The function is read from the definition, whatever the symbols are. -/
theorem ofText?_content (h : s.IsSound) :
    Reader.definition.ofText? (Definition.content s) = some s.program.assemble := by
  refine ofText?_of_spells (Definition.spells_content h) ?_
  rw [← List.append_nil (Definition.functionTokens s)]
  exact Definition.reads_function h []

theorem unlines_isInfix_frameLines (settings : Settings) (fileName : Text)
    (outside inside : List Text) :
    Text.unlines inside <:+: Text.unlines (Code.frameLines settings fileName outside inside) := by
  rw [Code.frameLines, Text.unlines_append, Text.unlines_append]
  exact ⟨_, _, rfl⟩

end ShaderVariants
