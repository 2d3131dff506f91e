import ShaderVariants.Proofs.AssembledLines
import ShaderVariants.Proofs.RoundTrip
import ShaderVariants.Proofs.Verdicts

/-!
# Shaders recovered from definitions

The definition of a shader is read as its function, and the function still shows what the
shader is: the statements of a stage write the text of its lines, and its branches name
the symbols. A text is cut into lines in one way, so a definition is that of one shader
only, and a definition that is in sync hides no change of a line or a symbol.
-/

namespace ShaderVariants

open Cpp

variable {fileName : Text} {s s₁ s₂ : VariantShader} {c₁ c₂ : Capture} {stage : Stage}
  {settings : Settings} {source₁ source₂ : Text}

/-! ## What statements show -/

/-- The field of a stage as statements name it. -/
def fieldPath (stage : Stage) : List Text := ["sources", stage.keyword]

theorem fieldPath_injective : Function.Injective fieldPath := by
  intro stage stage' h
  exact keyword_injective (List.singleton_inj.1 (List.cons.inj h).2)

/-- The text that a statement writes to the field of a stage in any case. -/
def written (stage : Stage) : Stmt → Text
  | .assign ⟨target, _, .text value⟩ => if target = fieldPath stage then value else []
  | _ => []

/-- The texts that a statement writes to the field of a stage where a condition holds. -/
def guarded (stage : Stage) : Stmt → List Text
  | .branch _ ⟨target, _, .text value⟩ _ => if target = fieldPath stage then [value] else []
  | _ => []

namespace Code.Statement

theorem written_asCpp (stage : Stage) (a : Statement) :
    written stage a.asCpp = if a.stage = stage then a.added id fun _ => false else [] := by
  cases a with
  | assign stage' value => exact if_congr fieldPath_injective.eq_iff rfl rfl
  | append stage' pieces => exact if_congr fieldPath_injective.eq_iff rfl rfl
  | appendIf accessor stage' value => exact (ite_self []).symm

theorem guarded_asCpp (stage : Stage) (a : Statement) :
    guarded stage a.asCpp = match a with
      | appendIf _ stage' value => if stage' = stage then [value] else []
      | _ => [] := by
  cases a with
  | assign stage' value => rfl
  | append stage' pieces => rfl
  | appendIf accessor stage' value => exact if_congr fieldPath_injective.eq_iff rfl rfl

end Code.Statement

namespace Definition

open Code Statement

theorem stage_of_mem_stageStatements {a : Statement} (h : a ∈ stageStatements s stage) :
    a.stage = stage := by
  simp only [stageStatements, ofStage, List.cons_append, List.mem_cons, List.mem_append,
    List.mem_map] at h
  rcases h with rfl | ⟨t, -, rfl⟩ | ⟨pieces, -, rfl⟩ <;> rfl

/-- Only the statements of a stage show something of it. -/
theorem flatMap_statements {α : Type} {f : Statement → List α} (s : VariantShader)
    (stage : Stage) (hf : ∀ a : Statement, a.stage ≠ stage → f a = []) :
    (statements s).flatMap f = (stageStatements s stage).flatMap f := by
  have hother (stage' : Stage) (hne : stage' ≠ stage) :
      (stageStatements s stage').flatMap f = [] := by
    apply List.flatMap_eq_nil_iff.2
    intro a ha
    apply hf a
    rw [stage_of_mem_stageStatements ha]
    exact hne
  rw [statements, Stage.all, List.flatMap_cons, List.flatMap_singleton, List.flatMap_append]
  cases stage with
  | vertex => rw [hother .fragment (by decide), List.append_nil]
  | fragment => rw [hother .vertex (by decide), List.nil_append]

/-- The statements of a stage write its lines. -/
theorem flatMap_written (s : VariantShader) (stage : Stage) :
    ((statements s).map asCpp).flatMap (written stage) = (s.stageText stage).toLines.flatten := by
  have hadded : ∀ a ∈ stageStatements s stage,
      written stage a.asCpp = a.added id fun _ => false := by
    intro a ha
    rw [written_asCpp, if_pos (stage_of_mem_stageStatements ha)]
  have hdirectives : (s.toggles.map fun t =>
      appendIf t.accessor stage (StageText.define t.symbol ++ ['\n'])).flatMap
        (added id fun _ => false) = [] := by
    apply List.flatMap_eq_nil_iff.2
    intro a ha
    obtain ⟨t, -, rfl⟩ := List.mem_map.1 ha
    rfl
  have hbody : ((Packing.pack Text.utf8Size statementLimit
      (bodyPieces (s.stageText stage).body)).map (append stage)).flatMap
        (added id fun _ => false) = (s.stageText stage).body.flatten := by
    rw [← flatten_map_flatten_pack, List.flatMap_map, List.flatMap_def]
    rfl
  rw [List.flatMap_map, flatMap_statements s stage, List.flatMap_congr hadded,
    stageStatements, ofStage, List.cons_append, List.flatMap_cons, List.flatMap_append, hdirectives,
    hbody, List.nil_append]
  · rfl
  · intro a hne
    rw [written_asCpp, if_neg hne]

/-- The branches of a stage name the symbols. -/
theorem flatMap_guarded (s : VariantShader) (stage : Stage) :
    ((statements s).map asCpp).flatMap (guarded stage) =
      s.toggles.map fun t => StageText.define t.symbol ++ ['\n'] := by
  have hbody : ((Packing.pack Text.utf8Size statementLimit
      (bodyPieces (s.stageText stage).body)).map (append stage)).flatMap
        (fun a => guarded stage a.asCpp) = [] := by
    apply List.flatMap_eq_nil_iff.2
    intro a ha
    obtain ⟨pieces, -, rfl⟩ := List.mem_map.1 ha
    rfl
  rw [List.flatMap_map, flatMap_statements s stage, stageStatements, ofStage,
    List.cons_append, List.flatMap_cons, List.flatMap_append, hbody, List.append_nil,
    List.flatMap_map, List.map_eq_flatMap]
  · apply List.flatMap_congr
    intro t _
    rw [guarded_asCpp]
    exact if_pos rfl
  · intro a hne
    rw [guarded_asCpp]
    cases a with
    | appendIf accessor stage' value => exact if_neg hne
    | assign | append => rfl

/-! ## What a definition shows -/

/-- Two shaders with one name and one definition have the same function. -/
theorem map_asCpp_eq_of_content_eq (h₁ : s₁.IsSound) (h₂ : s₂.IsSound)
    (h : content s₁ = content s₂) :
    (statements s₁).map asCpp = (statements s₂).map asCpp := by
  have hspelled := spells_content h₁
  rw [h] at hspelled
  have htokens : functionTokens s₁ = functionTokens s₂ :=
    congrArg Prod.fst (hspelled.symm.trans (spells_content h₂))
  have hread := reads_function h₁ []
  rw [htokens, reads_function h₂ []] at hread
  have hdefinition : assembleDefinition s₂ = assembleDefinition s₁ :=
    congrArg Prod.fst (Option.some.inj hread)
  have hbody := congrArg Cpp.Definition.body hdefinition
  exact List.append_cancel_right (List.cons.inj hbody).2.symm

/-- The frame around the function is the same for one file name. -/
theorem content_eq_of_text_eq (hname : s₁.fileName = s₂.fileName)
    (h : text s₁ settings = text s₂ settings) : content s₁ = content s₂ := by
  simp only [text, Code.frameLines, Text.unlines_append, includeLines, hname] at h
  exact List.append_cancel_left (List.append_cancel_right h)

end Definition

/-! ## What a shader is made from -/

theorem StageText.toLines_injective : Function.Injective StageText.toLines := by
  intro text text' h
  have hlines : StageText.ofLines? text.toLines = some text' := StageText.ofLines?_eq_some_iff.2 h
  rw [StageText.ofLines?_eq_some_iff.2 rfl] at hlines
  exact Option.some.inj hlines

theorem define_injective : Function.Injective fun symbol : Text =>
    StageText.define symbol ++ ['\n'] := by
  intro symbol symbol' h
  exact List.append_cancel_left (List.append_cancel_right h)

namespace VariantShader

/-- A shader is known from its text, symbol by symbol and stage by stage. -/
theorem Holds.eq_of_content_eq (h₁ : Holds fileName c₁ s₁) (h₂ : Holds fileName c₂ s₂)
    (hsource₁ : Capture.ofSource? source₁ = .ok c₁) (hsource₂ : Capture.ofSource? source₂ = .ok c₂)
    (h : Definition.content s₁ = Definition.content s₂) : s₁ = s₂ := by
  have hstatements := Definition.map_asCpp_eq_of_content_eq h₁.isSound
    h₂.isSound h
  have hlines (stage : Stage) : s₁.stageText stage = s₂.stageText stage := by
    have hflatten := congrArg (List.flatMap (written stage)) hstatements
    rw [Definition.flatMap_written, Definition.flatMap_written] at hflatten
    have hcut₁ := h₁.lines_eq stage ▸ Capture.isCut_stageLines hsource₁ stage
    have hcut₂ := h₂.lines_eq stage ▸ Capture.isCut_stageLines hsource₂ stage
    apply StageText.toLines_injective
    rw [← hcut₁.lines_flatten, hflatten, hcut₂.lines_flatten]
  have htoggles : s₁.toggles = s₂.toggles := by
    have hguarded := congrArg (List.flatMap (guarded .vertex)) hstatements
    rw [Definition.flatMap_guarded, Definition.flatMap_guarded] at hguarded
    have hsymbols : s₁.toggles.map Toggle.symbol = s₂.toggles.map Toggle.symbol := by
      refine List.map_injective_iff.2 define_injective ?_
      rw [List.map_map, List.map_map]
      exact hguarded
    rw [h₁.toggles_eq, h₂.toggles_eq] at hsymbols ⊢
    rw [Toggle.map_symbol_ofSymbols, Toggle.map_symbol_ofSymbols] at hsymbols
    exact congrArg Toggle.ofSymbols (Symbols.ext hsymbols)
  have hfile := h₁.fileName_eq.trans h₂.fileName_eq.symm
  have htype := h₁.typeName_eq.trans h₂.typeName_eq.symm
  have hvertex : s₁.vertex = s₂.vertex := hlines .vertex
  have hfragment : s₁.fragment = s₂.fragment := hlines .fragment
  cases s₁
  cases s₂
  exact (VariantShader.mk.injEq ..).mpr ⟨hfile, htype, hvertex, hfragment, htoggles⟩

end VariantShader

/-! ## Definitions in sync -/

theorem Artifacts.shader_eq {a₁ a₂ : Artifacts}
    (h₁ : (Artifacts.ofSource fileName source₁ settings).result = .ok a₁)
    (h₂ : (Artifacts.ofSource fileName source₂ settings).result = .ok a₂)
    (h : a₁.definition = a₂.definition) : a₁.shader = a₂.shader := by
  obtain ⟨hshader₁, hfiles₁⟩ := Artifacts.ofSource_eq_ok h₁
  obtain ⟨hshader₂, hfiles₂⟩ := Artifacts.ofSource_eq_ok h₂
  obtain ⟨c₁, hsource₁, hholds₁⟩ := VariantShader.holds_of_ofSource hshader₁
  obtain ⟨c₂, hsource₂, hholds₂⟩ := VariantShader.holds_of_ofSource hshader₂
  rw [hfiles₁, hfiles₂] at h
  have hname := hholds₁.fileName_eq.trans hholds₂.fileName_eq.symm
  exact hholds₁.eq_of_content_eq hholds₂ hsource₁ hsource₂
    (Definition.content_eq_of_text_eq hname h)

namespace Run

open FileTree

theorem staleness_cases (p : Path) (fresh : Text) (r : Except IoCause Text) :
    (∃ stale, staleness p fresh r = .ok stale) ∨
      ∃ cause, staleness p fresh r = .error (.io p cause) := by
  rcases r with cause | existing
  · cases cause
    case notFound => exact .inl ⟨true, rfl⟩
    all_goals exact .inr ⟨_, rfl⟩
  · exact .inl ⟨_, rfl⟩

/-- A check names a definition that holds another text, unless it fails to read the header. -/
theorem checkIn_of_definition_ne {t : FileTree} {input outputDir : Path} {artifacts : Artifacts}
    {existing : Text} (hname : inputName input = .ok fileName)
    (hartifacts : artifactsIn t input settings = .ok artifacts)
    (hread : t.readText (outputDir.join (.ofText (Definition.fileName fileName))) = .ok existing)
    (hne : existing ≠ artifacts.definition) :
    (∃ stale, checkIn t input outputDir settings = .error (.outOfSync stale) ∧
      outputDir.join (.ofText (Definition.fileName fileName)) ∈ stale) ∨
    ∃ cause, checkIn t input outputDir settings =
      .error (.io (outputDir.join (.ofText (Header.fileName fileName))) cause) := by
  rw [checkIn_eq hname hartifacts, outputs, OutputPaths.ofName]
  generalize outputDir.join (.ofText (Header.fileName fileName)) = header
  generalize outputDir.join (.ofText (Definition.fileName fileName)) = definition at hread ⊢
  have hlast : staleIn t [⟨definition, artifacts.definition⟩] = .ok [definition] := by
    rw [staleIn, hread, staleness, bne_iff_ne.2 hne]
    rfl
  rcases staleness_cases header artifacts.header (t.readText header) with
    ⟨stale, hheader⟩ | ⟨cause, hheader⟩
  · left
    refine ⟨(if stale then [header] else []) ++ [definition], ?_,
      List.mem_append_right _ List.mem_cons_self⟩
    rw [staleIn, hheader, hlast]
    exact if_neg (List.append_ne_nil_of_right_ne_nil _ (List.cons_ne_nil definition []))
  · right
    rw [staleIn, hheader]
    exact ⟨cause, rfl⟩

end Run

/-- Of all sources with a file name, those with one definition give one shader: the same first line
    and other lines of each stage, and the same toggles. So where the definition of one source
    stands, a check of a source that gives another shader says that the definition is not in sync,
    unless it fails to read the header before. -/
theorem shader_eq_of_definition_eq {a₁ a₂ : Artifacts}
    (h₁ : (Artifacts.ofSource fileName source₁ settings).result = .ok a₁)
    (h₂ : (Artifacts.ofSource fileName source₂ settings).result = .ok a₂) :
    (a₁.definition = a₂.definition → a₁.shader = a₂.shader) ∧
    ∀ (w : Workspace) (input outputDir : Path), inputName input = .ok fileName →
      w.files.readText input = .ok source₂ →
      w.files.readText (outputDir.join (.ofText (Definition.fileName fileName))) =
        .ok a₁.definition →
      a₁.shader ≠ a₂.shader →
      (∃ stale, (w.run (Run.check input outputDir settings)).1 = .error (.outOfSync stale) ∧
        outputDir.join (.ofText (Definition.fileName fileName)) ∈ stale) ∨
      ∃ cause, (w.run (Run.check input outputDir settings)).1 =
        .error (.io (outputDir.join (.ofText (Header.fileName fileName))) cause) := by
  refine ⟨Artifacts.shader_eq h₁ h₂, ?_⟩
  intro w input outputDir hname hinput hread hne
  have hartifacts : Run.artifactsIn w.files input settings = .ok a₂ :=
    Run.artifactsIn_eq_ok_iff.2 ⟨fileName, source₂, hname, hinput, h₂⟩
  have hdefinition : a₁.definition ≠ a₂.definition := fun heq => hne (Artifacts.shader_eq h₁ h₂ heq)
  rw [(Run.reads_check input outputDir settings w).1]
  exact Run.checkIn_of_definition_ne hname hartifacts hread hdefinition

/-- The artifacts of a source with a letter for its vertex stage, behind other lines. -/
def letterArtifacts (before letter : Text) : Outcome Failure Artifacts :=
  Artifacts.ofSource "s.glsl"
    (before ++ "#shader vertex\n" ++ letter ++ "\n#shader fragment\nf\n") {}

/-- Lines in front of the stages are lost, so with them the definition and the shader are the same.
    With another letter both are others. -/
theorem definition_ne_of_letter : ∃ a₁ a₂ a₃,
    (letterArtifacts [] "v").result = .ok a₁ ∧
    (letterArtifacts "// other\n" "v").result = .ok a₂ ∧
    (letterArtifacts [] "w").result = .ok a₃ ∧
    a₁.definition = a₂.definition ∧ a₁.shader = a₂.shader ∧ a₁.definition ≠ a₃.definition := by
  have hprologue (before letter prologue : Text)
      (h : ((letterArtifacts before letter).result.toOption.map fun a => a.shader.vertex.prologue) =
        some prologue) :=
    Outcome.exists_of_toOption_map_eq_some h
  obtain ⟨a₁, h₁, hv⟩ := hprologue [] "v" "v\n" (by decide +kernel)
  obtain ⟨a₂, h₂, -⟩ := hprologue "// other\n" "v" "v\n" (by decide +kernel)
  obtain ⟨a₃, h₃, hw⟩ := hprologue [] "w" "w\n" (by decide +kernel)
  have hdefinitions : (letterArtifacts [] "v").result.toOption.map Artifacts.definition =
      (letterArtifacts "// other\n" "v").result.toOption.map Artifacts.definition := by
    decide +kernel
  rw [h₁, h₂] at hdefinitions
  have hsame : a₁.definition = a₂.definition := Option.some.inj hdefinitions
  refine ⟨a₁, a₂, a₃, h₁, h₂, h₃, hsame, (shader_eq_of_definition_eq h₁ h₂).1 hsame, ?_⟩
  intro heq
  have hshader := (shader_eq_of_definition_eq h₁ h₃).1 heq
  rw [← hshader, hv] at hw
  exact absurd hw (by decide +kernel)

end ShaderVariants
