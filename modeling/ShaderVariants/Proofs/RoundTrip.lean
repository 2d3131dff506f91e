import ShaderVariants.Proofs.Generated.Assembling

/-!
# What the generated code does

The generated files are the program of the shader, so running them is known: the class
keeps the mask of the variant that its setters make, its getters answer for that
variant, and its function returns the texts that the shader has for it.

That holds where no symbol closes the comment that it stands in. The header spells a
symbol as it is, so what a symbol has behind a `*/` is code of the class.

It holds where a string takes a literal as it is. The function assigns and appends
literals as pointers to characters, of which a string takes what stands before the
first U+0000, so a text with that character is lost from there on.
-/

namespace ShaderVariants

open Cpp

variable {s : VariantShader} {v : Variant} {stage : Stage}

/-! ## Strings that take all of a literal -/

theorem flatten_bodyPieces (body : List Text) :
    (Code.Statement.bodyPieces body).flatten = body.flatten := by
  induction body with
  | nil => rfl
  | cons line body ih =>
    rw [Code.Statement.bodyPieces, List.flatMap_cons, List.flatten_append, Text.flatten_pieces,
      List.flatten_cons]
    exact congrArg (line ++ ·) ih

theorem flatten_map_flatten_pack (body : List Text) :
    ((Packing.pack Text.utf8Size Code.Statement.statementLimit
      (Code.Statement.bodyPieces body)).map List.flatten).flatten = body.flatten := by
  rw [← List.flatten_flatten, Packing.flatten_pack, flatten_bodyPieces]

/-- Put together from whole literals, the text of a stage is the text of the variant. -/
theorem flatten_literals (s : VariantShader) (stage : Stage) (v : Variant) :
    (s.literals stage v).flatten = s.assemble stage v := by
  rw [VariantShader.literals, List.flatten_cons, List.flatten_append, flatten_map_flatten_pack,
    VariantShader.assemble, StageText.assemble, StageText.defines, Text.unlines,
    List.flatMap_map, List.append_assoc]
  rfl

/-- Unless a symbol closes the comment that it stands in, the files that a source gives are read as
    a program, and the program does what the shader says: after any calls of setters on a new
    object, the mask is that of the variant which the same calls make, each getter answers for that
    variant, and the function returns its texts. -/
theorem run_generated {fileName source : Text} {settings : Settings} {a : Artifacts}
    (hvalid : settings.IsValid)
    (hok : (Artifacts.ofSource fileName source settings).result = .ok a)
    (hmarks : ∀ t ∈ a.shader.toggles, ¬closeMark <:+: t.symbol)
    (calls : List (Toggle × Bool)) (hcalls : ∀ call ∈ calls, call.1 ∈ a.shader.toggles) :
    ∃ p object,
      Program.ofTexts? a.header a.definition = some p ∧
      p.config.setAll (calls.map fun call => (Code.Member.setterName call.1.accessor, call.2))
        p.config.initial = some object ∧
      let v : Variant := calls.foldl (fun v call => v.set call.1 call.2) ∅
      p.config.get .uint64 "GetMask" object = some (.word v.mask) ∧
      (∀ t ∈ a.shader.toggles, p.config.get .bool (Code.Member.getterName t.accessor) object =
        some (.truth (v.get t))) ∧
      ∀ stage : Stage, p.assembled id object stage.keyword = some (a.shader.assemble stage v) := by
  obtain ⟨hshader, hfiles⟩ := Artifacts.ofSource_eq_ok hok
  have hsound := VariantShader.isSound_of_ofSource hshader
  obtain ⟨object, hset, hobject⟩ := (represents_initial hsound).setAll hcalls
  refine ⟨a.shader.program, object, ?_, hset, hobject.getMask, fun t ht => hobject.get ht, ?_⟩
  · rw [hfiles]
    exact ofTexts?_text hsound hmarks hvalid
  · intro stage
    rw [hobject.assembled, List.flatMap_id, flatten_literals]

/-- A source with one symbol. -/
def fogSource : Text := "#shader vertex\nv\n#shader fragment\n#ifdef FOG\nf\n#endif\n"

/-- The one symbol, turned on. -/
theorem run_generated_fog :
    ∃ a, (Artifacts.ofSource "fog.glsl" fogSource {}).result = .ok a ∧
      ⟨"FOG", "Fog", 0⟩ ∈ a.shader.toggles ∧
      ∃ p object,
        Program.ofTexts? a.header a.definition = some p ∧
        p.config.setAll [(Code.Member.setterName "Fog", true)] p.config.initial = some object ∧
        p.config.get .uint64 "GetMask" object = some (.word 1) ∧
        ∀ stage : Stage,
          p.assembled id object stage.keyword = some (a.shader.assemble stage ⟨1⟩) := by
  have htoggles : ((Artifacts.ofSource "fog.glsl" fogSource {}).result.toOption.map
      fun a => a.shader.toggles) = some [⟨"FOG", "Fog", 0⟩] := by
    decide +kernel
  obtain ⟨a, hok, hlist⟩ := Outcome.exists_of_toOption_map_eq_some htoggles
  have hfog : ⟨"FOG", "Fog", 0⟩ ∈ a.shader.toggles := by
    rw [hlist]
    exact List.mem_cons_self
  have hmarks : ∀ t ∈ a.shader.toggles, ¬closeMark <:+: t.symbol := by
    rw [hlist]
    decide +kernel
  have hcalls : ∀ call ∈ [((⟨"FOG", "Fog", 0⟩ : Toggle), true)], call.1 ∈ a.shader.toggles := by
    intro call hcall
    rw [List.mem_singleton] at hcall
    rw [hcall]
    exact hfog
  obtain ⟨p, object, hread, hset, hmask, -, htexts⟩ :=
    run_generated (by decide +kernel) hok hmarks [(⟨"FOG", "Fog", 0⟩, true)] hcalls
  exact ⟨a, hok, hfog, p, object, hread, hset, hmask, htexts⟩

/-- A source with a symbol that closes its comment and goes on with a constructor. -/
def constructorSource : Text :=
  "#shader vertex\n#ifdef A*/FogShaderConfig()\x7bmask_=1;\x7d/*\nv\n#endif\n#shader fragment\nf\n"

/-- The class of that source runs the constructor, so a new object has the bit of the symbol before
    any setter is called. -/
theorem getMask_initial_of_closeMark :
    ∃ a, (Artifacts.ofSource "fog.glsl" constructorSource {}).result = .ok a ∧
      ∃ p, Program.ofTexts? a.header a.definition = some p ∧
        p.config.get .uint64 "GetMask" p.config.initial = some (.word 1) := by
  have hrun : ((Artifacts.ofSource "fog.glsl" constructorSource {}).result.toOption.map fun a =>
      (Program.ofTexts? a.header a.definition).map fun p =>
        p.config.get .uint64 "GetMask" p.config.initial) = some (some (some (.word 1))) := by
    decide +kernel
  obtain ⟨a, hok, hprogram⟩ := Outcome.exists_of_toOption_map_eq_some hrun
  obtain ⟨p, hread, hmask⟩ := Option.map_eq_some_iff.1 hprogram
  exact ⟨a, hok, p, hread, hmask⟩

/-! ## Strings that end at U+0000 -/

/-- What a string takes of a literal that it is given by a pointer. -/
def untilNul (t : Text) : Text := t.takeWhile (· ≠ '\x00')

theorem nul_notMem_untilNul (t : Text) : '\x00' ∉ untilNul t := by
  intro h
  exact absurd (List.mem_takeWhile_imp h) (by decide)

theorem untilNul_eq_self {t : Text} (h : '\x00' ∉ t) : untilNul t = t := by
  refine List.takeWhile_eq_self_iff.2 fun c hc => ?_
  exact decide_eq_true fun heq => h (heq ▸ hc)

/-- Literals lose nothing exactly where none has that character. -/
theorem flatMap_untilNul_eq_flatten_iff {l : List Text} :
    l.flatMap untilNul = l.flatten ↔ '\x00' ∉ l.flatten := by
  constructor
  · intro h hmem
    rw [← h] at hmem
    obtain ⟨t, -, ht⟩ := List.mem_flatMap.1 hmem
    exact nul_notMem_untilNul t ht
  · intro h
    rw [← List.flatMap_id]
    refine List.flatMap_congr fun t ht => untilNul_eq_self fun hmem => h ?_
    exact List.mem_flatten.2 ⟨t, ht, hmem⟩

/-- Where strings take literals by pointers, the function returns the text of a variant exactly if
    that text has no U+0000. Whatever the settings are, the function stands in the definition, and
    the class in the header unless a symbol closes the comment that it stands in. -/
theorem assembled_untilNul_eq_iff {fileName source : Text} {settings : Settings} {a : Artifacts}
    (hok : (Artifacts.ofSource fileName source settings).result = .ok a) :
    let p := a.shader.program
    Reader.definition.ofText? (Definition.content a.shader) = some p.assemble ∧
      ((∀ t ∈ a.shader.toggles, ¬closeMark <:+: t.symbol) →
        Program.ofTexts? (Header.content a.shader) (Definition.content a.shader) = some p) ∧
      Header.content a.shader <:+: a.header ∧
      Definition.content a.shader <:+: a.definition ∧
      ∀ v : Variant,
        let object := p.config.initial.set ["mask_"] (.word v.mask)
        p.config.get .uint64 "GetMask" object = some (.word v.mask) ∧
        ∀ stage : Stage, ∃ t, p.assembled untilNul object stage.keyword = some t ∧
          (t = a.shader.assemble stage v ↔ '\x00' ∉ a.shader.assemble stage v) := by
  obtain ⟨hshader, hfiles⟩ := Artifacts.ofSource_eq_ok hok
  have hsound := VariantShader.isSound_of_ofSource hshader
  refine ⟨ofText?_content hsound, ofTexts?_content hsound, ?_, ?_, fun v => ?_⟩
  · rw [hfiles]
    exact unlines_isInfix_frameLines settings _ _ _
  · rw [hfiles]
    exact unlines_isInfix_frameLines settings _ _ _
  · have hobject := (represents_initial hsound).setMask v
    refine ⟨hobject.getMask, fun stage => ⟨_, hobject.assembled untilNul stage, ?_⟩⟩
    rw [← flatten_literals]
    exact flatMap_untilNul_eq_flatten_iff

/-- A source whose vertex stage has U+0000 between two letters. -/
def nulSource : Text := "#shader vertex\na\x00b\n#shader fragment\nf\n"

/-- With that source the function returns a vertex text that is not the one of the variant. -/
theorem assembled_untilNul_ne_of_nul :
    ∃ a, (Artifacts.ofSource "nul.glsl" nulSource {}).result = .ok a ∧
      ∃ p t, Program.ofTexts? (Header.content a.shader) (Definition.content a.shader) = some p ∧
        p.assembled untilNul (p.config.initial.set ["mask_"] (.word 0)) "vertex" = some t ∧
        t ≠ a.shader.assemble .vertex ∅ := by
  have htext : ((Artifacts.ofSource "nul.glsl" nulSource {}).result.toOption.map fun a =>
      (a.shader.toggles, a.shader.assemble .vertex ∅)) =
        some (([] : List Toggle), ['a', '\x00', 'b', '\n']) := by
    decide +kernel
  obtain ⟨a, hok, ha⟩ := Outcome.exists_of_toOption_map_eq_some htext
  obtain ⟨htoggles, hassemble⟩ := Prod.mk.inj ha
  obtain ⟨-, hread, -, -, hrun⟩ := assembled_untilNul_eq_iff hok
  have hmarks : ∀ t ∈ a.shader.toggles, ¬closeMark <:+: t.symbol := by
    rw [htoggles]
    exact List.forall_mem_nil _
  obtain ⟨-, htexts⟩ := hrun ∅
  obtain ⟨t, ht, hiff⟩ := htexts .vertex
  refine ⟨a, hok, a.shader.program, t, hread hmarks, ht, ?_⟩
  intro heq
  have hnul := hiff.1 heq
  rw [hassemble] at hnul
  exact hnul (by decide)

end ShaderVariants
