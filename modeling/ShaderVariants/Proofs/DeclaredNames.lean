import ShaderVariants.Proofs.Generated.Object

/-!
# Names declared in the class

Accessors differ from each other, and so do the constants, setters and getters that are
named after them. What no check rules out are the names that the class has by itself:
a getter may be called as the getter of the mask is, and a getter or a setter as the
class or the struct.
-/

namespace ShaderVariants

open Cpp Code.Member

/-- The name that a member declares. -/
def Cpp.Member.name? : Cpp.Member → Option Text
  | .label _ | .constructor .. => none
  | .constant _ name _ | .field _ name _ | .function _ name _ _ => some name

/-- The names that the members declare, in order. -/
def Cpp.Record.names (r : Record) : List Text := r.members.filterMap Member.name?

variable {s : VariantShader} {t : Toggle} {a name : Text}

namespace Header

def memberName : Code.Member → Text
  | .bitConstant accessor _ => bitName accessor
  | .setter accessor _ => setterName accessor
  | .getter accessor => getterName accessor
  | .maskGetter => "GetMask"
  | .comparison op _ => "operator" ++ op.symbol
  | .assembler _ => "Assemble"
  | .maskField => "mask_"

/-- The names that every class declares. -/
def fixedNames : List Text :=
  ["GetMask", "operator" ++ "<", "operator" ++ "==", "operator" ++ "!=", "Assemble", "mask_"]

theorem names_configRecord (s : VariantShader) :
    (configRecord s).names = (members s).map memberName := by
  have hname : ∀ m : Code.Member, m.asCpp.name? = some (memberName m) := by
    rintro (_ | _ | _ | _ | _ | _ | _) <;> rfl
  have hnames : ∀ l : List Code.Member,
      (l.map Code.Member.asCpp).filterMap Cpp.Member.name? = l.map memberName := by
    intro l
    rw [List.filterMap_map, ← List.filterMap_eq_map]
    exact List.filterMap_congr fun m _ => hname m
  rw [Record.names, configRecord, List.filterMap_cons_none rfl, List.filterMap_append,
    List.filterMap_cons_none rfl, hnames, hnames, members, List.map_append]

theorem map_memberName_members (s : VariantShader) :
    (members s).map memberName =
      s.toggles.map (fun t => bitName t.accessor) ++
        (s.toggles.flatMap (fun t => [setterName t.accessor, getterName t.accessor]) ++
          fixedNames) := by
  rw [members_eq, List.map_append, List.map_map, List.map_append, List.map_flatMap]
  rfl

theorem mem_names_iff :
    name ∈ (configRecord s).names ↔
      (∃ t ∈ s.toggles, name = bitName t.accessor ∨ name = setterName t.accessor ∨
        name = getterName t.accessor) ∨ name ∈ fixedNames := by
  rw [names_configRecord, map_memberName_members]
  simp only [List.mem_append, List.mem_map, List.mem_flatMap, List.mem_cons, List.not_mem_nil,
    or_false]
  constructor
  · rintro (⟨t, ht, rfl⟩ | ⟨t, ht, h⟩ | h)
    · exact .inl ⟨t, ht, .inl rfl⟩
    · exact .inl ⟨t, ht, .inr h⟩
    · exact .inr h
  · rintro (⟨t, ht, rfl | h⟩ | h)
    · exact .inl ⟨t, ht, rfl⟩
    · exact .inr (.inl ⟨t, ht, h⟩)
    · exact .inr (.inr h)

/-! ## Names of different kinds -/

theorem setterName_ne_getterName (a b : Text) : setterName a ≠ getterName b := by
  simp [setterName, getterName, Text.ofString_eq_toList]

theorem bitName_ne_setterName (a b : Text) : bitName a ≠ setterName b := by
  simp [bitName, setterName, Text.ofString_eq_toList]

theorem bitName_ne_getterName (a b : Text) : bitName a ≠ getterName b := by
  simp [bitName, getterName, Text.ofString_eq_toList]

theorem bitName_notMem_fixedNames (a : Text) : bitName a ∉ fixedNames := by
  simp [fixedNames, bitName, Text.ofString_eq_toList]

theorem setterName_notMem_fixedNames (a : Text) : setterName a ∉ fixedNames := by
  simp [fixedNames, setterName, Text.ofString_eq_toList]

/-- One name of the class is the name of a getter. -/
theorem getterName_mem_fixedNames_iff : getterName a ∈ fixedNames ↔ a = "Mask" := by
  have hmask : ("GetMask" : Text) = getterName "Mask" := by
    rw [getterName]
    repeat rw [Text.ofString_ofList]
    rfl
  have hothers : getterName a ∉ fixedNames.tail := by
    simp [fixedNames, getterName, Text.ofString_eq_toList]
  have hnames : fixedNames = ("GetMask" : Text) :: fixedNames.tail := rfl
  rw [hnames, List.mem_cons, hmask, getterName_inj]
  exact or_iff_left hothers

theorem nodup_fixedNames : fixedNames.Nodup := by
  simp only [fixedNames, Text.ofString_eq_toList]
  decide

theorem length_le_of_mem_fixedNames (h : name ∈ fixedNames) : name.length ≤ 10 := by
  revert name
  simp only [fixedNames, Text.ofString_eq_toList]
  decide

/-- Those named after toggles are all different. -/
theorem nodup_toggle_names (h : s.IsSound) :
    (s.toggles.map (fun t => bitName t.accessor) ++
      s.toggles.flatMap fun t => [setterName t.accessor, getterName t.accessor]).Nodup := by
  have haccessors := List.pairwise_map.1 h.nodup_accessor
  refine List.nodup_append.2 ⟨?_, ?_, ?_⟩
  · refine List.pairwise_map.2 (haccessors.imp fun hne heq => hne (bitName_inj.1 heq))
  · refine List.nodup_flatMap.2 ⟨fun t _ => ?_, haccessors.imp fun {t u} hne => ?_⟩
    · simp [setterName_ne_getterName]
    · intro name ht hu
      rcases List.mem_pair.1 ht with rfl | rfl <;> rcases List.mem_pair.1 hu with hu | hu
      · exact hne (setterName_inj.1 hu)
      · exact setterName_ne_getterName _ _ hu
      · exact setterName_ne_getterName _ _ hu.symm
      · exact hne (getterName_inj.1 hu)
  · intro name hname other hother
    obtain ⟨t, -, rfl⟩ := List.mem_map.1 hname
    obtain ⟨u, -, hu⟩ := List.mem_flatMap.1 hother
    rcases List.mem_pair.1 hu with rfl | rfl
    · exact bitName_ne_setterName _ _
    · exact bitName_ne_getterName _ _

/-- The names of the members are different exactly if no accessor is the one of the mask. -/
theorem nodup_names_iff (h : s.IsSound) :
    (configRecord s).names.Nodup ↔ ∀ t ∈ s.toggles, t.accessor ≠ "Mask" := by
  rw [names_configRecord, map_memberName_members, ← List.append_assoc, List.nodup_append]
  constructor
  · rintro ⟨-, -, hne⟩ t ht heq
    refine hne (getterName t.accessor) ?_ _ (getterName_mem_fixedNames_iff.2 heq) rfl
    exact List.mem_append_right _ (List.mem_flatMap.2 ⟨t, ht, by simp⟩)
  · intro hmask
    refine ⟨nodup_toggle_names h, nodup_fixedNames, ?_⟩
    rintro name hname _ hfixed rfl
    rcases List.mem_append.1 hname with hname | hname
    · obtain ⟨t, -, rfl⟩ := List.mem_map.1 hname
      exact bitName_notMem_fixedNames _ hfixed
    · obtain ⟨t, ht, hname⟩ := List.mem_flatMap.1 hname
      rcases List.mem_pair.1 hname with rfl | rfl
      · exact setterName_notMem_fixedNames _ hfixed
      · exact hmask t ht (getterName_mem_fixedNames_iff.1 hfixed)

/-- The name of a type is no member's name exactly if it is none of a setter or a getter. -/
theorem type_notMem_names_iff (hname : IsPascal name) (hlength : 10 < name.length) :
    name ∉ (configRecord s).names ↔
      ∀ t ∈ s.toggles, name ≠ setterName t.accessor ∧ name ≠ getterName t.accessor := by
  have hbit : ∀ a, name ≠ bitName a := by
    obtain ⟨c, u, rfl, hc, -⟩ := hname
    intro a heq
    rw [bitName, Text.ofString_eq_toList] at heq
    obtain rfl := (List.cons.inj heq).1
    exact absurd hc (by decide)
  rw [mem_names_iff, not_or]
  constructor
  · rintro ⟨hnone, -⟩ t ht
    exact ⟨fun h => hnone ⟨t, ht, .inr (.inl h)⟩, fun h => hnone ⟨t, ht, .inr (.inr h)⟩⟩
  · intro hnone
    refine ⟨?_, fun h => Nat.not_le.2 hlength (length_le_of_mem_fixedNames h)⟩
    rintro ⟨t, ht, h | h | h⟩
    · exact hbit _ h
    · exact (hnone t ht).1 h
    · exact (hnone t ht).2 h

end Header

/-! ## The class of a source -/

/-- The members that a header declares for a source have no name twice and none of the two types'
    names exactly if no accessor makes a getter or a setter that is called as the getter of the mask
    or as one of the types. Unless a symbol closes the comment that it stands in, they are the
    members of the class in the header. -/
theorem nodup_declared_names_iff {fileName source : Text} {settings : Settings} {a : Artifacts}
    (hok : (Artifacts.ofSource fileName source settings).result = .ok a) :
    let p := a.shader.program
    ((∀ t ∈ a.shader.toggles, ¬closeMark <:+: t.symbol) →
        Program.ofTexts? (Header.content a.shader) (Definition.content a.shader) = some p) ∧
      Header.content a.shader <:+: a.header ∧
      p.config.name = typeName fileName ++ "ShaderConfig" ∧
      p.sources.name = typeName fileName ++ "ShaderSources" ∧
      (p.config.names.Nodup ∧ p.config.name ∉ p.config.names ∧
          p.sources.name ∉ p.config.names ↔
        ∀ t ∈ a.shader.toggles, t.accessor ≠ "Mask" ∧
          ∀ name ∈ [p.config.name, p.sources.name],
            name ≠ setterName t.accessor ∧ name ≠ getterName t.accessor) := by
  obtain ⟨hshader, hfiles⟩ := Artifacts.ofSource_eq_ok hok
  obtain ⟨c, -, hholds⟩ := VariantShader.holds_of_ofSource hshader
  have hsound := hholds.isSound
  have hlength : ∀ t : String, 10 < t.length → 10 < (a.shader.typeName ++ t).length := by
    intro t ht
    rw [List.length_append, Text.ofString_eq_toList, String.length_toList]
    omega
  have hconfig : a.shader.program.config.name ∉ a.shader.program.config.names ↔ _ :=
    Header.type_notMem_names_iff hsound.isPascal_configType (hlength _ (by decide))
  have hsources : a.shader.program.sources.name ∉ a.shader.program.config.names ↔ _ :=
    Header.type_notMem_names_iff hsound.isPascal_sourcesType (hlength _ (by decide))
  have hnodup : a.shader.program.config.names.Nodup ↔ _ := Header.nodup_names_iff hsound
  refine ⟨ofTexts?_content hsound, ?_, ?_, ?_, ?_⟩
  · rw [hfiles]
    exact unlines_isInfix_frameLines settings _ _ _
  · rw [← hholds.typeName_eq]
    rfl
  · rw [← hholds.typeName_eq]
    rfl
  · rw [hnodup, hconfig, hsources]
    constructor
    · rintro ⟨hmask, hconfig, hsources⟩ t ht
      refine ⟨hmask t ht, fun name hname => ?_⟩
      rcases List.mem_pair.1 hname with rfl | rfl
      · exact hconfig t ht
      · exact hsources t ht
    · intro h
      refine ⟨fun t ht => (h t ht).1, fun t ht => (h t ht).2 _ List.mem_cons_self, fun t ht => ?_⟩
      exact (h t ht).2 _ (List.mem_cons_of_mem _ List.mem_cons_self)

/-- A source with a symbol whose getter is called as the getter of the mask. -/
def maskSource : Text := "#shader vertex\n#ifdef MASK\nv\n#endif\n#shader fragment\nf\n"

/-- The class of that source declares a name twice. -/
theorem not_nodup_names_of_mask :
    ∃ a, (Artifacts.ofSource "mask.glsl" maskSource {}).result = .ok a ∧
      ∃ p, Program.ofTexts? (Header.content a.shader) (Definition.content a.shader) = some p ∧
        ¬(p.config.names.Nodup ∧ p.config.name ∉ p.config.names ∧
          p.sources.name ∉ p.config.names) := by
  have htoggles : ((Artifacts.ofSource "mask.glsl" maskSource {}).result.toOption.map
      fun a => a.shader.toggles) = some [⟨"MASK", "Mask", 0⟩] := by
    decide +kernel
  obtain ⟨a, hok, hlist⟩ := Outcome.exists_of_toOption_map_eq_some htoggles
  have hmem : ⟨"MASK", "Mask", 0⟩ ∈ a.shader.toggles := by
    rw [hlist]
    exact List.mem_cons_self
  obtain ⟨hread, -, -, -, hiff⟩ := nodup_declared_names_iff hok
  have hmarks : ∀ t ∈ a.shader.toggles, ¬closeMark <:+: t.symbol := by
    rw [hlist]
    decide +kernel
  refine ⟨a, hok, a.shader.program, hread hmarks, ?_⟩
  intro h
  exact (hiff.1 h _ hmem).1 rfl

end ShaderVariants
