import ShaderVariants.Artifacts
import ShaderVariants.Proofs.Generated.Statements
import ShaderVariants.Proofs.Shaders

/-!
# Sound shaders

Every shader that a source gives has names that C++ takes as names, and so do all
members and statements that are generated for it.
-/

namespace ShaderVariants

open Cpp

variable {s : VariantShader}

namespace Header

/-- The members without their groups. -/
theorem members_eq (s : VariantShader) :
    members s = (s.toggles.map fun t => .bitConstant t.accessor t.bit) ++
      (s.toggles.flatMap (fun t => [.setter t.accessor t.symbol, .getter t.accessor]) ++
        (.maskGetter :: (Code.Comparison.all.map (fun op => .comparison op s.configType) ++
          [.assembler s.sourcesType, .maskField]))) := by
  have hconstants : (if s.toggles = [] then []
      else [s.toggles.map fun t => Code.Member.bitConstant t.accessor t.bit]).flatten =
        s.toggles.map fun t => Code.Member.bitConstant t.accessor t.bit := by
    split
    · next h => rw [h]; rfl
    · exact List.flatten_singleton
  rw [members, publicGroups, privateMembers, List.flatten_append, List.flatten_append, hconstants,
    ← List.flatMap_def, List.append_assoc, List.append_assoc]
  rfl

/-- What is declared: three members for each toggle, and those that every class has. -/
theorem mem_members_iff {m : Code.Member} :
    m ∈ members s ↔
      (∃ t ∈ s.toggles, m = .bitConstant t.accessor t.bit ∨ m = .setter t.accessor t.symbol ∨
        m = .getter t.accessor) ∨
      m = .maskGetter ∨ (∃ op, m = .comparison op s.configType) ∨
      m = .assembler s.sourcesType ∨ m = .maskField := by
  have hcomparisons :
      m ∈ Code.Comparison.all.map (fun op => Code.Member.comparison op s.configType) ↔
        ∃ op, m = .comparison op s.configType := by
    constructor
    · intro h
      obtain ⟨op, -, rfl⟩ := List.mem_map.1 h
      exact ⟨op, rfl⟩
    · rintro ⟨op, rfl⟩
      refine List.mem_map_of_mem ?_
      cases op <;> decide
  simp only [members_eq, List.mem_append, hcomparisons, List.mem_cons, List.not_mem_nil, or_false,
    List.mem_flatMap, List.mem_map]
  constructor
  · rintro (⟨t, ht, rfl⟩ | ⟨t, ht, h⟩ | h)
    · exact .inl ⟨t, ht, .inl rfl⟩
    · exact .inl ⟨t, ht, .inr h⟩
    · exact .inr h
  · rintro (⟨t, ht, rfl | h⟩ | h)
    · exact .inl ⟨t, ht, rfl⟩
    · exact .inr (.inl ⟨t, ht, h⟩)
    · exact .inr (.inr h)

/-- Comments are kept where no symbol closes one. -/
theorem keepsComment_of_mem (hmarks : ∀ t ∈ s.toggles, ¬closeMark <:+: t.symbol)
    {m : Code.Member} (hm : m ∈ members s) : m.KeepsComment := by
  rcases mem_members_iff.1 hm with ⟨t, ht, rfl | rfl | rfl⟩ | rfl | ⟨op, rfl⟩ | rfl | rfl
  case inl.inr.inl => exact hmarks t ht
  all_goals trivial

end Header

namespace VariantShader

/-- The names of the shader are names of C++. -/
structure IsSound (s : VariantShader) : Prop where
  includable : isIncludable s.fileName = true
  isPascal_typeName : IsPascal s.typeName
  isWhole_accessor : ∀ t ∈ s.toggles, IsWhole t.accessor
  nodup_accessor : (s.toggles.map Toggle.accessor).Nodup
  bit_lt : ∀ t ∈ s.toggles, t.bit < 64

/-- Each symbol is a word of the source. -/
theorem Holds.isWord_symbol {fileName source : Text} {c : Capture} (h : Holds fileName c s)
    (hsource : Capture.ofSource? source = .ok c) {t : Toggle} (ht : t ∈ s.toggles) :
    t.symbol.IsWord := by
  have hsymbol : t.symbol ∈ c.symbols := by
    rw [Symbols.mem_iff, ← Toggle.map_symbol_ofSymbols, ← h.toggles_eq]
    exact List.mem_map_of_mem ht
  exact Capture.isWord_of_mem_symbols hsource hsymbol

theorem Holds.isSound {fileName : Text} {c : Capture} (h : Holds fileName c s) : s.IsSound where
  includable := h.fileName_eq ▸ h.includable
  isPascal_typeName := h.typeName_eq ▸ isPascal_typeName fileName
  isWhole_accessor t ht := by
    rw [h.toggles_eq] at ht
    refine ⟨?_, Toggle.isIdentifierPart_accessor ht⟩
    have hname := (isPascal_accessorName t.symbol).ne_nil
    rcases Toggle.accessor_eq_of_mem_bindFrom ht with heq | heq
    · exact heq ▸ hname
    · rw [heq]
      exact fun hnil => hname (List.append_eq_nil_iff.1 hnil).1
  nodup_accessor := h.toggles_eq ▸ Toggle.nodup_accessor_ofSymbols c.symbols
  bit_lt _ ht := h.bit_lt ht

theorem isSound_of_ofSource {fileName source : Text}
    (h : (ofSource fileName source).result = .ok s) : s.IsSound := by
  obtain ⟨c, -, hholds⟩ := holds_of_ofSource h
  exact hholds.isSound

namespace IsSound

theorem isPascal_behind (h : s.IsSound) {t : String}
    (ht : t.toList.all Char.isAlphanum = true) : IsPascal (s.typeName ++ t) := by
  obtain ⟨c, u, heq, hc, hu⟩ := h.isPascal_typeName
  refine ⟨c, u ++ t, by rw [heq]; rfl, hc, fun d hd => ?_⟩
  rcases List.mem_append.1 hd with hd | hd
  · exact hu d hd
  · rw [Text.ofString_eq_toList] at hd
    exact List.all_eq_true.1 ht d hd

theorem isPascal_sourcesType (h : s.IsSound) : IsPascal s.sourcesType :=
  h.isPascal_behind (by decide)

theorem isPascal_configType (h : s.IsSound) : IsPascal s.configType :=
  h.isPascal_behind (by decide)

theorem isSound_member (h : s.IsSound) {m : Code.Member} (hm : m ∈ Header.members s) :
    m.IsSound := by
  rcases Header.mem_members_iff.1 hm with
    ⟨t, ht, rfl | rfl | rfl⟩ | rfl | ⟨op, rfl⟩ | rfl | rfl
  · exact h.isWhole_accessor t ht
  · exact h.isWhole_accessor t ht
  · exact h.isWhole_accessor t ht
  · trivial
  · exact h.isPascal_configType
  · exact h.isPascal_sourcesType
  · trivial

theorem isSound_statement (h : s.IsSound) {stage : Stage} {a : Code.Statement}
    (ha : a ∈ Definition.stageStatements s stage) : a.IsSound := by
  simp only [Definition.stageStatements, Code.Statement.ofStage, List.cons_append, List.mem_cons,
    List.mem_append, List.mem_map] at ha
  rcases ha with rfl | ⟨t, ht, rfl⟩ | ⟨pieces, hpieces, rfl⟩
  · trivial
  · exact h.isWhole_accessor t ht
  · exact Packing.ne_nil_of_mem_pack hpieces

end IsSound

end VariantShader

end ShaderVariants
