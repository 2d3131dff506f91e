import Mathlib.Data.List.Nodup
import ShaderVariants.Proofs.AssembledLines

/-!
# Distinct variants

The directives of a variant are closed lines that name distinct symbols, so the text of a
stage shows which symbols are on. Two variants have the same text exactly if their masks
agree on the bits of the symbols; the bits beyond change nothing.
-/

namespace ShaderVariants

variable {fileName source : Text} {s : VariantShader} {c : Capture} {v w : Variant}

namespace Capture

/-- The symbols whose bit is set, in bit order. -/
def enabledNames (c : Capture) (v : Variant) : List Text :=
  (c.symbols.names.zipIdx.filter fun p => v.mask.getLsbD p.2).map Prod.fst

theorem directives_eq_map (c : Capture) (v : Variant) :
    c.directives v = (c.enabledNames v).map fun name => "#define " ++ name ++ ['\n'] := by
  rw [enabledNames, List.map_map]
  rfl

/-- A symbol is among them exactly if its own bit is set: no other position has its name. -/
theorem getElem_mem_enabledNames_iff {i : Nat} (hi : i < c.symbols.names.length) :
    c.symbols.names[i] ∈ c.enabledNames v ↔ v.mask.getLsbD i = true := by
  constructor
  · intro hmem
    obtain ⟨p, hp, hname⟩ := List.mem_map.1 hmem
    obtain ⟨hp, hbit⟩ := List.mem_filter.1 hp
    obtain ⟨hlt, heq⟩ := List.mem_zipIdx' hp
    obtain rfl : p.2 = i := (List.Nodup.getElem_inj_iff c.symbols.nodup).1 (heq.symm.trans hname)
    exact hbit
  · intro hbit
    have hp : (c.symbols.names[i], i) ∈ c.symbols.names.zipIdx :=
      List.mk_mem_zipIdx_iff_getElem?.2 (List.getElem?_eq_getElem hi)
    exact List.mem_map_of_mem (List.mem_filter.2 ⟨hp, hbit⟩)

theorem enabledNames_eq_iff :
    c.enabledNames v = c.enabledNames w ↔
      ∀ i < c.symbols.size, v.mask.getLsbD i = w.mask.getLsbD i := by
  constructor
  · intro h i hi
    rw [Bool.eq_iff_iff, ← getElem_mem_enabledNames_iff hi, ← getElem_mem_enabledNames_iff hi, h]
  · intro h
    refine congrArg (List.map Prod.fst) (List.filter_congr fun p hp => ?_)
    exact h p.2 (List.snd_lt_of_mem_zipIdx hp)

theorem isCut_directives (h : ofSource? source = .ok c) (v : Variant) :
    Text.IsCut (c.directives v) := by
  have hcut := Text.IsCut.nil.append fun line hline => isClosed_of_mem_directives (v := v) h hline
  rwa [List.append_nil] at hcut

/-- The text of the directives is cut into them in one way. -/
theorem flatten_directives_eq_iff (h : ofSource? source = .ok c) :
    (c.directives v).flatten = (c.directives w).flatten ↔ c.enabledNames v = c.enabledNames w := by
  constructor
  · intro heq
    have hlines : c.directives v = c.directives w := by
      rw [← (isCut_directives h v).lines_flatten, heq, (isCut_directives h w).lines_flatten]
    rw [directives_eq_map, directives_eq_map] at hlines
    refine List.map_injective_iff.2 (fun name name' hname => ?_) hlines
    exact List.append_cancel_left (List.append_cancel_right hname)
  · intro heq
    rw [directives_eq_map, directives_eq_map, heq]

end Capture

/-- Two variants of a shader have the same text of a stage exactly if their masks agree on the low
    bits, one for each symbol. -/
theorem assemble_eq_iff (hok : (VariantShader.ofSource fileName source).result = .ok s)
    (stage : Stage) (v w : Variant) :
    s.assemble stage v = s.assemble stage w ↔
      ∀ i < s.toggles.length, v.mask.getLsbD i = w.mask.getLsbD i := by
  obtain ⟨c, hsource, hholds⟩ := VariantShader.holds_of_ofSource hok
  have hlines := hholds.lines_eq stage
  rw [StageText.toLines] at hlines
  have hsize : s.toggles.length = c.symbols.size := by
    rw [hholds.toggles_eq, Toggle.length_ofSymbols]
  rw [hsize, ← Capture.enabledNames_eq_iff, ← Capture.flatten_directives_eq_iff hsource,
    hholds.assemble_eq hlines, hholds.assemble_eq hlines, List.flatten_cons, List.flatten_cons,
    List.flatten_append, List.flatten_append, List.append_cancel_left_eq,
    List.append_cancel_right_eq]

/-- A source whose fragment stage is one open line, with a symbol that begins like another. -/
def twoSymbolSource : Text := "#ifdef A\n#ifdef AB\n#shader vertex\nv\n#shader fragment\nf"

/-- With that source the first two bits count and the third does not. -/
theorem assemble_eq_and_ne_of_two_symbols :
    ∃ s, (VariantShader.ofSource "s.glsl" twoSymbolSource).result = .ok s ∧
      s.toggles.length = 2 ∧
      s.assemble .fragment ⟨1⟩ = s.assemble .fragment ⟨5⟩ ∧
      s.assemble .fragment ⟨1⟩ ≠ s.assemble .fragment ⟨2⟩ := by
  have hcount : ((VariantShader.ofSource "s.glsl" twoSymbolSource).result.toOption.map
      fun s => s.toggles.length) = some 2 := by
    decide +kernel
  obtain ⟨s, hok, hlength⟩ := Outcome.exists_of_toOption_map_eq_some hcount
  refine ⟨s, hok, hlength, ?_, ?_⟩
  · rw [assemble_eq_iff hok, hlength]
    decide
  · rw [ne_eq, assemble_eq_iff hok, hlength]
    decide

end ShaderVariants
