import ShaderVariants.Proofs.Lines
import ShaderVariants.Proofs.Shaders

/-!
# The lines of a variant

A stage's lines come from the source in their order, so only the last line of the source
can be open. The text of a variant has the first line of the stage, a line for each
symbol that is on, and the other lines of the stage, unless the stage is one open line:
then the first directive is joined to that line.
-/

namespace ShaderVariants

variable {fileName source : Text} {s : VariantShader} {c : Capture} {stage : Stage} {v : Variant}
  {first : Text} {rest : List Text}

theorem Toggle.map_symbol_bit_bindFrom (bit : Nat) (taken l : List Text) :
    (Toggle.bindFrom bit taken l).map (fun t => (t.symbol, t.bit)) = l.zipIdx bit := by
  induction l generalizing bit taken with
  | nil => rfl
  | cons symbol l ih =>
    rw [Toggle.bindFrom_cons, List.map_cons, ih, List.zipIdx_cons]

namespace Capture

/-- The directives of the symbols whose bit is set, in bit order. -/
def directives (c : Capture) (v : Variant) : List Text :=
  (c.symbols.names.zipIdx.filter fun p => v.mask.getLsbD p.2).map fun p =>
    "#define " ++ p.1 ++ ['\n']

theorem isClosed_of_mem_directives (h : ofSource? source = .ok c) {line : Text}
    (hline : line ∈ c.directives v) : line.IsClosed := by
  obtain ⟨p, hp, rfl⟩ := List.mem_map.1 hline
  have hname : p.1 ∈ c.symbols :=
    (List.mem_zipIdx (List.mem_filter.1 hp).1).2.2 ▸ List.getElem_mem _
  refine ⟨_, rfl, fun hmem => ?_⟩
  rcases List.mem_append.1 hmem with hmem | hmem
  · rw [Text.ofString_eq_toList] at hmem
    exact absurd hmem (by decide)
  · exact (isWord_of_mem_symbols h hname).newline_notMem hmem

theorem isCut_stageLines (h : ofSource? source = .ok c) (stage : Stage) :
    Text.IsCut (c.stageLines stage) := by
  rw [ofSource?_eq] at h
  exact (Text.isCut_lines source).sublist (stageLines_sublist h stage)

end Capture

namespace VariantShader

/-- The shader's directives are those of the capture. -/
theorem Holds.map_defines (h : Holds fileName c s) (v : Variant) :
    (StageText.defines s.toggles v).map (· ++ ['\n']) = c.directives v := by
  have hbits : c.symbols.names.zipIdx = s.toggles.map fun t => (t.symbol, t.bit) := by
    rw [h.toggles_eq]
    exact (Toggle.map_symbol_bit_bindFrom 0 [] c.symbols.names).symm
  have hget : s.toggles.filter v.get = s.toggles.filter fun t => v.mask.getLsbD t.bit := by
    exact List.filter_congr fun t ht => v.get_eq_getLsbD (h.bit_lt ht)
  rw [StageText.defines, Capture.directives, hbits, hget, List.filter_map, List.map_map,
    List.map_map]
  rfl

/-- The text of a variant as the lines that it is made of. -/
theorem Holds.assemble_eq (h : Holds fileName c s) (hlines : c.stageLines stage = first :: rest) :
    s.assemble stage v = (first :: (c.directives v ++ rest)).flatten := by
  rw [h.lines_eq] at hlines
  obtain ⟨hfirst, hrest⟩ := List.cons.inj hlines
  rw [← h.map_defines, ← hfirst, ← hrest, List.flatten_cons, List.flatten_append,
    ← List.flatMap_def, assemble, StageText.assemble, Text.unlines, List.append_assoc]

theorem Holds.lines_assemble_of_isClosed (h : Holds fileName c s)
    (hsource : Capture.ofSource? source = .ok c) (hlines : c.stageLines stage = first :: rest)
    (hfirst : first.IsClosed) :
    (s.assemble stage v).lines = first :: (c.directives v ++ rest) := by
  have hcut := Capture.isCut_stageLines hsource stage
  rw [hlines] at hcut
  rw [h.assemble_eq hlines]
  refine ((hcut.tail.append fun line hline => ?_).cons hfirst).lines_flatten
  exact Capture.isClosed_of_mem_directives hsource hline

/-- Behind an open line there is no other line of its stage, and the first directive is joined to
    it. -/
theorem Holds.lines_assemble_of_isOpen (h : Holds fileName c s)
    (hsource : Capture.ofSource? source = .ok c) (hlines : c.stageLines stage = [first])
    (hfirst : '\n' ∉ first) {d : Text} {ds : List Text} (hd : c.directives v = d :: ds) :
    (s.assemble stage v).lines = (first ++ d) :: ds := by
  have hclosed : ∀ line ∈ d :: ds, line.IsClosed := fun line hline =>
    Capture.isClosed_of_mem_directives hsource (hd ▸ hline)
  obtain ⟨u, hu, hnewline⟩ := hclosed d List.mem_cons_self
  have hjoined : (first ++ d).IsClosed := by
    refine ⟨first ++ u, by rw [hu, List.append_assoc], fun hmem => ?_⟩
    rcases List.mem_append.1 hmem with hmem | hmem
    · exact hfirst hmem
    · exact hnewline hmem
  have hcut : Text.IsCut ((first ++ d) :: ds) := by
    have hds := Text.IsCut.nil.append fun line hline =>
      hclosed line (List.mem_cons_of_mem d hline)
    rw [List.append_nil] at hds
    exact hds.cons hjoined
  have htext : (first :: (d :: ds ++ [])).flatten = ((first ++ d) :: ds).flatten := by
    rw [List.append_nil, List.flatten_cons, List.flatten_cons, List.flatten_cons,
      List.append_assoc]
  rw [h.assemble_eq hlines, hd, htext, hcut.lines_flatten]

end VariantShader

/-- The lines of a variant are the first line of the stage, the directives of the symbols whose bit
    is set and the other lines of the stage, except where the stage is one line without a newline
    and some symbol is on. -/
theorem lines_assemble_eq_iff (hok : (VariantShader.ofSource fileName source).result = .ok s) :
    ∃ c, Capture.ofSource? source = .ok c ∧
      ∀ (stage : Stage) (v : Variant), ∃ first rest, c.stageLines stage = first :: rest ∧
        ((s.assemble stage v).lines = first :: (c.directives v ++ rest) ↔
          rest ≠ [] ∨ '\n' ∈ first ∨ c.directives v = []) := by
  obtain ⟨c, hsource, hholds⟩ := VariantShader.holds_of_ofSource hok
  refine ⟨c, hsource, fun stage v => ?_⟩
  have hlines := hholds.lines_eq stage
  rw [StageText.toLines] at hlines
  refine ⟨_, _, hlines, ?_⟩
  have hcut := Capture.isCut_stageLines hsource stage
  rw [hlines] at hcut
  constructor
  · intro h
    by_contra hnot
    simp only [not_or, not_not] at hnot
    obtain ⟨hrest, hfirst, hne⟩ := hnot
    obtain ⟨d, ds, hd⟩ := List.exists_cons_of_ne_nil hne
    rw [hrest] at hlines
    rw [hholds.lines_assemble_of_isOpen hsource hlines hfirst hd, hrest, hd] at h
    have hlength := congrArg List.length h
    simp at hlength
  · rintro (hrest | hfirst | hnone)
    · exact hholds.lines_assemble_of_isClosed hsource hlines (hcut.head_isClosed hrest)
    · rcases hcut.isClosed_or_isOpen _ List.mem_cons_self with hclosed | hopen
      · exact hholds.lines_assemble_of_isClosed hsource hlines hclosed
      · exact absurd hfirst hopen.2
    · rw [hholds.assemble_eq hlines, hnone, List.nil_append]
      exact hcut.lines_flatten

/-- A source whose fragment stage is one line without a newline. -/
def openSource : Text := "#ifdef FOG\n#shader vertex\nv\n#shader fragment\nf"

/-- With that source and its symbol on, the fragment text is not made of those lines. -/
theorem lines_assemble_ne_of_open :
    ∃ s c, (VariantShader.ofSource "fog.glsl" openSource).result = .ok s ∧
      Capture.ofSource? openSource = .ok c ∧ c.stageLines .fragment = [['f']] ∧
      (s.assemble .fragment ⟨1⟩).lines ≠ ['f'] :: c.directives ⟨1⟩ := by
  have hcapture : ((Capture.ofSource? openSource).toOption.map fun c =>
      (c.stageLines .fragment, c.directives ⟨1⟩)) = some ([['f']], [("#define FOG\n" : Text)]) := by
    decide +kernel
  have htype : ((VariantShader.ofSource "fog.glsl" openSource).result.toOption.map
      fun s => s.typeName) = some "Fog" := by
    decide +kernel
  obtain ⟨s, hok, -⟩ := Outcome.exists_of_toOption_map_eq_some htype
  obtain ⟨c, hsource, hlines⟩ := lines_assemble_eq_iff hok
  rw [hsource] at hcapture
  obtain ⟨hstage, hdirectives⟩ := Prod.mk.inj (Option.some.inj hcapture)
  obtain ⟨first, rest, hcut, hiff⟩ := hlines .fragment ⟨1⟩
  rw [hstage] at hcut
  obtain ⟨rfl, rfl⟩ := List.cons.inj hcut
  refine ⟨s, c, hok, hsource, hstage, ?_⟩
  intro heq
  rw [List.append_nil, hdirectives] at hiff
  rw [hdirectives] at heq
  rcases hiff.1 heq with hne | hnewline | hnone
  · exact hne rfl
  · exact absurd hnewline (by decide)
  · exact absurd hnone (List.cons_ne_nil _ _)

end ShaderVariants
