import ShaderVariants.Proofs.AppendedSources
import ShaderVariants.Proofs.AssembledLines

/-!
# Symbols in effect

A symbol that is on takes effect on a line only from its directive on. The scan takes the
symbol of every line that it keeps, so each such symbol has a toggle, and the directives
stand behind the first line of a stage and in front of all others. A first line is out of
their reach.
-/

namespace ShaderVariants

variable {fileName source : Text} {s : VariantShader} {c : Capture} {v : Variant}

namespace Capture

variable {active : Option Stage} {number : Nat} {seen : Symbols} {lines : List Text}
  {line name : Text} {stage : Stage}

theorem mem_noteSymbol_self (seen : Symbols) (h : SourceLine.ifdefSymbol? line = some name) :
    name ∈ noteSymbol seen line := by
  unfold noteSymbol
  rw [h]
  exact Symbols.mem_insert.2 (.inr rfl)

/-- The symbol of a line that is kept for a stage is among the symbols. -/
theorem mem_symbols_of_mem_stageLines (h : (scanLines active number seen lines).result = .ok c)
    (hline : line ∈ c.stageLines stage) (hname : SourceLine.ifdefSymbol? line = some name) :
    name ∈ c.symbols := by
  induction lines generalizing active number seen c with
  | nil =>
    obtain rfl := Except.ok.inj h
    cases stage <;> exact absurd hline List.not_mem_nil
  | cons first lines ih =>
    rcases scanLines_cons_eq_ok h with ⟨_, -, hrest⟩ | ⟨-, c', hrest, rfl⟩
    · exact ih hrest hline
    · rw [symbols_consLine]
      rw [stageLines_consLine] at hline
      have hlater (hmem : line ∈ c'.stageLines stage) : name ∈ c'.symbols := ih hrest hmem
      split at hline
      · rcases List.mem_cons.1 hline with rfl | hline
        · -- the line is the one that the scan is at, so its symbol is noted there
          apply (prefix_symbols_of_scanLines hrest).subset
          exact mem_noteSymbol_self seen hname
        · exact hlater hline
      · exact hlater hline

end Capture

namespace VariantShader

theorem Holds.exists_toggle?_eq_some (h : Holds fileName c s) {name : Text}
    (hname : name ∈ c.symbols) :
    ∃ t, s.toggle? name = some t ∧ t ∈ s.toggles ∧ t.symbol = name := by
  have hmem : name ∈ s.toggles.map Toggle.symbol := by
    rw [h.toggles_eq, Toggle.map_symbol_ofSymbols]
    exact hname
  obtain ⟨t, ht, rfl⟩ := List.mem_map.1 hmem
  exact ⟨t, h.toggle?_symbol ht, ht, rfl⟩

/-- The directive of a toggle that is on is one of those of the variant. -/
theorem Holds.directive_mem (h : Holds fileName c s) {t : Toggle} (ht : t ∈ s.toggles)
    (hon : v.get t = true) : "#define " ++ t.symbol ++ ['\n'] ∈ c.directives v := by
  rw [← h.map_defines v]
  apply List.mem_map_of_mem
  apply List.mem_map_of_mem
  exact List.mem_filter.2 ⟨ht, hon⟩

end VariantShader

/-- Behind the first line of a stage, each line that names a symbol stands behind the directive of
    that symbol wherever the symbol is on: the directive is a line of its own among those that are
    put in behind the first line. -/
theorem directive_above_ifdef (hok : (VariantShader.ofSource fileName source).result = .ok s) :
    ∃ c, Capture.ofSource? source = .ok c ∧
      ∀ (stage : Stage) (first : Text) (between : List Text) (line : Text) (below : List Text)
        (symbol : Text),
        c.stageLines stage = first :: (between ++ line :: below) →
        SourceLine.ifdefSymbol? line = some symbol →
        ∃ t, s.toggle? symbol = some t ∧ ∀ v : Variant, v.get t = true →
          ∃ earlier later,
            c.directives v = earlier ++ ("#define " ++ symbol ++ ['\n']) :: later ∧
            (s.assemble stage v).lines =
              first :: (earlier ++ ("#define " ++ symbol ++ ['\n']) ::
                (later ++ (between ++ line :: below))) := by
  obtain ⟨c, hsource, hholds⟩ := VariantShader.holds_of_ofSource hok
  refine ⟨c, hsource, ?_⟩
  intro stage first between line below symbol hlines hname
  have hmem : line ∈ c.stageLines stage := by
    rw [hlines]
    simp
  have hsymbol : symbol ∈ c.symbols := by
    rw [Capture.ofSource?_eq] at hsource
    exact Capture.mem_symbols_of_mem_stageLines hsource hmem hname
  obtain ⟨t, hfind, ht, rfl⟩ := hholds.exists_toggle?_eq_some hsymbol
  refine ⟨t, hfind, ?_⟩
  intro v hon
  obtain ⟨earlier, later, hdirectives⟩ := List.append_of_mem (hholds.directive_mem ht hon)
  refine ⟨earlier, later, hdirectives, ?_⟩
  -- a line stands behind the first one, so the first one is closed
  have hcut := Capture.isCut_stageLines hsource stage
  rw [hlines] at hcut
  have hfirst : first.IsClosed := hcut.head_isClosed (by simp)
  rw [hholds.lines_assemble_of_isClosed hsource hlines hfirst, hdirectives, List.append_assoc,
    List.cons_append]

/-- A source with an `#ifdef` behind the first line of a stage and one that is the first line. -/
def firstIfdefSource : Text :=
  "#shader vertex\n#ifdef FOG\nv\n#endif\n#shader fragment\nf\n#ifdef FOG\n#endif\n"

/-- The toggle of its symbol. -/
def fogToggle : Toggle := ⟨"FOG", "Fog", 0⟩

/-- In the fragment stage of that source the directive stands above the line. -/
theorem directive_above_ifdef_fog :
    ∃ s c, (VariantShader.ofSource "fog.glsl" firstIfdefSource).result = .ok s ∧
      Capture.ofSource? firstIfdefSource = .ok c ∧
      s.toggle? "FOG" = some fogToggle ∧
      (s.assemble .fragment ⟨1⟩).lines =
        [("f\n" : Text), "#define FOG\n", "#ifdef FOG\n", "#endif\n"] := by
  have hcapture : ((Capture.ofSource? firstIfdefSource).toOption.map fun c =>
      (c.stageLines .fragment, c.directives ⟨1⟩)) =
        some ([("f\n" : Text), "#ifdef FOG\n", "#endif\n"], [("#define FOG\n" : Text)]) := by
    decide +kernel
  have htoggle : ((VariantShader.ofSource "fog.glsl" firstIfdefSource).result.toOption.map
      fun s => s.toggle? "FOG") = some (some fogToggle) := by
    decide +kernel
  obtain ⟨s, hok, hfog⟩ := Outcome.exists_of_toOption_map_eq_some htoggle
  obtain ⟨c, hsource, hlines⟩ := directive_above_ifdef hok
  rw [hsource] at hcapture
  obtain ⟨hstage, hdirectives⟩ := Prod.mk.inj (Option.some.inj hcapture)
  obtain ⟨t, ht, hon⟩ := hlines .fragment "f\n" [] "#ifdef FOG\n" ["#endif\n"] "FOG" hstage
    (by decide +kernel)
  obtain rfl := Option.some.inj (hfog.symm.trans ht)
  obtain ⟨earlier, later, hsplit, htext⟩ := hon ⟨1⟩ (by decide)
  rw [hdirectives] at hsplit
  refine ⟨s, c, hok, hsource, hfog, ?_⟩
  cases earlier with
  | nil =>
    obtain ⟨hdirective, rfl⟩ := List.cons.inj hsplit
    rw [htext, ← hdirective]
    rfl
  | cons d earlier => exact absurd (congrArg List.length hsplit) (by simp)

/-- In its vertex stage the line comes first, and no directive stands above it. -/
theorem not_directive_above_first_ifdef :
    ∃ s c, (VariantShader.ofSource "fog.glsl" firstIfdefSource).result = .ok s ∧
      Capture.ofSource? firstIfdefSource = .ok c ∧
      ("#ifdef FOG\n" : Text) ∈ c.stageLines .vertex ∧
      SourceLine.ifdefSymbol? "#ifdef FOG\n" = some "FOG" ∧
      s.toggle? "FOG" = some fogToggle ∧ (⟨1⟩ : Variant).get fogToggle = true ∧
      ¬∃ above between below : Text,
        s.assemble .vertex ⟨1⟩ = above ++ "#define FOG\n" ++ between ++ "#ifdef FOG\n" ++ below := by
  have hcapture : ((Capture.ofSource? firstIfdefSource).toOption.map fun c =>
      c.stageLines .vertex) = some [("#ifdef FOG\n" : Text), "v\n", "#endif\n"] := by
    decide +kernel
  have hshader : ((VariantShader.ofSource "fog.glsl" firstIfdefSource).result.toOption.map
      fun s => (s.toggle? "FOG", s.assemble .vertex ⟨1⟩)) =
        some (some fogToggle, ("#ifdef FOG\n#define FOG\nv\n#endif\n" : Text)) := by
    decide +kernel
  obtain ⟨s, hok, hpair⟩ := Outcome.exists_of_toOption_map_eq_some hshader
  obtain ⟨htoggle, htext⟩ := Prod.mk.inj hpair
  cases hsource : Capture.ofSource? firstIfdefSource with
  | error marker =>
    rw [hsource] at hcapture
    exact absurd hcapture nofun
  | ok c =>
    rw [hsource] at hcapture
    have hlines : c.stageLines .vertex = [("#ifdef FOG\n" : Text), "v\n", "#endif\n"] :=
      Option.some.inj hcapture
    refine ⟨s, c, hok, rfl, hlines ▸ List.mem_cons_self, by decide +kernel, htoggle, by decide, ?_⟩
    rintro ⟨above, between, below, heq⟩
    -- the two would stand in the text in that order, be it with other characters between them
    have hsub : (("#define FOG\n" : Text) ++ "#ifdef FOG\n").Sublist (s.assemble .vertex ⟨1⟩) := by
      simp only [heq, List.append_assoc]
      apply List.sublist_append_of_sublist_right
      apply List.Sublist.append (List.Sublist.refl _)
      apply List.sublist_append_of_sublist_right
      exact List.sublist_append_left _ _
    rw [htext] at hsub
    revert hsub
    decide +kernel

end ShaderVariants
