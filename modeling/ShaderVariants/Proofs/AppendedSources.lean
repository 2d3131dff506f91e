import Mathlib.Data.List.Nodup
import ShaderVariants.Proofs.Shaders

/-!
# Appended sources

A scan that has come to the end of some lines goes on with the lines behind them, from the
stage that is open, the number of lines and the symbols seen. So text behind whole lines
changes nothing of what those lines gave: a fault stays the fault, and the lines of each
stage, the symbols and their toggles come first in those of the longer source.
-/

namespace ShaderVariants

/-! ## Whole lines -/

namespace Text

variable {c : Char} {t : Text}

/-- No line of the text is left open: it is empty or ends in a newline. -/
def EndsLine (t : Text) : Prop := t = [] ∨ ['\n'] <:+ t

theorem EndsLine.tail (h : EndsLine (c :: t)) : EndsLine t := by
  rcases h with hnil | hsuffix
  · exact absurd hnil (List.cons_ne_nil c t)
  · rcases List.suffix_cons_iff.1 hsuffix with heq | htail
    · exact .inl (List.cons.inj heq).2.symm
    · exact .inr htail

theorem EndsLine.tail_ne_nil (h : EndsLine (c :: t)) (hc : c ≠ '\n') : t ≠ [] := by
  rintro rfl
  rcases h with hnil | hsuffix
  · exact absurd hnil (List.cons_ne_nil c [])
  · exact hc (List.singleton_inj.1 (hsuffix.eq_of_length rfl)).symm

theorem lines_ne_nil (h : t ≠ []) : t.lines ≠ [] := by
  intro hlines
  have hflatten := flatten_lines t
  rw [hlines] at hflatten
  exact h hflatten.symm

/-- Behind whole lines another text begins a line of its own. -/
theorem lines_append (h : EndsLine t) (u : Text) : lines (t ++ u) = lines t ++ lines u := by
  induction t with
  | nil => rfl
  | cons c t ih =>
    rw [List.cons_append, lines, lines, ih h.tail]
    by_cases hc : c = '\n'
    · rw [if_pos hc, if_pos hc, List.cons_append]
    · obtain ⟨line, rest, hlines⟩ := List.exists_cons_of_ne_nil (lines_ne_nil (h.tail_ne_nil hc))
      rw [if_neg hc, if_neg hc, hlines, List.cons_append]
      rfl

end Text

/-! ## Scans that go on -/

namespace Capture

variable {active : Option Stage} {number : Nat} {seen : Symbols} {source more : Text}
  {lines : List Text} {c d : Capture} {marker : BadMarker}

/-- The stage that is open behind a line. -/
def stageAfter (active : Option Stage) (line : Text) : Option Stage :=
  match SourceLine.classify line with
  | .marker stage => some stage
  | _ => active

/-- The lines of a capture, those of a later one behind them, and the symbols of the later one. -/
def append (c d : Capture) : Capture where
  preamble := c.preamble ++ d.preamble
  vertex := c.vertex ++ d.vertex
  fragment := c.fragment ++ d.fragment
  symbols := d.symbols

theorem consLine_append (active : Option Stage) (line : Text) (c d : Capture) :
    consLine active line (c.append d) = (consLine active line c).append d := by
  rcases active with _ | _ | _ <;> rfl

theorem stageLines_append (c d : Capture) (stage : Stage) :
    (c.append d).stageLines stage = c.stageLines stage ++ d.stageLines stage := by
  cases stage <;> rfl

theorem stageAfter_of_openedStage? {line : Text} {opened : Option Stage}
    (h : openedStage? number line = .ok opened) :
    stageAfter active line = opened.orElse fun _ => active := by
  unfold openedStage? at h
  unfold stageAfter
  cases hkind : SourceLine.classify line with
  | marker stage =>
    rw [hkind] at h
    rw [← Except.ok.inj h]
    rfl
  | unsupported value =>
    rw [hkind] at h
    exact absurd h nofun
  | body =>
    rw [hkind] at h
    rw [← Except.ok.inj h]
    rfl

/-- A scan of more lines is the scan of the first ones and then, from the state that it ends in,
    the scan of the others. -/
theorem result_scanLines_append (active : Option Stage) (number : Nat) (seen : Symbols)
    (lines later : List Text) :
    (scanLines active number seen (lines ++ later)).result =
      (scanLines active number seen lines).result.bind fun c =>
        (scanLines (lines.foldl stageAfter active) (number + lines.length) c.symbols
          later).result.map c.append := by
  induction lines generalizing active number seen with
  | nil =>
    change (scanLines active number seen later).result =
      (scanLines active number seen later).result.map (append { symbols := seen })
    cases (scanLines active number seen later).result <;> rfl
  | cons line lines ih =>
    rw [List.cons_append, scanLines, scanLines, List.foldl_cons, List.length_cons]
    cases hopen : openedStage? number line with
    | error marker => rfl
    | ok opened =>
      rw [Nat.add_comm lines.length 1, ← Nat.add_assoc]
      cases opened with
      | some stage =>
        have hstage : stageAfter active line = some stage := stageAfter_of_openedStage? hopen
        rw [hstage]
        exact ih (some stage) (number + 1) seen
      | none =>
        have hstage : stageAfter active line = active := stageAfter_of_openedStage? hopen
        rw [hstage]
        dsimp only [Outcome.result_after, Outcome.result_map]
        rw [ih]
        cases (scanLines active (number + 1) (noteSymbol seen line) lines).result with
        | error marker => rfl
        | ok c =>
          simp only [Except.bind, Except.map, symbols_consLine]
          cases (scanLines (lines.foldl stageAfter active) (number + 1 + lines.length) c.symbols
            later).result with
          | error marker => rfl
          | ok d => exact congrArg Except.ok (consLine_append active line c d)

theorem prefix_noteSymbol (seen : Symbols) (line : Text) :
    seen.names <+: (noteSymbol seen line).names := by
  unfold noteSymbol
  split
  · rw [Symbols.names_insert]
    split
    · exact List.prefix_refl _
    · exact List.prefix_append _ _
  · exact List.prefix_refl _

/-- The symbols that are known come first. -/
theorem prefix_symbols_of_scanLines (h : (scanLines active number seen lines).result = .ok c) :
    seen.names <+: c.symbols.names := by
  induction lines generalizing active number seen c with
  | nil =>
    obtain rfl := Except.ok.inj h
    exact List.prefix_refl _
  | cons line lines ih =>
    rcases scanLines_cons_eq_ok h with ⟨stage, -, hrest⟩ | ⟨-, c', hrest, rfl⟩
    · exact ih hrest
    · rw [symbols_consLine]
      exact (prefix_noteSymbol seen line).trans (ih hrest)

/-- What a source holds is what another one holds first. -/
structure Begins (c d : Capture) : Prop where
  stageLines : ∀ stage, c.stageLines stage <+: d.stageLines stage
  symbols : c.symbols.names <+: d.symbols.names

theorem ofSource?_append_of_error (h : source.EndsLine) (hsource : ofSource? source = .error marker)
    (more : Text) : ofSource? (source ++ more) = .error marker := by
  rw [ofSource?_eq] at hsource
  rw [ofSource?_eq, Text.lines_append h, result_scanLines_append, hsource]
  rfl

theorem exists_begins_of_ofSource?_append (h : source.EndsLine)
    (hboth : ofSource? (source ++ more) = .ok d) :
    ∃ c, ofSource? source = .ok c ∧ c.Begins d := by
  rw [ofSource?_eq, Text.lines_append h, result_scanLines_append] at hboth
  rw [ofSource?_eq]
  cases hsource : (scanLines none 1 ∅ source.lines).result with
  | error marker =>
    rw [hsource] at hboth
    exact absurd hboth nofun
  | ok c =>
    rw [hsource] at hboth
    obtain ⟨e, hmore, rfl⟩ := Outcome.exists_of_map_eq_ok hboth
    refine ⟨c, rfl, fun stage => ?_, ?_⟩
    · rw [stageLines_append]
      exact List.prefix_append _ _
    · exact prefix_symbols_of_scanLines (c := e) hmore

end Capture

/-! ## Toggles -/

/-- A symbol is bound without regard to the symbols behind it. -/
theorem Toggle.prefix_bindFrom (bit : Nat) (taken l more : List Text) :
    bindFrom bit taken l <+: bindFrom bit taken (l ++ more) := by
  induction l generalizing bit taken with
  | nil => exact List.nil_prefix
  | cons symbol l ih =>
    rw [List.cons_append, bindFrom_cons, bindFrom_cons]
    exact (List.prefix_cons_inj _).2 (ih _ _)

namespace VariantShader

variable {fileName : Text} {c d : Capture} {s u : VariantShader} {t : Toggle}

/-- A toggle is found by its symbol. -/
theorem Holds.toggle?_symbol (h : Holds fileName c s) (ht : t ∈ s.toggles) :
    s.toggle? t.symbol = some t := by
  have hnodup : (s.toggles.map Toggle.symbol).Nodup := by
    rw [h.toggles_eq, Toggle.map_symbol_ofSymbols]
    exact c.symbols.nodup
  rw [toggle?]
  cases hfind : s.toggles.find? (·.symbol == t.symbol) with
  | none => exact absurd (beq_self_eq_true t.symbol) (List.find?_eq_none.1 hfind t ht)
  | some u =>
    have hu : u ∈ s.toggles := List.mem_of_find?_eq_some hfind
    have hsymbol := List.find?_some hfind
    rw [List.inj_on_of_nodup_map hnodup hu ht (eq_of_beq hsymbol)]

theorem Holds.prefix_toggles (hs : Holds fileName c s) (hu : Holds fileName d u)
    (h : c.Begins d) : s.toggles <+: u.toggles := by
  obtain ⟨more, hmore⟩ := h.symbols
  rw [hs.toggles_eq, hu.toggles_eq, Toggle.ofSymbols, Toggle.ofSymbols, ← hmore]
  exact Toggle.prefix_bindFrom 0 [] c.symbols.names more

end VariantShader

/-- Text behind whole lines changes nothing of what they gave: the fault of a scan stays, the lines
    of each stage and the symbols come first in those of the longer source, and so do the toggles of
    a shader: each of its symbols is found there with the same bit and the same accessor. -/
theorem ofSource?_append_begins {source : Text} (h : source = [] ∨ ['\n'] <:+ source)
    (more : Text) :
    (∀ marker, Capture.ofSource? source = .error marker →
      Capture.ofSource? (source ++ more) = .error marker) ∧
    (∀ d, Capture.ofSource? (source ++ more) = .ok d → ∃ c, Capture.ofSource? source = .ok c ∧
      (∀ stage, c.stageLines stage <+: d.stageLines stage) ∧
      c.symbols.names <+: d.symbols.names) ∧
    ∀ (fileName : Text) (s u : VariantShader),
      (VariantShader.ofSource fileName source).result = .ok s →
      (VariantShader.ofSource fileName (source ++ more)).result = .ok u →
      s.toggles <+: u.toggles ∧ ∀ t ∈ s.toggles, u.toggle? t.symbol = some t := by
  refine ⟨fun marker hsource => Capture.ofSource?_append_of_error h hsource more, ?_, ?_⟩
  · intro d hboth
    obtain ⟨c, hsource, hbegins⟩ := Capture.exists_begins_of_ofSource?_append h hboth
    exact ⟨c, hsource, hbegins.stageLines, hbegins.symbols⟩
  · intro fileName s u hs hu
    obtain ⟨c, hsource, hholds⟩ := VariantShader.holds_of_ofSource hs
    obtain ⟨d, hboth, hholds'⟩ := VariantShader.holds_of_ofSource hu
    obtain ⟨c', hsource', hbegins⟩ := Capture.exists_begins_of_ofSource?_append h hboth
    obtain rfl := Except.ok.inj (hsource.symm.trans hsource')
    have hpre := hholds.prefix_toggles hholds' hbegins
    exact ⟨hpre, fun t ht => hholds'.toggle?_symbol (hpre.subset ht)⟩

/-- A source with a symbol. -/
def useFogSource : Text := "#shader vertex\n#ifdef USE_FOG\n#shader fragment\nf\n"

/-- A line that names a symbol with the same base form, behind that source. -/
def longerSource : Text := useFogSource ++ "#ifdef use-fog\n"

/-- The symbol keeps its accessor there, and a fault stays in front of any source. -/
theorem ofSource?_append_begins_fog :
    ∃ s u marker, (VariantShader.ofSource "s.glsl" useFogSource).result = .ok s ∧
      (VariantShader.ofSource "s.glsl" longerSource).result = .ok u ∧
      s.toggles = [⟨"USE_FOG", "UseFog", 0⟩] ∧
      u.toggle? "USE_FOG" = some ⟨"USE_FOG", "UseFog", 0⟩ ∧
      u.toggle? "use-fog" = some ⟨"use-fog", "UseFog_1", 1⟩ ∧
      Capture.ofSource? "#shader geometry\n" = .error marker ∧
      Capture.ofSource? ("#shader geometry\n" ++ useFogSource) = .error marker := by
  have hends : ['\n'] <:+ useFogSource := by decide +kernel
  have hends' : ['\n'] <:+ ("#shader geometry\n" : Text) := by decide +kernel
  have hshort : ((VariantShader.ofSource "s.glsl" useFogSource).result.toOption.map
      fun s => s.toggles) = some [⟨"USE_FOG", "UseFog", 0⟩] := by
    decide +kernel
  have hlong : ((VariantShader.ofSource "s.glsl" longerSource).result.toOption.map
      fun s => s.toggle? "use-fog") = some (some ⟨"use-fog", "UseFog_1", 1⟩) := by
    decide +kernel
  have hbad : Capture.ofSource? "#shader geometry\n" =
      .error ⟨1, "geometry", "#shader geometry"⟩ := by
    decide +kernel
  obtain ⟨s, hs, htoggles⟩ := Outcome.exists_of_toOption_map_eq_some hshort
  obtain ⟨u, hu, huse⟩ := Outcome.exists_of_toOption_map_eq_some hlong
  obtain ⟨-, -, hkept⟩ := ofSource?_append_begins (.inr hends) "#ifdef use-fog\n"
  obtain ⟨hfault, -⟩ := ofSource?_append_begins (.inr hends') useFogSource
  refine ⟨s, u, _, hs, hu, htoggles, ?_, huse, hbad, hfault _ hbad⟩
  exact (hkept "s.glsl" s u hs hu).2 _ (htoggles ▸ List.mem_cons_self)

end ShaderVariants
