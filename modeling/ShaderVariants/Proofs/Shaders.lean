import Mathlib.Data.List.TakeWhile
import ShaderVariants.Artifacts
import ShaderVariants.Proofs.Accessors

/-!
# Shaders of a source

What holds of every shader that a source gives: where its lines and its symbols come
from, and how its types and its accessors are named. Each fact of a scan is one step of
it and an induction on the lines.
-/

namespace ShaderVariants

/-! ## Words -/

namespace Text

/-- The text is not empty and has no whitespace. -/
def IsWord (t : Text) : Prop := t ≠ [] ∧ ∀ c ∈ t, isWhitespace c = false

instance (t : Text) : Decidable (IsWord t) :=
  decidable_of_iff (t ≠ [] ∧ t.all (!isWhitespace ·)) <| by
    simp only [IsWord, List.all_eq_true, Bool.not_eq_true']

theorem isWord_of_firstWord? {t word : Text} (h : firstWord? t = some word) : word.IsWord := by
  unfold firstWord? at h
  split at h
  · exact absurd h (Option.some_ne_none word).symm
  · next hne =>
    obtain rfl := Option.some.inj h
    refine ⟨hne, fun c hc => ?_⟩
    simpa using List.mem_takeWhile_imp hc

theorem IsWord.notMem {t : Text} (h : t.IsWord) {c : Char} (hc : isWhitespace c = true) :
    c ∉ t := by
  intro hmem
  rw [h.2 c hmem] at hc
  cases hc

theorem IsWord.newline_notMem {t : Text} (h : t.IsWord) : '\n' ∉ t := h.notMem (by decide)

end Text

/-! ## Scans -/

namespace Capture

variable {active : Option Stage} {number : Nat} {seen : Symbols} {line : Text}
  {lines : List Text} {c : Capture}

/-- What a scan does with its first line: it opens a stage there or keeps the line. -/
theorem scanLines_cons_eq_ok (h : (scanLines active number seen (line :: lines)).result = .ok c) :
    (∃ stage, openedStage? number line = .ok (some stage) ∧
      (scanLines (some stage) (number + 1) seen lines).result = .ok c) ∨
    (openedStage? number line = .ok none ∧
      ∃ c', (scanLines active (number + 1) (noteSymbol seen line) lines).result = .ok c' ∧
        c = consLine active line c') := by
  rw [scanLines] at h
  cases hopen : openedStage? number line with
  | error marker =>
    rw [hopen] at h
    exact absurd h (by simp)
  | ok opened =>
    rw [hopen] at h
    cases opened with
    | some stage => exact .inl ⟨stage, rfl, h⟩
    | none =>
      obtain ⟨c', hrest, heq⟩ := Outcome.exists_of_map_eq_ok h
      exact .inr ⟨rfl, c', hrest, heq.symm⟩

theorem mem_noteSymbol {name : Text} (h : name ∈ noteSymbol seen line) :
    name ∈ seen ∨ SourceLine.ifdefSymbol? line = some name := by
  unfold noteSymbol at h
  split at h
  · next symbol hsymbol =>
    rcases Symbols.mem_insert.1 h with h | rfl
    · exact .inl h
    · exact .inr hsymbol
  · exact .inl h

theorem symbols_consLine (active : Option Stage) (line : Text) (c : Capture) :
    (consLine active line c).symbols = c.symbols := by
  rcases active with _ | _ | _ <;> rfl

theorem stageLines_consLine (active : Option Stage) (line : Text) (c : Capture) (stage : Stage) :
    (consLine active line c).stageLines stage =
      if active = some stage then line :: c.stageLines stage else c.stageLines stage := by
  rcases active with _ | _ | _ <;> cases stage <;> rfl

/-- Every symbol was known before or is named by one of the lines. -/
theorem mem_symbols_of_scanLines (h : (scanLines active number seen lines).result = .ok c)
    {name : Text} (hname : name ∈ c.symbols) :
    name ∈ seen ∨ ∃ line ∈ lines, SourceLine.ifdefSymbol? line = some name := by
  induction lines generalizing active number seen c with
  | nil =>
    obtain rfl := Except.ok.inj h
    exact .inl hname
  | cons line lines ih =>
    rcases scanLines_cons_eq_ok h with ⟨stage, -, hrest⟩ | ⟨-, c', hrest, rfl⟩
    · refine (ih hrest hname).imp_right ?_
      rintro ⟨l, hl, heq⟩
      exact ⟨l, List.mem_cons_of_mem line hl, heq⟩
    · rw [symbols_consLine] at hname
      rcases ih hrest hname with hseen | ⟨l, hl, heq⟩
      · refine (mem_noteSymbol hseen).imp_right fun heq => ?_
        exact ⟨line, List.mem_cons_self, heq⟩
      · exact .inr ⟨l, List.mem_cons_of_mem line hl, heq⟩

/-- The lines of a stage stand in the source, in that order. -/
theorem stageLines_sublist (h : (scanLines active number seen lines).result = .ok c)
    (stage : Stage) : (c.stageLines stage).Sublist lines := by
  induction lines generalizing active number seen c with
  | nil =>
    obtain rfl := Except.ok.inj h
    cases stage <;> exact List.Sublist.refl []
  | cons line lines ih =>
    rcases scanLines_cons_eq_ok h with ⟨_, -, hrest⟩ | ⟨-, c', hrest, rfl⟩
    · exact (ih hrest).cons line
    · rw [stageLines_consLine]
      split
      · exact (ih hrest).cons_cons line
      · exact (ih hrest).cons line

theorem isWord_of_mem_symbols {source name : Text} (h : ofSource? source = .ok c)
    (hname : name ∈ c.symbols) : name.IsWord := by
  rw [ofSource?_eq] at h
  rcases mem_symbols_of_scanLines h hname with hseen | ⟨line, -, heq⟩
  · exact absurd hseen List.not_mem_nil
  · obtain ⟨rest, -, hword⟩ := Option.bind_eq_some_iff.1 heq
    exact Text.isWord_of_firstWord? hword

end Capture

/-! ## Shaders -/

namespace VariantShader

variable {fileName source : Text} {c : Capture} {s : VariantShader}

theorem splitStage_eq_ok {stage : Stage} {lines : List Text} {text : StageText}
    (h : splitStage stage lines = .ok text) : lines = text.toLines := by
  unfold splitStage at h
  split at h
  · exact absurd h (by simp)
  · next hlines =>
    obtain rfl := Except.ok.inj h
    exact StageText.ofLines?_eq_some_iff.1 hlines

/-- The shader has the lines and the symbols of the capture, and its names are made from the file
    name and the symbols. -/
structure Holds (fileName : Text) (c : Capture) (s : VariantShader) : Prop where
  fileName_eq : s.fileName = fileName
  includable : isIncludable fileName = true
  typeName_eq : s.typeName = ShaderVariants.typeName fileName
  lines_eq : ∀ stage, c.stageLines stage = (s.stageText stage).toLines
  toggles_eq : s.toggles = Toggle.ofSymbols c.symbols
  size_le : c.symbols.size ≤ 64

theorem Holds.bit_lt (h : Holds fileName c s) {t : Toggle} (ht : t ∈ s.toggles) : t.bit < 64 := by
  have hbit : t.bit ∈ (Toggle.ofSymbols c.symbols).map Toggle.bit :=
    List.mem_map_of_mem (h.toggles_eq ▸ ht)
  rw [Toggle.map_bit_ofSymbols, List.mem_range'_1] at hbit
  have hsize := h.size_le
  omega

theorem holds_of_ofCapture (h : ofCapture fileName c = .ok s) : Holds fileName c s := by
  unfold ofCapture at h
  split at h
  · next hname =>
    cases hvertex : splitStage .vertex c.vertex with
    | error fault =>
      rw [hvertex] at h
      exact absurd h (by simp [bind, Except.bind])
    | ok vertex =>
      cases hfragment : splitStage .fragment c.fragment with
      | error fault =>
        rw [hvertex, hfragment] at h
        exact absurd h (by simp [bind, Except.bind])
      | ok fragment =>
        simp only [hvertex, hfragment, bind, Except.bind] at h
        split at h
        · next hsize =>
          obtain rfl := Except.ok.inj h
          refine ⟨rfl, hname, rfl, ?_, rfl, hsize⟩
          rintro (_ | _)
          · exact splitStage_eq_ok hvertex
          · exact splitStage_eq_ok hfragment
        · exact absurd h (by simp [throw, throwThe, MonadExceptOf.throw])
  · exact absurd h (by simp [throw, throwThe, MonadExceptOf.throw])

/-- A shader comes from a capture of its source. -/
theorem holds_of_ofSource (h : (ofSource fileName source).result = .ok s) :
    ∃ c, Capture.ofSource? source = .ok c ∧ Holds fileName c s := by
  obtain ⟨c, hscan, hbuild⟩ := Outcome.exists_of_andThen_eq_ok h
  refine ⟨c, Outcome.result_of_mapFault_eq_ok hscan, ?_⟩
  unfold build at hbuild
  split at hbuild
  · next hshader =>
    obtain rfl := Except.ok.inj hbuild
    exact holds_of_ofCapture hshader
  · exact absurd hbuild (by simp)

end VariantShader

theorem Artifacts.ofSource_eq_ok {fileName source : Text} {settings : Settings} {a : Artifacts}
    (h : (Artifacts.ofSource fileName source settings).result = .ok a) :
    (VariantShader.ofSource fileName source).result = .ok a.shader ∧
      a = Artifacts.ofShader settings a.shader := by
  obtain ⟨s, hshader, rfl⟩ := Outcome.exists_of_map_eq_ok h
  exact ⟨hshader, rfl⟩

end ShaderVariants
