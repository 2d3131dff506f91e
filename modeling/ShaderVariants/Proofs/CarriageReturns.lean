import Mathlib.Data.List.Infix
import Mathlib.Data.List.TakeWhile
import ShaderVariants.Capture
import ShaderVariants.Proofs.Lines

/-!
# Carriage returns

A source may end its lines in a newline alone or in a carriage return and a newline. What a line
means does not depend on its ending: markers have no such characters, and the other readings
of a line stop at whitespace. So a scan finds the same in both sources and tells the log the
same, and only the endings of the lines that it keeps are different.
-/

namespace ShaderVariants

/-! ## Endings of lines -/

namespace Text

variable {p t w : Text}

/-- The text with a carriage return before every newline. -/
def withReturns (t : Text) : Text := t.flatMap fun c => if c = '\n' then ['\r', '\n'] else [c]

/-- The text has whitespace only. -/
def IsBlank (t : Text) : Prop := ∀ c ∈ t, isWhitespace c = true

/-- What may stand at the end of a line. -/
def IsEnding (w : Text) : Prop := ∀ c ∈ w, c = '\r' ∨ c = '\n'

theorem isEnding_newline : IsEnding ['\n'] := by simp [IsEnding]

theorem isEnding_return : IsEnding ['\r', '\n'] := by simp [IsEnding]

/-- No character of an ending is in a text without such characters. -/
theorem IsEnding.notMem (h : IsEnding w) (hreturn : '\r' ∉ p) (hnewline : '\n' ∉ p) :
    ∀ c ∈ p, c ∉ w := by
  intro c hc hmem
  rcases h c hmem with rfl | rfl
  · exact hreturn hc
  · exact hnewline hc

theorem IsEnding.isBlank (h : IsEnding w) : w.IsBlank := by
  intro c hc
  rcases h c hc with rfl | rfl <;> decide

theorem withReturns_eq_self (h : '\n' ∉ t) : t.withReturns = t := by
  have hmap : t.withReturns = t.flatMap fun c => [c] := by
    refine List.flatMap_congr fun c hc => if_neg ?_
    rintro rfl
    exact h hc
  rw [hmap, List.flatMap_singleton']

theorem withReturns_append (t w : Text) : (t ++ w).withReturns = t.withReturns ++ w.withReturns :=
  List.flatMap_append

theorem withReturns_closed {u : Text} (h : '\n' ∉ u) :
    withReturns (u ++ ['\n']) = u ++ ['\r', '\n'] := by
  rw [withReturns_append, withReturns_eq_self h]
  rfl

theorem IsClosed.withReturns (h : IsClosed t) : IsClosed t.withReturns := by
  obtain ⟨u, rfl, hu⟩ := h
  refine ⟨u ++ ['\r'], ?_, ?_⟩
  · rw [withReturns_closed hu, List.append_assoc]
    rfl
  · simpa using hu

theorem IsOpen.withReturns (h : IsOpen t) : IsOpen t.withReturns := by
  rw [withReturns_eq_self h.2]
  exact h

theorem IsCut.map_withReturns {l : List Text} (h : IsCut l) : IsCut (l.map withReturns) where
  pairwise := List.pairwise_map.2 (h.pairwise.imp fun hl => hl.withReturns)
  isClosed_or_isOpen := by
    intro line hline
    obtain ⟨m, hm, rfl⟩ := List.mem_map.1 hline
    exact (h.isClosed_or_isOpen m hm).imp IsClosed.withReturns IsOpen.withReturns

theorem flatten_map_withReturns (l : List Text) :
    (l.map withReturns).flatten = withReturns l.flatten := by
  induction l with
  | nil => rfl
  | cons t l ih => rw [List.map_cons, List.flatten_cons, ih, List.flatten_cons, withReturns_append]

/-- The text is cut into the same lines, each with the other ending. -/
theorem lines_withReturns (t : Text) : t.withReturns.lines = t.lines.map withReturns := by
  have hcut := (isCut_lines t).map_withReturns.lines_flatten
  rwa [flatten_map_withReturns, flatten_lines] at hcut

/-! ## Readings of a text with an ending behind it -/

/-- A start of the whole that has no character of the ending ends before it. -/
theorem prefix_append_iff_of_disjoint (h : ∀ c ∈ p, c ∉ w) : p <+: t ++ w ↔ p <+: t := by
  constructor
  · intro hp
    -- a start that is longer than `t` would have the first character of `w`
    rcases List.prefix_or_prefix_of_prefix hp (List.prefix_append t w) with hpre | ⟨q, rfl⟩
    · exact hpre
    · obtain ⟨r, hr⟩ := (List.prefix_append_right_inj t).1 hp
      cases q with
      | nil => rw [List.append_nil]
      | cons c q =>
        refine absurd ?_ (h c (List.mem_append_right t List.mem_cons_self))
        exact hr ▸ List.mem_cons_self
  · intro hp
    exact hp.trans (List.prefix_append t w)

theorem isPrefixOf?_append (h : ∀ c ∈ p, c ∉ w) :
    p.isPrefixOf? (t ++ w) = (p.isPrefixOf? t).map (· ++ w) := by
  ext r
  rw [isPrefixOf?_eq_some_iff, Option.map_eq_some_iff]
  constructor
  · intro heq
    obtain ⟨q, rfl⟩ := (prefix_append_iff_of_disjoint h).1 ⟨r, heq.symm⟩
    rw [List.append_assoc] at heq
    exact ⟨q, isPrefixOf?_eq_some_iff.2 rfl, List.append_cancel_left heq⟩
  · rintro ⟨q, hq, rfl⟩
    rw [isPrefixOf?_eq_some_iff.1 hq, List.append_assoc]

theorem dropWhile_eq_nil (hw : w.IsBlank) : w.dropWhile isWhitespace = [] :=
  List.dropWhile_eq_nil_iff.2 hw

theorem trimEnd_append (hw : w.IsBlank) : (t ++ w).trimEnd = t.trimEnd := by
  have hreverse : IsBlank w.reverse := fun c hc => hw c (List.mem_reverse.1 hc)
  rw [trimEnd, List.reverse_append, List.dropWhile_append_of_pos hreverse, trimEnd]

/-- Either nothing is left in front of the whitespace or it is kept. -/
theorem trimStart_append (hw : w.IsBlank) :
    (t ++ w).trimStart = if t.trimStart = [] then [] else t.trimStart ++ w := by
  rw [trimStart, List.dropWhile_append, dropWhile_eq_nil hw]
  by_cases h : t.trimStart = []
  · rw [if_pos h]
    exact if_pos (List.isEmpty_iff.2 h)
  · rw [if_neg h]
    exact if_neg fun hempty => h (List.isEmpty_iff.1 hempty)

theorem trim_append (hw : w.IsBlank) : (t ++ w).trim = t.trim := by
  rw [trim, trimStart_append hw, trim]
  split
  · next h => rw [h]
  · exact trimEnd_append hw

theorem takeWhile_append_whitespace (hw : w.IsBlank) (t : Text) :
    (t ++ w).takeWhile (!isWhitespace ·) = t.takeWhile (!isWhitespace ·) := by
  have hnil : w.takeWhile (!isWhitespace ·) = [] := by
    cases w with
    | nil => rfl
    | cons c w => exact List.takeWhile_cons_of_neg (by simp [hw c List.mem_cons_self])
  rw [List.takeWhile_append, hnil]
  split
  · next h => rw [List.append_nil, (List.takeWhile_prefix _).eq_of_length h]
  · rfl

theorem firstWord?_append (hw : w.IsBlank) :
    (t ++ w).firstWord? = t.firstWord? := by
  have hword : (t ++ w).trimStart.takeWhile (!isWhitespace ·) =
      t.trimStart.takeWhile (!isWhitespace ·) := by
    rw [trimStart_append hw]
    split
    · next h => rw [h]
    · exact takeWhile_append_whitespace hw t.trimStart
  rw [firstWord?, firstWord?, hword]

end Text

/-! ## Lines -/

variable {w : Text}

theorem Stage.return_notMem_keyword (stage : Stage) : '\r' ∉ stage.keyword := by
  cases stage <;> decide +kernel

theorem Stage.newline_notMem_keyword (stage : Stage) : '\n' ∉ stage.keyword := by
  cases stage <;> decide +kernel

theorem Stage.ofMarker?_append (h : Text.IsEnding w) (rest : Text) :
    ofMarker? (rest ++ w) = ofMarker? rest := by
  refine congrArg (all.find? ·) (funext fun stage => ?_)
  have hkeyword := h.notMem stage.return_notMem_keyword stage.newline_notMem_keyword
  rw [Bool.eq_iff_iff, List.isPrefixOf_iff_prefix, List.isPrefixOf_iff_prefix,
    Text.prefix_append_iff_of_disjoint hkeyword]

theorem SourceLine.classify_append_ending (h : Text.IsEnding w) (line : Text) :
    classify (line ++ w) = classify line := by
  have hstart : ∀ c ∈ markerStart, c ∉ w := h.notMem (by decide +kernel) (by decide +kernel)
  rw [classify, Text.isPrefixOf?_append hstart, classify]
  cases markerStart.isPrefixOf? line with
  | none => rfl
  | some rest =>
    rw [Option.map_some]
    dsimp only
    rw [Stage.ofMarker?_append h, Text.firstWord?_append h.isBlank]

theorem SourceLine.ifdefSymbol?_append (h : Text.IsEnding w) (line : Text) :
    ifdefSymbol? (line ++ w) = ifdefSymbol? line := by
  rw [ifdefSymbol?, Text.trim_append h.isBlank, ifdefSymbol?]

theorem SourceLine.isBareIfdef_append (h : Text.IsEnding w) (line : Text) :
    isBareIfdef (line ++ w) = isBareIfdef line := by
  rw [isBareIfdef, Text.trim_append h.isBlank, isBareIfdef]

/-- Values that are changed in two ways to the same end. -/
theorem Outcome.map_map_comm {ε α β γ δ : Type} {f : α → β} {g : β → δ} {f' : γ → δ} {g' : α → γ}
    (h : ∀ a, g (f a) = f' (g' a)) (o : Outcome ε α) : (o.map f).map g = (o.map g').map f' := by
  obtain ⟨events, result⟩ := o
  cases result with
  | error fault => rfl
  | ok a => exact congrArg (fun d => Outcome.mk events (.ok d)) (h a)

namespace Capture

variable {lines : List Text}

/-- A scan reads the same from two lines. -/
structure ReadsAlike (line line' : Text) : Prop where
  openedStage? : ∀ number, openedStage? number line = openedStage? number line'
  noteSymbol : ∀ seen, noteSymbol seen line = noteSymbol seen line'
  lineEvents : ∀ number seen, lineEvents number seen line = lineEvents number seen line'

/-- The ending of a line does not matter. -/
theorem readsAlike_append {w w' : Text} (h : w.IsEnding) (h' : w'.IsEnding) (line : Text) :
    ReadsAlike (line ++ w) (line ++ w') where
  openedStage? number := by
    rw [Capture.openedStage?, Capture.openedStage?, SourceLine.classify_append_ending h,
      SourceLine.classify_append_ending h', Text.trimEnd_append h.isBlank,
      Text.trimEnd_append h'.isBlank]
  noteSymbol seen := by
    rw [Capture.noteSymbol, Capture.noteSymbol, SourceLine.ifdefSymbol?_append h,
      SourceLine.ifdefSymbol?_append h']
  lineEvents number seen := by
    rw [Capture.lineEvents, Capture.lineEvents, SourceLine.ifdefSymbol?_append h,
      SourceLine.ifdefSymbol?_append h', SourceLine.isBareIfdef_append h,
      SourceLine.isBareIfdef_append h']

theorem readsAlike_withReturns {line : Text} (h : line.IsClosed ∨ line.IsOpen) :
    ReadsAlike line.withReturns line := by
  rcases h with ⟨u, rfl, hu⟩ | hopen
  · rw [Text.withReturns_closed hu]
    exact readsAlike_append Text.isEnding_return Text.isEnding_newline u
  · rw [Text.withReturns_eq_self hopen.2]
    exact ⟨fun _ => rfl, fun _ => rfl, fun _ _ => rfl⟩

/-- The capture with each of its lines changed. -/
def mapLines (f : Text → Text) (c : Capture) : Capture :=
  { c with
    preamble := c.preamble.map f
    vertex := c.vertex.map f
    fragment := c.fragment.map f }

theorem mapLines_consLine (f : Text → Text) (active : Option Stage) (line : Text) (c : Capture) :
    mapLines f (consLine active line c) = consLine active (f line) (mapLines f c) := by
  rcases active with _ | _ | _ <;> rfl

theorem countEvent_mapLines (f : Text → Text) (c : Capture) :
    (mapLines f c).countEvent = c.countEvent := by
  simp only [countEvent, mapLines, List.length_map]

/-- A scan of lines that read alike finds those lines in place of the others. -/
theorem scanLines_map {f : Text → Text} (h : ∀ line ∈ lines, ReadsAlike (f line) line)
    (active : Option Stage) (number : Nat) (seen : Symbols) :
    scanLines active number seen (lines.map f) =
      (scanLines active number seen lines).map (mapLines f) := by
  -- a line may change the open stage, the number and the symbols for those behind it
  induction lines generalizing active number seen with
  | nil => rfl
  | cons line lines ih =>
    obtain ⟨hline, hlines⟩ := List.forall_mem_cons.1 h
    rw [List.map_cons, scanLines, scanLines, hline.openedStage?]
    cases Capture.openedStage? number line with
    | error marker => rfl
    | ok opened =>
      cases opened with
      | some stage =>
        dsimp only
        rw [ih hlines]
        rfl
      | none =>
        dsimp only
        rw [hline.noteSymbol, hline.lineEvents, ih hlines]
        exact congrArg (Outcome.after _)
          (Outcome.map_map_comm (fun c => (mapLines_consLine f active line c).symm) _)

end Capture

/-- A scan of the source with a carriage return before every newline, whether or not it had some
    already, tells the log the same and ends with the same fault, or finds the same symbols and the
    same lines in each part, each line with its new ending. -/
theorem scan_withReturns (source : Text) :
    Capture.scan source.withReturns =
      (Capture.scan source).map (Capture.mapLines Text.withReturns) := by
  have hlines : Capture.scanLines none 1 ∅ source.withReturns.lines =
      (Capture.scanLines none 1 ∅ source.lines).map (Capture.mapLines Text.withReturns) := by
    rw [Text.lines_withReturns]
    refine Capture.scanLines_map (fun line hline => ?_) none 1 ∅
    exact Capture.readsAlike_withReturns ((Text.isCut_lines source).isClosed_or_isOpen line hline)
  rw [Capture.scan, hlines, Capture.scan]
  obtain ⟨events, result⟩ := Capture.scanLines none 1 ∅ source.lines
  cases result with
  | error marker => rfl
  | ok c =>
    simp only [Outcome.map, Outcome.andThen, Outcome.after, Except.map, Capture.countEvent_mapLines]

end ShaderVariants
