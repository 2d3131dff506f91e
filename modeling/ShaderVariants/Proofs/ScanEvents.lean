import ShaderVariants.Proofs.Obstacles

/-!
# What a scan tells its log

A scan tells its log of a line while it is at that line, and goes by the symbols that it knows
there. Here it is said of the whole source what the log has to hold: each line has its report,
which depends on the line and on the lines above it alone, and the log holds the reports of the
lines above the first bad one. The counts at the end are the sizes of what was found.
-/

namespace ShaderVariants

/-! ## What each entry gives -/

section

variable {α β : Type}

/-- What the entries give, in order; `give` sees all that stands before an entry. -/
def gathered (give : List α → α → List β) (l : List α) : List β :=
  l.zipIdx.flatMap fun p => give (l.take p.2) p.1

theorem gathered_cons (give : List α → α → List β) (a : α) (l : List α) :
    gathered give (a :: l) = give [] a ++ gathered (fun before => give (a :: before)) l := by
  rw [gathered, gathered, List.zipIdx_cons, List.flatMap_cons, List.take_zero, Nat.zero_add,
    List.zipIdx_succ, List.flatMap_map]
  rfl

theorem gathered_concat (give : List α → α → List β) (l : List α) (a : α) :
    gathered give (l ++ [a]) = gathered give l ++ give l a := by
  induction l generalizing give with
  | nil => simp [gathered]
  | cons b l ih => rw [List.cons_append, gathered_cons, ih, gathered_cons, List.append_assoc]

end

/-- An event as a log has it, with its level. -/
def Event.leveled (e : Event) : Level × Event := (e.level, e)

/-! ## The report of a line -/

namespace SourceLine

theorem isBody_of_marker {line : Text} {stage : Stage} (h : markerStage? line = some stage) :
    isBody line = false := by
  simp [isBody, h]

/-- A line that names a symbol has a word behind the directive. -/
theorem ifdefSymbol?_of_trim {line : Text} (h : line.trim = "#ifdef") :
    ifdefSymbol? line = none := by
  rw [ifdefSymbol?, h]
  decide +kernel

theorem isBareIfdef_iff {line : Text} : isBareIfdef line = true ↔ line.trim = "#ifdef" := by
  rw [isBareIfdef, ifdefDirective, beq_iff_eq]

end SourceLine

namespace Capture

section

variable {before lines : List Text} {line : Text}

theorem namesOf_append (lines lines' : List Text) :
    namesOf (lines ++ lines') = namesOf lines ++ namesOf lines' := by
  simp [namesOf]

theorem namesOf_singleton_of_body (h : SourceLine.isBody line = true) :
    namesOf [line] = (SourceLine.ifdefSymbol? line).toList := by
  rw [namesOf, List.filter_cons_of_pos h]
  cases hsymbol : SourceLine.ifdefSymbol? line <;> simp [hsymbol]

theorem namesOf_singleton_of_not_body (h : SourceLine.isBody line = false) :
    namesOf [line] = [] := by
  simp [namesOf, h]

/-- What there is to tell of a line with the lines `before` above it: the stage that it opens, the
    symbol that it names first of all lines, and that it is an `#ifdef` by itself. -/
def lineReport (before : List Text) (line : Text) : List (Level × Event) :=
  let number := before.length + 1
  ((SourceLine.markerStage? line).toList.map fun stage => (.trace, .enteredStage number stage)) ++
    (((namesOf [line]).filter (· ∉ namesOf before)).map fun s =>
      (.debug, .foundSymbol number s)) ++
    if SourceLine.isBody line ∧ line.trim = "#ifdef" then [(.warn, .bareIfdef number)] else []

/-- The reports of lines, in order. -/
def report (lines : List Text) : List (Level × Event) := gathered lineReport lines

theorem report_concat (lines : List Text) (line : Text) :
    report (lines ++ [line]) = report lines ++ lineReport lines line :=
  gathered_concat lineReport lines line

theorem lineReport_of_marker {stage : Stage} (h : SourceLine.markerStage? line = some stage) :
    lineReport before line = [(.trace, .enteredStage (before.length + 1) stage)] := by
  have hbody := SourceLine.isBody_of_marker h
  simp [lineReport, h, hbody, namesOf_singleton_of_not_body hbody]

/-- A scan that knows the symbols above a body line tells what there is to tell of it. -/
theorem leveled_lineEvents {seen : Symbols} (hseen : ∀ s, s ∈ seen ↔ s ∈ namesOf before)
    (hbody : SourceLine.isBody line = true) (hmarker : SourceLine.markerStage? line = none) :
    (lineEvents (before.length + 1) seen line).map Event.leveled = lineReport before line := by
  rw [lineReport, namesOf_singleton_of_body hbody, hmarker, hbody, lineEvents]
  cases hsymbol : SourceLine.ifdefSymbol? line with
  | some symbol =>
    have hbare : line.trim ≠ "#ifdef" := by
      intro htrim
      rw [SourceLine.ifdefSymbol?_of_trim htrim] at hsymbol
      cases hsymbol
    by_cases hknown : symbol ∈ namesOf before
    · simp [hknown, hbare, (hseen symbol).2 hknown]
    · simp [hknown, hbare, (hseen symbol).not.2 hknown, Event.leveled, Event.level]
  | none =>
    by_cases hbare : line.trim = "#ifdef"
    · simp [hbare, SourceLine.isBareIfdef_iff.2 hbare, Event.leveled, Event.level]
    · simp [hbare, mt SourceLine.isBareIfdef_iff.1 hbare]

theorem mem_noteSymbol_iff {seen : Symbols} (hseen : ∀ s, s ∈ seen ↔ s ∈ namesOf before)
    (hbody : SourceLine.isBody line = true) (s : Text) :
    s ∈ noteSymbol seen line ↔ s ∈ namesOf (before ++ [line]) := by
  rw [namesOf_append, List.mem_append, namesOf_singleton_of_body hbody, noteSymbol, ← hseen]
  cases SourceLine.ifdefSymbol? line with
  | some symbol => simp [Symbols.mem_insert]
  | none => simp

end

/-! ## The log of a scan -/

/-- The known symbols are those named above, so each line is reported for what it is, up to the
    first bad line. -/
theorem leveled_events_scanLines (active : Option Stage) (before : List Text) (seen : Symbols)
    (hseen : ∀ s, s ∈ seen ↔ s ∈ namesOf before) (lines : List Text) :
    (scanLines active (before.length + 1) seen lines).events.map Event.leveled =
      gathered (fun b => lineReport (before ++ b)) (lines.takeWhile (!SourceLine.isBad ·)) := by
  induction lines generalizing active before seen with
  | nil => rfl
  | cons line lines ih =>
    have hih := fun active seen => ih active (before ++ [line]) seen
    simp only [List.length_append, List.length_singleton, List.append_assoc] at hih
    rw [scanLines, openedStage?_eq]
    cases hbad : SourceLine.isBad line with
    | true => simp [hbad, gathered]
    | false =>
      rw [List.takeWhile_cons_of_pos (by simp [hbad]), gathered_cons, List.append_nil]
      cases hmarker : SourceLine.markerStage? line with
      | some stage =>
        have hbody := SourceLine.isBody_of_marker hmarker
        have hseen' : ∀ s, s ∈ seen ↔ s ∈ namesOf (before ++ [line]) := by
          simpa [namesOf_append, namesOf_singleton_of_not_body hbody] using hseen
        rw [lineReport_of_marker hmarker]
        exact congrArg (_ :: ·) (hih (some stage) seen hseen')
      | none =>
        have hbody : SourceLine.isBody line = true := by simp [SourceLine.isBody, hmarker, hbad]
        rw [← leveled_lineEvents hseen hbody hmarker]
        refine (List.map_append).trans (congrArg (_ ++ ·) ?_)
        exact hih active _ (mem_noteSymbol_iff hseen hbody)

theorem countP_lineReport (before : List Text) (line : Text) :
    (lineReport before line).countP (·.1 = .debug) =
      ((namesOf [line]).filter (· ∉ namesOf before)).length := by
  rw [lineReport, List.countP_append, List.countP_append, List.countP_map, List.countP_map]
  by_cases hbare : SourceLine.isBody line ∧ line.trim = "#ifdef"
  · simp [hbare, Function.comp_def, List.countP_false, List.countP_true]
  · simp [hbare, Function.comp_def, List.countP_false, List.countP_true]

/-- A line has a debug report exactly if it adds a symbol. -/
theorem countP_report (lines : List Text) :
    (report lines).countP (·.1 = .debug) = nameCount lines := by
  rw [nameCount, ← length_firstOccurrences]
  induction lines using List.reverseRecOn with
  | nil => rfl
  | append_singleton lines line ih =>
    rw [report_concat, List.countP_append, ih, countP_lineReport, namesOf_append]
    cases hbody : SourceLine.isBody line with
    | false => simp [namesOf_singleton_of_not_body hbody]
    | true =>
      rw [namesOf_singleton_of_body hbody]
      cases SourceLine.ifdefSymbol? line with
      | none => simp
      | some symbol =>
        rw [Option.toList_some, firstOccurrences_concat, List.length_append]
        by_cases hknown : symbol ∈ namesOf lines <;> simp [hknown]

theorem length_marker_linesBehind (before lines : List Text) :
    (SourcePart.marker.linesBehind before lines).length =
      lines.countP fun line => (SourceLine.markerStage? line).isSome := by
  induction lines generalizing before with
  | nil => rfl
  | cons line lines ih =>
    rw [SourcePart.linesBehind_cons, List.length_append, ih, List.countP_cons, SourcePart.ofLine]
    cases SourceLine.markerStage? line with
    | some stage => simp [Nat.add_comm]
    | none => cases SourcePart.lastStage? before <;> simp

/-- Every line that is no marker is in one of the three lists of a capture. -/
theorem length_ofLines (lines : List Text) :
    (ofLines lines).vertex.length + (ofLines lines).fragment.length +
        (ofLines lines).preamble.length +
      (lines.countP fun line => (SourceLine.markerStage? line).isSome) = lines.length := by
  have hlength := (SourcePart.perm_flatMap_linesBehind [] lines).length_eq
  simp only [SourcePart.all, List.flatMap_cons, List.flatMap_nil, List.length_append,
    List.length_nil, length_marker_linesBehind] at hlength
  change ((SourcePart.stage .vertex).linesBehind [] lines).length +
    ((SourcePart.stage .fragment).linesBehind [] lines).length +
    (SourcePart.preamble.linesBehind [] lines).length + _ = _
  omega

theorem takeWhile_eq_self_iff_badMarkers {lines : List Text} :
    lines.takeWhile (!SourceLine.isBad ·) = lines ↔ badMarkers lines = [] := by
  rw [List.takeWhile_eq_self_iff, badMarkers_eq_nil_iff]
  simp only [Bool.not_eq_true']

/-- The count at the end comes behind the reports. -/
theorem leveled_events_scan (source : Text) :
    (scan source).events.map Event.leveled =
      report (source.lines.takeWhile (!SourceLine.isBad ·)) ++
        ((scan source).result.toOption.map fun c => c.countEvent.leveled).toList := by
  have hlines : (scanLines none 1 ∅ source.lines).result = (scan source).result :=
    (ofSource?_eq source).symm
  have htold : (scanLines none 1 ∅ source.lines).events.map Event.leveled =
      report (source.lines.takeWhile (!SourceLine.isBad ·)) :=
    leveled_events_scanLines none [] ∅ (fun _ => Iff.rfl) source.lines
  rw [← htold]
  cases hresult : (scan source).result with
  | error bad =>
    rw [scan, Outcome.andThen, hlines, hresult]
    exact (List.append_nil _).symm
  | ok c =>
    rw [scan, Outcome.andThen, hlines, hresult]
    exact List.map_append

/-- The log of a scan holds the reports of the lines above the first bad line. If there is no bad
    line, the counts of what was found follow: with the markers they count every line, and there
    is a symbol for each debug report. -/
theorem log_eq_report (source : Text) :
    let kept := source.lines.takeWhile (!SourceLine.isBad ·)
    (∀ bad, (scan source).result = .error bad →
      kept ≠ source.lines ∧ (scan source).events.map Event.leveled = report kept) ∧
    ∀ c, (scan source).result = .ok c →
      kept = source.lines ∧
      (scan source).events.map Event.leveled = report kept ++
        [(.debug, .scanned c.vertex.length c.fragment.length c.preamble.length c.symbols.size)] ∧
      c.vertex.length + c.fragment.length + c.preamble.length +
        (source.lines.countP fun line => (SourceLine.markerStage? line).isSome) =
          source.lines.length ∧
      c.symbols.size = (report kept).countP (·.1 = .debug) := by
  intro kept
  have hfound : (scan source).result =
      firstFault (badMarkers source.lines) (ofLines source.lines) := ofSource?_eq_firstFault source
  refine ⟨fun bad hbad => ?_, fun c hc => ?_⟩
  · refine ⟨fun hkept => ?_, ?_⟩
    · rw [hfound, takeWhile_eq_self_iff_badMarkers.1 hkept] at hbad
      cases hbad
    · rw [leveled_events_scan, hbad]
      exact List.append_nil _
  · have hnone : badMarkers source.lines = [] :=
      exists_firstFault_eq_ok_iff.1 ⟨c, hfound ▸ hc⟩
    have hparts : ofLines source.lines = c := by
      rw [hfound, hnone] at hc
      exact Except.ok.inj hc
    have hkept : kept = source.lines := takeWhile_eq_self_iff_badMarkers.2 hnone
    refine ⟨hkept, ?_, ?_, ?_⟩
    · rw [leveled_events_scan, hc]
      rfl
    · rw [← hparts]
      exact length_ofLines source.lines
    · rw [← hparts, hkept, countP_report, size_symbols_ofLines]

/-- A symbol that occurs again and has blanks around its line, and a directive by itself. -/
def mixedSource : Text :=
  "#ifdef A\n#shader vertex\n #ifdef A \n\t#ifdef\r\n#shader fragment\n#ifdef B C\nend"

/-- A name below a bad line. -/
def cutShortSource : Text := "#ifdef A\n#shader geometry\n#ifdef B\n"

theorem log_eq_report_mixed :
    (∃ c, (scan mixedSource).result = .ok c ∧
      (scan mixedSource).events.map Event.leveled =
        [(.debug, .foundSymbol 1 "A"), (.trace, .enteredStage 2 .vertex), (.warn, .bareIfdef 4),
          (.trace, .enteredStage 5 .fragment), (.debug, .foundSymbol 6 "B"),
          (.debug, .scanned 2 2 1 2)]) ∧
    ∃ bad, (scan cutShortSource).result = .error bad ∧
      (scan cutShortSource).events.map Event.leveled = [(.debug, .foundSymbol 1 "A")] := by
  have hmixed : (scan mixedSource).result = .ok (ofLines mixedSource.lines) := by decide +kernel
  have hcut : (scan cutShortSource).result = .error ⟨2, "geometry", "#shader geometry"⟩ := by
    decide +kernel
  refine ⟨⟨_, hmixed, ?_⟩, ⟨_, hcut, ?_⟩⟩
  · rw [((log_eq_report mixedSource).2 _ hmixed).2.1]
    decide +kernel
  · rw [((log_eq_report cutShortSource).1 _ hcut).2]
    decide +kernel

end Capture

end ShaderVariants
