import Mathlib.Data.List.DropRight
import ShaderVariants.Proofs.CarriageReturns
import ShaderVariants.Proofs.ScanEvents

/-!
# Lines that name a symbol

A grammar says which lines name which symbol: whitespace, the directive, whitespace, a word and
the end of that word. A scan goes another way. It trims the line, looks for the directive at its
start and takes the first word behind that. Here it is shown to find the symbols of the grammar.
Trimming takes off the blank of a directive only where no word stands behind it, so a trimmed
line that still starts with the directive always names a symbol.
-/

namespace ShaderVariants

namespace Text

variable {t word gap : Text}

/-- A word in front of the text ends there: the text is empty or starts with whitespace. -/
def EndsWord (t : Text) : Prop := ∀ c ∈ t.head?, isWhitespace c = true

instance (t : Text) : Decidable (IsBlank t) :=
  decidable_of_iff (t.all isWhitespace) List.all_eq_true

instance (t : Text) : Decidable (EndsWord t) :=
  decidable_of_iff (t.head?.all isWhitespace) (Option.all_eq_true _ _)

/-! ## First words -/

theorem eq_false_of_mem_head?_dropWhile {α : Type} {p : α → Bool} {l : List α} {a : α}
    (h : a ∈ (l.dropWhile p).head?) : p a = false := by
  have hnot := List.head?_dropWhile_not p l
  rwa [Option.mem_def.1 h] at hnot

theorem IsBlank.trimStart_append (h : gap.IsBlank) (t : Text) :
    (gap ++ t).trimStart = t.trimStart :=
  List.dropWhile_append_of_pos h

theorem trimStart_eq_nil_iff : t.trimStart = [] ↔ t.IsBlank := List.dropWhile_eq_nil_iff

theorem trimStart_eq_self (h : ∀ c ∈ t.head?, isWhitespace c = false) : t.trimStart = t := by
  cases t with
  | nil => rfl
  | cons c t =>
    have hc : ¬isWhitespace c = true := by simp [h c rfl]
    exact List.dropWhile_cons_of_neg hc

theorem firstWord?_eq_some_iff_takeWhile :
    t.firstWord? = some word ↔
      t.trimStart.takeWhile (!isWhitespace ·) = word ∧ word ≠ [] := by
  unfold firstWord?
  split
  · next hrun =>
    rw [hrun]
    exact ⟨nofun, fun ⟨hword, hne⟩ => absurd hword.symm hne⟩
  · next hne =>
    rw [Option.some.injEq]
    exact ⟨fun hword => ⟨hword, hword ▸ hne⟩, And.left⟩

/-- Only whitespace has no first word. -/
theorem firstWord?_eq_none_iff : t.firstWord? = none ↔ t.IsBlank := by
  rw [← trimStart_eq_nil_iff]
  constructor
  · intro hnone
    by_contra hne
    obtain ⟨c, rest, hstart⟩ := List.exists_cons_of_ne_nil hne
    have hc : isWhitespace c = false :=
      eq_false_of_mem_head?_dropWhile (Option.mem_def.2 (congrArg List.head? hstart))
    -- the run that starts with `c` would be the first word
    have hrun : t.trimStart.takeWhile (!isWhitespace ·) =
        c :: rest.takeWhile (!isWhitespace ·) := by
      rw [hstart, List.takeWhile_cons_of_pos (by simp [hc])]
    rw [firstWord?_eq_some_iff_takeWhile.2 ⟨hrun, List.cons_ne_nil c _⟩] at hnone
    cases hnone
  · intro hnil
    rw [firstWord?, hnil]
    rfl

theorem EndsWord.takeWhile_eq_nil (h : t.EndsWord) : t.takeWhile (!isWhitespace ·) = [] := by
  cases t with
  | nil => rfl
  | cons c t => exact List.takeWhile_cons_of_neg (by simp [h c rfl])

theorem IsWord.trimStart_append (h : word.IsWord) (t : Text) :
    (word ++ t).trimStart = word ++ t := by
  obtain ⟨c, rest, rfl⟩ := List.exists_cons_of_ne_nil h.1
  apply trimStart_eq_self
  intro d hd
  obtain rfl := Option.some.inj hd
  exact h.2 c List.mem_cons_self

theorem firstWord?_eq_some_iff :
    t.firstWord? = some word ↔
      ∃ gap rest, t = gap ++ (word ++ rest) ∧ gap.IsBlank ∧ word.IsWord ∧ rest.EndsWord := by
  constructor
  · intro h
    obtain ⟨hrun, -⟩ := firstWord?_eq_some_iff_takeWhile.1 h
    refine ⟨t.takeWhile isWhitespace, t.trimStart.dropWhile (!isWhitespace ·), ?_, ?_,
      isWord_of_firstWord? h, ?_⟩
    · rw [← hrun, List.takeWhile_append_dropWhile, trimStart, List.takeWhile_append_dropWhile]
    · intro c hc
      exact List.mem_takeWhile_imp hc
    · intro c hc
      simpa using eq_false_of_mem_head?_dropWhile hc
  · rintro ⟨gap, rest, rfl, hgap, hword, hrest⟩
    have hstart : (gap ++ (word ++ rest)).trimStart = word ++ rest := by
      rw [hgap.trimStart_append, hword.trimStart_append]
    have hall : ∀ c ∈ word, (!isWhitespace c) = true := by
      intro c hc
      rw [hword.2 c hc]
      rfl
    refine firstWord?_eq_some_iff_takeWhile.2 ⟨?_, hword.1⟩
    rw [hstart, List.takeWhile_append_of_pos hall, hrest.takeWhile_eq_nil, List.append_nil]

/-! ## Trimming -/

theorem exists_eq_trimEnd_append (t : Text) : ∃ after, t = t.trimEnd ++ after ∧ after.IsBlank := by
  refine ⟨t.rtakeWhile isWhitespace, ?_, fun c hc => List.mem_rtakeWhile_imp hc⟩
  exact List.rdropWhile_append_rtakeWhile.symm

/-- Trimming takes off whitespace. -/
theorem exists_eq_append_trim_append (t : Text) :
    ∃ before after, t = before ++ (t.trim ++ after) ∧ before.IsBlank ∧ after.IsBlank := by
  obtain ⟨after, heq, hafter⟩ := exists_eq_trimEnd_append t.trimStart
  refine ⟨t.takeWhile isWhitespace, after, ?_, fun c hc => List.mem_takeWhile_imp hc, hafter⟩
  rw [trim, ← heq, trimStart, List.takeWhile_append_dropWhile]

theorem IsBlank.trim_append (h : gap.IsBlank) (t : Text) : (gap ++ t).trim = t.trim := by
  rw [trim, h.trimStart_append, trim]

theorem trimEnd_append_of_not_isBlank (h : ¬t.IsBlank) (before : Text) :
    (before ++ t).trimEnd = before ++ t.trimEnd := by
  have hkept : ¬(t.reverse.dropWhile isWhitespace).isEmpty = true := by
    rw [List.isEmpty_iff, List.dropWhile_eq_nil_iff]
    intro hall
    exact h fun c hc => hall c (List.mem_reverse.2 hc)
  rw [trimEnd, List.reverse_append, List.dropWhile_append, if_neg hkept, List.reverse_append,
    List.reverse_reverse, trimEnd]

theorem firstWord?_trimEnd (t : Text) : t.trimEnd.firstWord? = t.firstWord? := by
  obtain ⟨after, heq, hafter⟩ := exists_eq_trimEnd_append t
  rw [← firstWord?_append hafter, ← heq]

end Text

/-! ## Lines -/

namespace SourceLine

variable {line symbol indent t : Text}

/-- The line names the symbol: whitespace, the directive, whitespace, the symbol, and behind it
    nothing, or whitespace and any text. -/
inductive NamesSymbol : Text → Text → Prop where
  | intro {indent gap symbol rest : Text} (indent_blank : indent.IsBlank) (gap_blank : gap.IsBlank)
    (isWord : symbol.IsWord) (endsWord : rest.EndsWord) :
    NamesSymbol (indent ++ "#ifdef " ++ gap ++ symbol ++ rest) symbol

theorem namesSymbol_iff :
    NamesSymbol line symbol ↔
      ∃ indent t, line = indent ++ ("#ifdef " ++ t) ∧ indent.IsBlank ∧
        t.firstWord? = some symbol := by
  constructor
  · rintro ⟨hindent, hgap, hword, hrest⟩
    refine ⟨_, _, ?_, hindent, Text.firstWord?_eq_some_iff.2 ⟨_, _, rfl, hgap, hword, hrest⟩⟩
    simp only [List.append_assoc]
  · rintro ⟨indent, t, rfl, hindent, hfirst⟩
    obtain ⟨gap, rest, rfl, hgap, hword, hrest⟩ := Text.firstWord?_eq_some_iff.1 hfirst
    have hline := NamesSymbol.intro hindent hgap hword hrest
    simpa only [List.append_assoc] using hline

/-- Without a word behind it the directive loses its blank. -/
theorem trim_directive_of_isBlank (hindent : indent.IsBlank) (ht : t.IsBlank) :
    (indent ++ ("#ifdef " ++ t)).trim = "#ifdef" := by
  rw [hindent.trim_append, Text.trim_append ht]
  decide +kernel

theorem trim_directive_of_not_isBlank (hindent : indent.IsBlank) (ht : ¬t.IsBlank) :
    (indent ++ ("#ifdef " ++ t)).trim = "#ifdef " ++ t.trimEnd := by
  have hstart : (("#ifdef " : Text) ++ t).trimStart = "#ifdef " ++ t := by
    apply Text.trimStart_eq_self
    intro c hc
    obtain rfl : '#' = c := by simpa [Text.ofString_eq_toList] using hc
    decide
  rw [hindent.trim_append, Text.trim, hstart, Text.trimEnd_append_of_not_isBlank ht]

/-- Behind the directive the first word is the symbol, whatever is trimmed off. -/
theorem ifdefSymbol?_directive (hindent : indent.IsBlank) (t : Text) :
    ifdefSymbol? (indent ++ ("#ifdef " ++ t)) = t.firstWord? := by
  by_cases ht : t.IsBlank
  · rw [ifdefSymbol?_of_trim (trim_directive_of_isBlank hindent ht),
      Text.firstWord?_eq_none_iff.2 ht]
  · have hrest : ifdefStart.isPrefixOf? (indent ++ ("#ifdef " ++ t)).trim = some t.trimEnd := by
      rw [trim_directive_of_not_isBlank hindent ht]
      exact Text.isPrefixOf?_eq_some_iff.2 rfl
    rw [ifdefSymbol?, hrest, Option.bind_some, Text.firstWord?_trimEnd]

/-- A line that starts with the directive once it is trimmed starts with whitespace and the
    directive. -/
theorem exists_eq_directive_of_prefix_trim (h : ("#ifdef " : Text) <+: line.trim) :
    ∃ indent t, line = indent ++ ("#ifdef " ++ t) ∧ indent.IsBlank := by
  obtain ⟨rest, hrest⟩ := h
  obtain ⟨indent, after, hline, hindent, -⟩ := Text.exists_eq_append_trim_append line
  refine ⟨indent, rest ++ after, ?_, hindent⟩
  rw [← hrest, List.append_assoc] at hline
  exact hline

theorem prefix_trim_of_ifdefSymbol?_eq_some (h : ifdefSymbol? line = some symbol) :
    ("#ifdef " : Text) <+: line.trim := by
  obtain ⟨rest, hrest, -⟩ := Option.bind_eq_some_iff.1 h
  exact ⟨rest, (Text.isPrefixOf?_eq_some_iff.1 hrest).symm⟩

theorem ifdefSymbol?_eq_some_iff : ifdefSymbol? line = some symbol ↔ NamesSymbol line symbol := by
  rw [namesSymbol_iff]
  constructor
  · intro h
    obtain ⟨indent, t, rfl, hindent⟩ :=
      exists_eq_directive_of_prefix_trim (prefix_trim_of_ifdefSymbol?_eq_some h)
    rw [ifdefSymbol?_directive hindent] at h
    exact ⟨indent, t, rfl, hindent, h⟩
  · rintro ⟨indent, t, rfl, hindent, hfirst⟩
    rw [ifdefSymbol?_directive hindent, hfirst]

theorem NamesSymbol.unique {symbol' : Text} (h : NamesSymbol line symbol)
    (h' : NamesSymbol line symbol') : symbol = symbol' := by
  rw [← ifdefSymbol?_eq_some_iff] at h h'
  exact Option.some.inj (h.symm.trans h')

theorem ifdefSymbol?_eq_none_iff :
    ifdefSymbol? line = none ↔ ¬("#ifdef " : Text) <+: line.trim := by
  constructor
  · intro hnone hprefix
    obtain ⟨indent, t, rfl, hindent⟩ := exists_eq_directive_of_prefix_trim hprefix
    rw [ifdefSymbol?_directive hindent, Text.firstWord?_eq_none_iff] at hnone
    -- the blank of the directive would have been trimmed off
    rw [trim_directive_of_isBlank hindent hnone] at hprefix
    revert hprefix
    decide +kernel
  · intro hprefix
    by_contra hsome
    obtain ⟨symbol, hsymbol⟩ := Option.ne_none_iff_exists'.1 hsome
    exact hprefix (prefix_trim_of_ifdefSymbol?_eq_some hsymbol)

/-- A line that names a symbol is no marker and does not look like one. -/
theorem NamesSymbol.isBody (h : NamesSymbol line symbol) : isBody line = true := by
  obtain ⟨indent, t, rfl, hindent, -⟩ := namesSymbol_iff.1 h
  have hstart : ¬markerStart <+: indent ++ ("#ifdef " ++ t) := by
    rw [markerStart, Text.ofString_eq_toList, Text.ofString_eq_toList]
    cases indent with
    | nil => simp
    | cons c indent =>
      intro hprefix
      have hc : '#' = c := (List.cons_prefix_cons.1 hprefix).1
      exact absurd (hindent c List.mem_cons_self) (hc ▸ by decide)
  rw [SourceLine.isBody, markerStage?_eq_none hstart, isBad_of_not_prefix hstart]
  rfl

end SourceLine

/-! ## Sources -/

/-- The symbols that a scan finds are those that the lines of the source name. -/
theorem Capture.mem_symbols_iff {source symbol : Text} {c : Capture}
    (h : ofSource? source = .ok c) :
    symbol ∈ c.symbols ↔ ∃ line ∈ source.lines, SourceLine.NamesSymbol line symbol := by
  rw [ofSource?_eq_firstFault] at h
  have hnone : badMarkers source.lines = [] := exists_firstFault_eq_ok_iff.1 ⟨c, h⟩
  rw [hnone] at h
  obtain rfl : ofLines source.lines = c := Except.ok.inj h
  have hnames : symbol ∈ (ofLines source.lines).symbols ↔ symbol ∈ namesOf source.lines :=
    mem_firstOccurrences
  rw [hnames, namesOf, List.mem_filterMap]
  simp only [List.mem_filter, SourceLine.ifdefSymbol?_eq_some_iff]
  constructor
  · rintro ⟨line, ⟨hline, -⟩, hsymbol⟩
    exact ⟨line, hline, hsymbol⟩
  · rintro ⟨line, hline, hsymbol⟩
    exact ⟨line, ⟨hline, hsymbol.isBody⟩, hsymbol⟩

open SourceLine in
/-- A line gives a symbol exactly if the grammar says that it names that symbol, and it names at
    most one. It gives none exactly if it does not start with the directive once it is trimmed. So
    the symbols of a source are those that its lines name, and each is a word. -/
theorem named_symbols :
    (∀ line : Text,
      (∀ symbol, ifdefSymbol? line = some symbol ↔ NamesSymbol line symbol) ∧
      (∀ symbol symbol', NamesSymbol line symbol → NamesSymbol line symbol' → symbol = symbol') ∧
      (ifdefSymbol? line = none ↔ ¬("#ifdef " : Text) <+: line.trim)) ∧
    ∀ (source : Text) (c : Capture), Capture.ofSource? source = .ok c → ∀ symbol,
      (symbol ∈ c.symbols ↔ ∃ line ∈ source.lines, NamesSymbol line symbol) ∧
      (symbol ∈ c.symbols → symbol ≠ [] ∧ ' ' ∉ symbol ∧ '\n' ∉ symbol ∧ '\r' ∉ symbol) := by
  refine ⟨fun line => ⟨?_, ?_, ifdefSymbol?_eq_none_iff⟩, fun source c hsource symbol => ⟨?_, ?_⟩⟩
  · intro symbol
    exact ifdefSymbol?_eq_some_iff
  · intro symbol symbol' h h'
    exact h.unique h'
  · exact Capture.mem_symbols_iff hsource
  · intro hsymbol
    have hword : symbol.IsWord := Capture.isWord_of_mem_symbols hsource hsymbol
    exact ⟨hword.1, hword.notMem (by decide), hword.notMem (by decide), hword.notMem (by decide)⟩

/-- A line with wide blanks around its directive and its symbol. -/
def wideLine : Text := "\u3000#ifdef \u00A0\tFOG\u2003x\r\n"

/-- That line, a directive that has blanks behind it and no word, and one that has a tab in place
    of its blank. -/
def wideSource : Text :=
  wideLine ++ "#shader vertex\n#ifdef \u00A0\n#ifdef\tRAIN\n#shader fragment\nf"

open SourceLine in
/-- The symbol of the line is a whole word, and the source has no other symbol. -/
theorem named_symbols_wide :
    ifdefSymbol? wideLine = some "FOG" ∧ ¬NamesSymbol wideLine "FO" ∧
      ifdefSymbol? "#ifdef \u00A0\n" = none ∧ ifdefSymbol? "#ifdef\tRAIN\n" = none ∧
      ∃ c, Capture.ofSource? wideSource = .ok c ∧ ("FOG" : Text) ∈ c.symbols ∧
        ("RAIN" : Text) ∉ c.symbols ∧ '\n' ∉ ("FOG" : Text) := by
  have hnamed : NamesSymbol wideLine "FOG" := by
    have hline : wideLine = "\u3000" ++ "#ifdef " ++ "\u00A0\t" ++ "FOG" ++ "\u2003x\r\n" := by
      decide +kernel
    rw [hline]
    exact .intro (by decide +kernel) (by decide +kernel) (by decide +kernel) (by decide +kernel)
  have hsource : Capture.ofSource? wideSource = .ok (.ofLines wideSource.lines) := by
    decide +kernel
  obtain ⟨hlines, hsources⟩ := named_symbols
  have hfog := hsources wideSource _ hsource "FOG"
  have hmem := hfog.1.2 ⟨wideLine, by decide +kernel, hnamed⟩
  refine ⟨((hlines wideLine).1 _).2 hnamed, ?_, ?_, ?_, _, hsource, hmem, ?_, (hfog.2 hmem).2.2.1⟩
  · intro hshort
    exact absurd ((hlines wideLine).2.1 _ _ hshort hnamed) (by decide +kernel)
  · exact (hlines _).2.2.2 (by decide +kernel)
  · exact (hlines _).2.2.2 (by decide +kernel)
  · rw [(hsources wideSource _ hsource "RAIN").1]
    simp only [← ((hlines _).1 _)]
    decide +kernel

end ShaderVariants
