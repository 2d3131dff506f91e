import Mathlib.Data.Finset.Card
import Mathlib.Data.List.Induction
import ShaderVariants.Proofs.Lines
import ShaderVariants.Proofs.Shaders

/-!
# The parts of a source

A scan goes through the lines once and keeps a state. What it finds can be said without that
state: each line belongs to one part of the source, by what it is and by the nearest marker
above it, and the symbols are the first occurrences of the names on body lines. Here that is
said of the whole source, and the scan is proved to find it.
-/

namespace ShaderVariants

/-! ## Entries chosen by what stands before them -/

section

variable {α : Type}

/-- The entries that `keep` takes, in order; `keep` sees all that stands before an entry. -/
def chosen (keep : List α → α → Bool) (l : List α) : List α :=
  (l.zipIdx.filter fun p => keep (l.take p.2) p.1).map Prod.fst

theorem chosen_cons (keep : List α → α → Bool) (a : α) (l : List α) :
    chosen keep (a :: l) =
      (if keep [] a then [a] else []) ++ chosen (fun before => keep (a :: before)) l := by
  have hrest : ((l.zipIdx 1).filter fun p => keep ((a :: l).take p.2) p.1).map Prod.fst =
      chosen (fun before => keep (a :: before)) l := by
    rw [chosen, List.zipIdx_succ, List.filter_map, List.map_map]
    rfl
  rw [chosen, List.zipIdx_cons, List.filter_cons, ← hrest]
  by_cases h : keep [] a <;> simp [h]

theorem chosen_append (keep : List α → α → Bool) (l m : List α) :
    chosen keep (l ++ m) = chosen keep l ++ chosen (fun before => keep (l ++ before)) m := by
  induction l generalizing keep with
  | nil => rfl
  | cons a l ih => rw [List.cons_append, chosen_cons, ih, chosen_cons, List.append_assoc]; rfl

variable [DecidableEq α]

/-- The first occurrence of each entry, in order. -/
def firstOccurrences (l : List α) : List α := chosen (fun before a => a ∉ before) l

theorem firstOccurrences_concat (l : List α) (a : α) :
    firstOccurrences (l ++ [a]) = firstOccurrences l ++ if a ∈ l then [] else [a] := by
  rw [firstOccurrences, chosen_append, chosen_cons]
  by_cases h : a ∈ l <;> simp [h, firstOccurrences, chosen]

theorem mem_firstOccurrences {l : List α} {a : α} : a ∈ firstOccurrences l ↔ a ∈ l := by
  induction l using List.reverseRecOn with
  | nil => exact Iff.rfl
  | append_singleton l b ih =>
    rw [firstOccurrences_concat, List.mem_append, ih, List.mem_append]
    by_cases h : b ∈ l
    · simp only [h, if_true, List.not_mem_nil, or_false, List.mem_singleton]
      exact ⟨Or.inl, fun ha => ha.elim id fun heq => heq ▸ h⟩
    · rw [if_neg h]

theorem nodup_firstOccurrences (l : List α) : (firstOccurrences l).Nodup := by
  induction l using List.reverseRecOn with
  | nil => exact List.nodup_nil
  | append_singleton l a ih =>
    rw [firstOccurrences_concat]
    by_cases h : a ∈ l
    · rwa [if_pos h, List.append_nil]
    · rw [if_neg h]
      refine List.nodup_append.2 ⟨ih, List.pairwise_singleton _ a, ?_⟩
      rintro b hb c hc rfl
      exact h (mem_firstOccurrences.1 (List.mem_singleton.1 hc ▸ hb))

/-- There is one for each entry, however often it occurs. -/
theorem length_firstOccurrences (l : List α) : (firstOccurrences l).length = l.toFinset.card := by
  have hset : (firstOccurrences l).toFinset = l.toFinset := by
    ext a
    rw [List.mem_toFinset, List.mem_toFinset, mem_firstOccurrences]
  rw [← hset, List.toFinset_card_of_nodup (nodup_firstOccurrences l)]

end

namespace Symbols

/-- The distinct names of a list as symbols, first seen first. -/
def ofOccurrences (l : List Text) : Symbols where
  names := firstOccurrences l
  index := .ofList l
  nodup := nodup_firstOccurrences l
  mem_index _ := NameSet.mem_ofList.trans mem_firstOccurrences.symm

theorem names_ofOccurrences (l : List Text) : (ofOccurrences l).names = firstOccurrences l := rfl

/-- Inserting one name after the other keeps the first occurrences. -/
theorem foldl_insert (l : List Text) : l.foldl insert ∅ = ofOccurrences l := by
  induction l using List.reverseRecOn with
  | nil => rfl
  | append_singleton l name ih =>
    have hmem : name ∈ ofOccurrences l ↔ name ∈ l := mem_firstOccurrences
    rw [List.foldl_concat, ih]
    refine Symbols.ext ?_
    rw [names_insert, names_ofOccurrences, names_ofOccurrences, firstOccurrences_concat]
    by_cases h : name ∈ l
    · rw [if_pos (hmem.2 h), if_pos h, List.append_nil]
    · rw [if_neg (hmem.not.2 h), if_neg h]

end Symbols

/-! ## Words -/

namespace Text

/-- The words of a text: what stands between whitespace. -/
def words (t : Text) : List Text := (t.splitOnP isWhitespace).filter (· ≠ [])

theorem head?_splitOnP {α : Type} (p : α → Bool) (l : List α) :
    (l.splitOnP p).head? = some (l.takeWhile (!p ·)) := by
  induction l with
  | nil => rfl
  | cons a l ih =>
    rw [List.splitOnP_cons_eq_if_modifyHead]
    by_cases h : p a
    · simp [h]
    · obtain ⟨w, ws, hsplit⟩ := List.exists_cons_of_ne_nil (List.splitOnP_ne_nil p l)
      rw [hsplit, List.head?_cons, Option.some.injEq] at ih
      simp [h, hsplit, ih]

theorem firstWord?_eq_head? (t : Text) : t.firstWord? = t.words.head? := by
  induction t with
  | nil => rfl
  | cons c t ih =>
    by_cases hc : isWhitespace c
    · have hwords : words (c :: t) = words t := by
        rw [words, List.splitOnP_cons_eq_if_modifyHead, if_pos hc]
        rfl
      have hfirst : firstWord? (c :: t) = firstWord? t := by
        rw [firstWord?, firstWord?, trimStart, trimStart, List.dropWhile_cons_of_pos hc]
      rw [hwords, hfirst, ih]
    · have hhead := head?_splitOnP isWhitespace t
      obtain ⟨w, ws, hsplit⟩ := List.exists_cons_of_ne_nil (List.splitOnP_ne_nil isWhitespace t)
      rw [hsplit, List.head?_cons, Option.some.injEq] at hhead
      have hwords : words (c :: t) = (c :: w) :: ws.filter (· ≠ []) := by
        rw [words, List.splitOnP_cons_eq_if_modifyHead, if_neg hc, hsplit, List.modifyHead_cons,
          List.filter_cons_of_pos (by simp)]
      rw [hwords, List.head?_cons, firstWord?, trimStart, List.dropWhile_cons_of_neg hc,
        List.takeWhile_cons_of_pos (by simp [hc]), hhead]

end Text

/-! ## Kinds of lines -/

namespace SourceLine

/-- The stage that a line opens, if the line is a marker. -/
def markerStage? (line : Text) : Option Stage :=
  if ("#shader vertex" : Text).isPrefixOf line then some .vertex
  else if ("#shader fragment" : Text).isPrefixOf line then some .fragment
  else none

/-- The line starts as a marker does and is none. -/
def isBad (line : Text) : Bool :=
  ("#shader " : Text).isPrefixOf line && (markerStage? line).isNone

/-- The line is neither a marker nor bad. -/
def isBody (line : Text) : Bool := (markerStage? line).isNone && !isBad line

/-- The text of a line behind the start of a marker. -/
def behindStart (line : Text) : Text := line.drop ("#shader " : Text).length

theorem vertex_marker : ("#shader vertex" : Text) = markerStart ++ Stage.vertex.keyword := by
  simp only [markerStart, Stage.keyword, Text.ofString_eq_toList]
  decide

theorem fragment_marker : ("#shader fragment" : Text) = markerStart ++ Stage.fragment.keyword := by
  simp only [markerStart, Stage.keyword, Text.ofString_eq_toList]
  decide

theorem isPrefixOf_append_append (p q t : Text) :
    (p ++ q).isPrefixOf (p ++ t) = q.isPrefixOf t := by
  rw [Bool.eq_iff_iff, List.isPrefixOf_iff_prefix, List.isPrefixOf_iff_prefix,
    List.prefix_append_right_inj]

theorem markerStage?_append (rest : Text) :
    markerStage? (markerStart ++ rest) = Stage.ofMarker? rest := by
  rw [markerStage?, vertex_marker, fragment_marker, isPrefixOf_append_append,
    isPrefixOf_append_append, Stage.ofMarker?, Stage.all]
  cases h : Stage.vertex.keyword.isPrefixOf rest <;>
    cases h' : Stage.fragment.keyword.isPrefixOf rest <;> simp [h, h']

/-- Every marker starts as one. -/
theorem markerStage?_eq_none {line : Text} (h : ¬markerStart <+: line) :
    markerStage? line = none := by
  have hkeyword : ∀ stage : Stage, ¬markerStart ++ stage.keyword <+: line := fun stage hpre =>
    h ((List.prefix_append markerStart stage.keyword).trans hpre)
  rw [markerStage?, vertex_marker, fragment_marker, if_neg, if_neg]
  · exact fun hpre => hkeyword .fragment (List.isPrefixOf_iff_prefix.1 hpre)
  · exact fun hpre => hkeyword .vertex (List.isPrefixOf_iff_prefix.1 hpre)

theorem classify_of_not_prefix {line : Text} (h : ¬markerStart <+: line) :
    classify line = .body := by
  unfold classify
  split
  · rfl
  · next rest hrest => exact absurd ⟨rest, (Text.isPrefixOf?_eq_some_iff.1 hrest).symm⟩ h

theorem classify_append (rest : Text) :
    classify (markerStart ++ rest) =
      match Stage.ofMarker? rest with
      | some stage => .marker stage
      | none => .unsupported (rest.words.head?.getD []) := by
  have hrest : markerStart.isPrefixOf? (markerStart ++ rest) = some rest :=
    Text.isPrefixOf?_eq_some_iff.2 rfl
  rw [classify, hrest]
  dsimp only
  cases Stage.ofMarker? rest with
  | some stage => rfl
  | none =>
    exact congrArg (fun word => Kind.unsupported (word.getD [])) (Text.firstWord?_eq_head? rest)

theorem isBad_append (rest : Text) :
    isBad (markerStart ++ rest) = (Stage.ofMarker? rest).isNone := by
  have hpre : markerStart.isPrefixOf (markerStart ++ rest) = true :=
    List.isPrefixOf_iff_prefix.2 (List.prefix_append markerStart rest)
  rw [isBad, markerStage?_append]
  exact (congrArg (· && _) hpre).trans (Bool.true_and _)

theorem isBad_of_not_prefix {line : Text} (h : ¬markerStart <+: line) : isBad line = false := by
  rw [isBad, Bool.and_eq_false_iff]
  exact .inl (Bool.eq_false_iff.2 fun hpre => h (List.isPrefixOf_iff_prefix.1 hpre))

theorem behindStart_append (rest : Text) : behindStart (markerStart ++ rest) = rest :=
  List.drop_left

end SourceLine

/-! ## Parts -/

/-- The fault of a bad line behind `i` other lines. -/
def badMarkerAt (i : Nat) (line : Text) : BadMarker :=
  ⟨i + 1, (SourceLine.behindStart line).words.head?.getD [], line.trimEnd⟩

/-- Where a line of a source ends. -/
inductive SourcePart where
  | marker
  /-- Above the first marker. -/
  | preamble
  | stage (stage : Stage)
deriving DecidableEq

namespace SourcePart

def all : List SourcePart := [marker, preamble, stage .vertex, stage .fragment]

/-- The stage of the last marker among the lines. -/
def lastStage? (lines : List Text) : Option Stage :=
  (lines.filterMap SourceLine.markerStage?).getLast?

/-- The part of a line with the lines before it: a body line belongs to the stage of the nearest
    marker. -/
def ofLine (before : List Text) (line : Text) : SourcePart :=
  if (SourceLine.markerStage? line).isSome then marker
  else
    match lastStage? before with
    | none => preamble
    | some s => stage s

/-- The lines of a part, in order. -/
def lines (p : SourcePart) (l : List Text) : List Text :=
  chosen (fun before line => ofLine before line = p) l

theorem lastStage?_concat (before : List Text) (line : Text) :
    lastStage? (before ++ [line]) =
      (SourceLine.markerStage? line).orElse fun _ => lastStage? before := by
  rw [lastStage?, List.filterMap_append, List.getLast?_append]
  cases h : SourceLine.markerStage? line <;> simp [h, lastStage?]

/-- The lines of a part among those that stand behind the lines `before`. -/
def linesBehind (p : SourcePart) (before l : List Text) : List Text :=
  chosen (fun b line => ofLine (before ++ b) line = p) l

theorem linesBehind_cons (before : List Text) (p : SourcePart) (line : Text) (l : List Text) :
    linesBehind p before (line :: l) =
      (if ofLine before line = p then [line] else []) ++ linesBehind p (before ++ [line]) l := by
  simp only [linesBehind, chosen_cons, List.append_nil, decide_eq_true_eq, List.append_assoc,
    List.singleton_append]

/-- Every line of a source ends in one part. -/
theorem perm_flatMap_linesBehind (before l : List Text) :
    (all.flatMap fun p => linesBehind p before l).Perm l := by
  induction l generalizing before with
  | nil => exact List.Perm.refl []
  | cons line l ih =>
    refine List.perm_iff_count.2 fun a => ?_
    have hcount := (ih (before ++ [line])).count_eq a
    simp only [all, List.flatMap_cons, List.flatMap_nil, List.append_nil, List.count_append,
      linesBehind_cons] at hcount ⊢
    rw [List.count_cons, ← hcount]
    rcases hpart : ofLine before line with _ | _ | (_ | _) <;>
      simp [List.count_cons] <;> omega

end SourcePart

namespace Capture

/-- The names on the body lines, one for each line that names a symbol. -/
def namesOf (lines : List Text) : List Text :=
  (lines.filter SourceLine.isBody).filterMap SourceLine.ifdefSymbol?

/-- What the lines of a source hold: the fault of the first bad line, and if there is none the
    lines of each part and the names on body lines. -/
def declared (lines : List Text) : Except BadMarker Capture :=
  match lines.zipIdx.find? fun p => SourceLine.isBad p.1 with
  | some (line, i) => .error (badMarkerAt i line)
  | none => .ok {
      preamble := SourcePart.preamble.lines lines
      vertex := (SourcePart.stage .vertex).lines lines
      fragment := (SourcePart.stage .fragment).lines lines
      symbols := .ofOccurrences (namesOf lines) }

theorem openedStage?_eq (i : Nat) (line : Text) :
    openedStage? (i + 1) line =
      if SourceLine.isBad line then .error (badMarkerAt i line)
      else .ok (SourceLine.markerStage? line) := by
  by_cases h : SourceLine.markerStart <+: line
  · obtain ⟨rest, rfl⟩ := h
    rw [openedStage?, SourceLine.classify_append, SourceLine.isBad_append,
      SourceLine.markerStage?_append, badMarkerAt, SourceLine.behindStart_append]
    cases Stage.ofMarker? rest <;> rfl
  · rw [openedStage?, SourceLine.classify_of_not_prefix h, SourceLine.isBad_of_not_prefix h,
      SourceLine.markerStage?_eq_none h]
    rfl

/-- What a scan of `lines` finds behind the lines `before`, with the symbols `seen` known. -/
def declaredBehind (before : List Text) (seen : Symbols) (lines : List Text) :
    Except BadMarker Capture :=
  match (lines.zipIdx before.length).find? fun p => SourceLine.isBad p.1 with
  | some (line, i) => .error (badMarkerAt i line)
  | none => .ok {
      preamble := SourcePart.preamble.linesBehind before lines
      vertex := (SourcePart.stage .vertex).linesBehind before lines
      fragment := (SourcePart.stage .fragment).linesBehind before lines
      symbols := (namesOf lines).foldl Symbols.insert seen }

theorem declaredBehind_nil (lines : List Text) : declaredBehind [] ∅ lines = declared lines := by
  rw [declaredBehind, Symbols.foldl_insert]
  rfl

section

variable {before lines : List Text} {seen : Symbols} {line : Text}

theorem declaredBehind_of_bad (h : SourceLine.isBad line = true) :
    declaredBehind before seen (line :: lines) = .error (badMarkerAt before.length line) := by
  rw [declaredBehind, List.zipIdx_cons, List.find?_cons, h]

theorem declaredBehind_of_marker {stage : Stage} (hbad : SourceLine.isBad line = false)
    (h : SourceLine.markerStage? line = some stage) :
    declaredBehind before seen (line :: lines) =
      declaredBehind (before ++ [line]) seen lines := by
  have hpart : SourcePart.ofLine before line = .marker := by rw [SourcePart.ofLine, h]; rfl
  have hnames : namesOf (line :: lines) = namesOf lines := by
    rw [namesOf, List.filter_cons_of_neg (by simp [SourceLine.isBody, h])]
    rfl
  simp only [declaredBehind, List.zipIdx_cons, List.find?_cons, hbad, SourcePart.linesBehind_cons,
    hpart, hnames, List.length_append, List.length_singleton]
  rfl

theorem foldl_namesOf_of_body (h : SourceLine.isBody line = true) :
    (namesOf (line :: lines)).foldl Symbols.insert seen =
      (namesOf lines).foldl Symbols.insert (noteSymbol seen line) := by
  rw [namesOf, List.filter_cons_of_pos h, List.filterMap_cons, noteSymbol]
  cases SourceLine.ifdefSymbol? line <;> rfl

theorem declaredBehind_of_body (hbad : SourceLine.isBad line = false)
    (h : SourceLine.markerStage? line = none) :
    declaredBehind before seen (line :: lines) =
      (declaredBehind (before ++ [line]) (noteSymbol seen line) lines).map
        (consLine (SourcePart.lastStage? before) line) := by
  have hbody : SourceLine.isBody line = true := by simp [SourceLine.isBody, h, hbad]
  simp only [declaredBehind, List.zipIdx_cons, List.find?_cons, hbad, SourcePart.linesBehind_cons,
    foldl_namesOf_of_body hbody, SourcePart.ofLine, h, List.length_append, List.length_singleton]
  cases (lines.zipIdx (before.length + 1)).find? fun p => SourceLine.isBad p.1 with
  | some _ => rfl
  | none => rcases SourcePart.lastStage? before with _ | _ | _ <;> rfl

end

/-- The state of a scan is the stage of the last marker, the number of lines and the symbols. -/
theorem result_scanLines (before : List Text) (seen : Symbols) (lines : List Text) :
    (scanLines (SourcePart.lastStage? before) (before.length + 1) seen lines).result =
      declaredBehind before seen lines := by
  induction lines generalizing before seen with
  | nil => rfl
  | cons line lines ih =>
    have hlast := SourcePart.lastStage?_concat before line
    have hlength : (before ++ [line]).length = before.length + 1 := List.length_append
    have hih := fun seen => ih (before ++ [line]) seen
    rw [hlast, hlength] at hih
    rw [scanLines, openedStage?_eq]
    cases hbad : SourceLine.isBad line with
    | true => exact (declaredBehind_of_bad hbad).symm
    | false =>
      cases hmarker : SourceLine.markerStage? line with
      | some stage =>
        rw [hmarker] at hih
        rw [declaredBehind_of_marker hbad hmarker, ← hih]
        rfl
      | none =>
        rw [hmarker] at hih
        rw [declaredBehind_of_body hbad hmarker, ← hih]
        rfl

end Capture

/-- A scan finds what the lines of the source declare: the source is cut behind every newline, and
    every line ends in one part. -/
theorem ofSource?_eq_declared (source : Text) :
    source.lines.flatten = source ∧ Text.IsCut source.lines ∧
      Capture.ofSource? source = Capture.declared source.lines ∧
      (SourcePart.all.flatMap fun p => p.lines source.lines).Perm source.lines := by
  refine ⟨Text.flatten_lines source, Text.isCut_lines source, ?_, ?_⟩
  · rw [Capture.ofSource?_eq, ← Capture.declaredBehind_nil]
    exact Capture.result_scanLines [] ∅ source.lines
  · exact SourcePart.perm_flatMap_linesBehind [] source.lines

end ShaderVariants
