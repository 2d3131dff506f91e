import ShaderVariants.Proofs.ScannedParts

/-!
# What keeps a source from giving files

A source can fail to give files for several reasons at once. They are looked for in a fixed
order: bad lines, the file name, the stages, the number of symbols. Here they are listed in
that order from the file name and the lines alone, and the fault of a run is the first that
is listed.
-/

namespace ShaderVariants

/-! ## The first of several faults -/

section

variable {ε δ α β : Type}

/-- The value, unless there is a fault; of several faults the first. -/
def firstFault (faults : List ε) (a : α) : Except ε α :=
  match faults.head? with
  | some fault => .error fault
  | none => .ok a

theorem firstFault_eq_error_iff {faults : List ε} {a : α} {fault : ε} :
    firstFault faults a = .error fault ↔ faults.head? = some fault := by
  cases faults <;> simp [firstFault]

theorem exists_firstFault_eq_ok_iff {faults : List ε} {a : α} :
    (∃ b, firstFault faults a = .ok b) ↔ faults = [] := by
  cases faults <;> simp [firstFault]

theorem firstFault_append (faults faults' : List ε) (a : α) :
    firstFault (faults ++ faults') a =
      (firstFault faults ()).bind fun _ => firstFault faults' a := by
  cases faults <;> rfl

theorem mapError_firstFault (f : ε → δ) (faults : List ε) (a : α) :
    (firstFault faults a).mapError f = firstFault (faults.map f) a := by
  cases faults <;> rfl

theorem map_firstFault (f : α → β) (faults : List ε) (a : α) :
    (firstFault faults a).map f = firstFault faults (f a) := by
  cases faults <;> rfl

theorem bind_firstFault (faults : List ε) (a : α) (next : α → Except ε β) :
    (firstFault faults a).bind next = (firstFault faults ()).bind fun _ => next a := by
  cases faults <;> rfl

end

/-! ## Bad lines -/

namespace Capture

/-- The faults of the bad lines, in order. -/
def badMarkers (lines : List Text) : List BadMarker :=
  (lines.zipIdx.filter fun p => SourceLine.isBad p.1).map fun p => badMarkerAt p.2 p.1

/-- What lines hold of which none is bad. -/
def ofLines (lines : List Text) : Capture where
  preamble := SourcePart.preamble.lines lines
  vertex := (SourcePart.stage .vertex).lines lines
  fragment := (SourcePart.stage .fragment).lines lines
  symbols := .ofOccurrences (namesOf lines)

theorem declared_eq_firstFault (lines : List Text) :
    declared lines = firstFault (badMarkers lines) (ofLines lines) := by
  rw [declared, firstFault, badMarkers, List.head?_map, List.head?_filter]
  cases lines.zipIdx.find? fun p => SourceLine.isBad p.1 <;> rfl

theorem ofSource?_eq_firstFault (source : Text) :
    ofSource? source = firstFault (badMarkers source.lines) (ofLines source.lines) := by
  rw [ofSource?_eq, ← declared_eq_firstFault, ← declaredBehind_nil]
  exact result_scanLines [] ∅ source.lines

/-- The number of distinct names on body lines. -/
def nameCount (lines : List Text) : Nat := (namesOf lines).toFinset.card

theorem size_symbols_ofLines (lines : List Text) :
    (ofLines lines).symbols.size = nameCount lines :=
  length_firstOccurrences (namesOf lines)

end Capture

/-! ## Faults of a shader -/

namespace VariantShader

/-- The fault of a file name that cannot stand in an `#include`. -/
def nameFaults (fileName : Text) : List ShaderFault :=
  if fileName.any breaksInclude then [.unsupportedFileName fileName] else []

/-- The faults of the stages without lines. -/
def stageFaults (stageLines : Stage → List Text) : List ShaderFault :=
  (Stage.all.filter fun stage => stageLines stage = []).map .emptyStage

/-- The fault of more symbols than a mask has bits. -/
def countFaults (count : Nat) : List ShaderFault :=
  if 64 < count then [.tooManySymbols count] else []

/-- The text of a stage with these lines, of which there should be one. -/
def stageTextOf (lines : List Text) : StageText := ⟨lines.headD [], lines.tail⟩

/-- The shader that a capture gives if nothing keeps it from giving one. -/
def ofParts (fileName : Text) (c : Capture) : VariantShader :=
  ⟨fileName, ShaderVariants.typeName fileName, stageTextOf c.vertex, stageTextOf c.fragment,
    Toggle.ofSymbols c.symbols⟩

theorem splitStage_eq_firstFault (stage : Stage) (lines : List Text) :
    splitStage stage lines =
      firstFault (if lines = [] then [.emptyStage stage] else []) (stageTextOf lines) := by
  cases lines <;> rfl

theorem stageFaults_stageLines (c : Capture) :
    stageFaults c.stageLines =
      (if c.vertex = [] then [.emptyStage .vertex] else []) ++
        if c.fragment = [] then [.emptyStage .fragment] else [] := by
  by_cases hvertex : c.vertex = [] <;> by_cases hfragment : c.fragment = [] <;>
    simp [stageFaults, Stage.all, Capture.stageLines, hvertex, hfragment]

theorem firstFault_countFaults (count : Nat) (s : VariantShader) :
    firstFault (countFaults count) s =
      if count ≤ Toggle.maxCount then .ok s else .error (.tooManySymbols count) := by
  rw [countFaults, Toggle.maxCount]
  by_cases h : 64 < count
  · rw [if_pos h, if_neg (Nat.not_le.2 h)]
    rfl
  · rw [if_neg h, if_pos (Nat.not_lt.1 h)]
    rfl

/-- The faults of a capture count in their order. -/
theorem ofCapture_eq_firstFault (fileName : Text) (c : Capture) :
    ofCapture fileName c =
      firstFault (nameFaults fileName ++ (stageFaults c.stageLines ++ countFaults c.symbols.size))
        (ofParts fileName c) := by
  rw [ofCapture, firstFault_append, isIncludable, nameFaults]
  cases fileName.any breaksInclude with
  | true => rfl
  | false =>
    rw [if_neg Bool.false_ne_true, Bool.not_false, if_pos rfl, stageFaults_stageLines,
      List.append_assoc, firstFault_append, firstFault_append, firstFault_countFaults,
      splitStage_eq_firstFault, splitStage_eq_firstFault]
    generalize (if c.vertex = [] then [ShaderFault.emptyStage .vertex] else []) = vertexFaults
    generalize (if c.fragment = [] then [ShaderFault.emptyStage .fragment] else []) =
      fragmentFaults
    cases vertexFaults <;> cases fragmentFaults <;> rfl

end VariantShader

/-- What keeps a source from giving files, in the order in which it is looked for. -/
def obstacles (fileName : Text) (lines : List Text) : List Failure :=
  (Capture.badMarkers lines).map .badMarker ++
    (VariantShader.nameFaults fileName ++
      (VariantShader.stageFaults (fun stage => (SourcePart.stage stage).lines lines) ++
        VariantShader.countFaults (Capture.nameCount lines))).map .shader

section

variable {fileName : Text} {lines : List Text}

theorem badMarkers_eq_nil_iff :
    Capture.badMarkers lines = [] ↔ ∀ line ∈ lines, SourceLine.isBad line = false := by
  have hlines : lines.zipIdx.map Prod.fst = lines := List.zipIdx_map_fst 0 lines
  rw [Capture.badMarkers, List.map_eq_nil_iff, List.filter_eq_nil_iff]
  conv_rhs => rw [← hlines, List.forall_mem_map]
  simp only [Bool.not_eq_true]

theorem nameFaults_eq_nil_iff :
    VariantShader.nameFaults fileName = [] ↔
      ∀ c ∈ fileName, c ≠ '"' ∧ c ≠ '\\' ∧ isControl c = false := by
  simp [VariantShader.nameFaults, breaksInclude, and_assoc]

theorem stageFaults_eq_nil_iff {stageLines : Stage → List Text} :
    VariantShader.stageFaults stageLines = [] ↔ ∀ stage, stageLines stage ≠ [] := by
  rw [VariantShader.stageFaults, List.map_eq_nil_iff, List.filter_eq_nil_iff]
  simp only [decide_eq_true_eq]
  refine ⟨fun h stage => h stage ?_, fun h stage _ => h stage⟩
  cases stage <;> decide

theorem countFaults_eq_nil_iff {count : Nat} :
    VariantShader.countFaults count = [] ↔ count ≤ 64 := by
  simp [VariantShader.countFaults]

theorem obstacles_eq_nil_iff :
    obstacles fileName lines = [] ↔
      (∀ line ∈ lines, SourceLine.isBad line = false) ∧
      (∀ c ∈ fileName, c ≠ '"' ∧ c ≠ '\\' ∧ isControl c = false) ∧
      (∀ stage, (SourcePart.stage stage).lines lines ≠ []) ∧
      (Capture.namesOf lines).toFinset.card ≤ 64 := by
  rw [obstacles, List.append_eq_nil_iff, List.map_eq_nil_iff, List.map_eq_nil_iff,
    List.append_eq_nil_iff, List.append_eq_nil_iff, badMarkers_eq_nil_iff, nameFaults_eq_nil_iff,
    stageFaults_eq_nil_iff, countFaults_eq_nil_iff, Capture.nameCount]

end

/-- A source gives files unless something keeps it from that, and fails with what is looked for
    first. -/
theorem Artifacts.result_ofSource_eq_firstFault (fileName source : Text) (settings : Settings) :
    (Artifacts.ofSource fileName source settings).result =
      firstFault (obstacles fileName source.lines)
        (ofShader settings (.ofParts fileName (.ofLines source.lines))) := by
  have hbuild (c : Capture) : (VariantShader.build fileName c).result =
      (VariantShader.ofCapture fileName c).mapError .shader := by
    rw [VariantShader.build]
    cases VariantShader.ofCapture fileName c <;> rfl
  have hstages : (Capture.ofLines source.lines).stageLines =
      fun stage => (SourcePart.stage stage).lines source.lines := by
    funext stage
    cases stage <;> rfl
  rw [Artifacts.ofSource, Outcome.result_map, VariantShader.ofSource, Outcome.result_andThen,
    Outcome.result_mapFault, funext hbuild]
  change Except.map _ (((Capture.ofSource? source).mapError _).bind _) = _
  rw [Capture.ofSource?_eq_firstFault, mapError_firstFault, bind_firstFault,
    VariantShader.ofCapture_eq_firstFault, mapError_firstFault, Capture.size_symbols_ofLines,
    hstages, ← firstFault_append, map_firstFault, obstacles]

/-- A source gives files exactly if no line is bad, the file name can stand in an `#include`, each
    stage has a line, and there are no more names than bits. Otherwise the first obstacle is the
    failure. -/
theorem result_eq_error_iff_first_obstacle (fileName source : Text) (settings : Settings) :
    ((∃ a, (Artifacts.ofSource fileName source settings).result = .ok a) ↔
      (∀ line ∈ source.lines, SourceLine.isBad line = false) ∧
      (∀ c ∈ fileName, c ≠ '"' ∧ c ≠ '\\' ∧ isControl c = false) ∧
      (∀ stage, (SourcePart.stage stage).lines source.lines ≠ []) ∧
      (Capture.namesOf source.lines).toFinset.card ≤ 64) ∧
    ∀ f, (Artifacts.ofSource fileName source settings).result = .error f ↔
      (obstacles fileName source.lines).head? = some f := by
  rw [Artifacts.result_ofSource_eq_firstFault, exists_firstFault_eq_ok_iff, obstacles_eq_nil_iff]
  exact ⟨Iff.rfl, fun f => firstFault_eq_error_iff⟩

/-- A bad line comes before a file name that cannot stand in an `#include`, and before the stages
    without lines. -/
example : obstacles "\"" ["#shader geometry\n"] =
    [.badMarker ⟨1, "geometry", "#shader geometry"⟩, .shader (.unsupportedFileName "\""),
      .shader (.emptyStage .vertex), .shader (.emptyStage .fragment)] := by
  decide +kernel

end ShaderVariants
