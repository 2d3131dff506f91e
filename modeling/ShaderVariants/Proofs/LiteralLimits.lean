import ShaderVariants.Proofs.BodyStatements
import ShaderVariants.Proofs.QuotedLiterals

/-!
# Sizes of literals

Two limits are meant for the literals of a definition: on the bytes between the quotes of a
statement, and on the bytes of the text that one literal stands for. Both are nearly kept. An
octal escape makes four bytes of one, so a statement filled with control characters is one byte
too long; and only the body is cut into pieces, so a long prologue or symbol is one literal.
-/

namespace ShaderVariants

/-! ## Escapes -/

namespace Code

variable {c : Char}

/-- The character is written in octal digits: a control character of ASCII without a letter. -/
def isOctalEscaped (c : Char) : Bool := isAsciiControl c && c ∉ ['\n', '\r', '\t']

theorem utf8Size_octal3 (n : Nat) : Text.utf8Size (Text.octal3 n) = 3 := by
  have hdigit : ∀ d < 8, (Nat.digitChar d).utf8Size = 1 := by decide
  rw [Text.octal3, Text.utf8Size_cons, Text.utf8Size_cons, Text.utf8Size_cons, Text.utf8Size_nil,
    hdigit _ (Nat.mod_lt _ (by decide)), hdigit _ (Nat.mod_lt _ (by decide)),
    hdigit _ (Nat.mod_lt _ (by decide))]

theorem utf8Size_of_isAsciiControl (h : isAsciiControl c = true) : c.utf8Size = 1 := by
  simp only [isAsciiControl, Bool.or_eq_true, decide_eq_true_eq, beq_iff_eq] at h
  apply Char.utf8Size_eq_one_iff.2
  rw [UInt32.le_iff_toNat_le]
  show c.toNat ≤ 127
  omega

theorem utf8Size_escape_of_isOctalEscaped (h : isOctalEscaped c = true) :
    Text.utf8Size (escape c) = 4 * c.utf8Size := by
  obtain ⟨hcontrol, hletter⟩ := Bool.and_eq_true_iff.1 h
  have hb : c ≠ '\\' := by rintro rfl; simp [isAsciiControl] at hcontrol
  have hq : c ≠ '"' := by rintro rfl; simp [isAsciiControl] at hcontrol
  have hescape : escape c = '\\' :: Text.octal3 c.toNat := by
    simp only [decide_eq_true_eq, List.mem_cons, List.not_mem_nil, or_false, not_or] at hletter
    obtain ⟨hn, hr, ht⟩ := hletter
    rw [escape, if_neg hb, if_neg hq, if_neg hn, if_neg hr, if_neg ht, if_pos hcontrol]
  rw [hescape, Text.utf8Size_cons, utf8Size_octal3, utf8Size_of_isAsciiControl hcontrol]
  rfl

/-- Every other character takes less. -/
theorem utf8Size_escape_lt (h : isOctalEscaped c = false) :
    Text.utf8Size (escape c) < 4 * c.utf8Size := by
  by_cases hplain : c ∈ ['\\', '"', '\n', '\r', '\t']
  · simp only [List.mem_cons, List.not_mem_nil, or_false] at hplain
    rcases hplain with rfl | rfl | rfl | rfl | rfl <;> decide
  · have hpos := c.utf8Size_pos
    have hescape : escape c = [c] := by
      simp only [List.mem_cons, List.not_mem_nil, or_false, not_or] at hplain
      obtain ⟨hb, hq, hletter⟩ := hplain
      apply escape_of_printable _ hq hb
      simpa [isOctalEscaped, hletter] using h
    rw [hescape, Text.utf8Size_cons, Text.utf8Size_nil]
    omega

/-- Escapes take at most four bytes for each byte, and so many only where they are octal. -/
theorem utf8Size_escapes (t : Text) :
    Text.utf8Size (t.flatMap escape) ≤ 4 * t.utf8Size ∧
      (Text.utf8Size (t.flatMap escape) = 4 * t.utf8Size ↔ ∀ c ∈ t, isOctalEscaped c = true) := by
  induction t with
  | nil => simp
  | cons c t ih =>
    obtain ⟨hle, hiff⟩ := ih
    rw [List.flatMap_cons, Text.utf8Size_append, Text.utf8Size_cons, List.forall_mem_cons, ← hiff]
    cases hc : isOctalEscaped c with
    | true =>
      have heq := utf8Size_escape_of_isOctalEscaped hc
      simp only [true_and]
      omega
    | false =>
      have hlt := utf8Size_escape_lt hc
      simp only [Bool.false_eq_true, false_and, iff_false]
      omega

/-! ## Statements -/

namespace Statement

open Cpp

theorem quotedSize_literalLines (pieces : List Text) :
    quotedSize .blank (Text.unlines (literalLines pieces)) =
      Text.utf8Size (pieces.flatten.flatMap escape) := by
  have hindent (u : Text) : quotedSize .blank ("        " ++ u) = quotedSize .blank u := by
    rw [quotedSize_append, Text.ofString_ofList]
    exact Nat.zero_add _
  have hclose : quotedSize .blank (";" ++ ['\n']) = 0 := by
    rw [Text.ofString_ofList]
    rfl
  have hnewline (u : Text) : quotedSize .blank ('\n' :: u) = quotedSize .blank u := Nat.zero_add _
  induction pieces with
  | nil => rfl
  | cons piece pieces ih =>
    rw [List.flatten_cons, List.flatMap_append, Text.utf8Size_append, ← ih]
    cases pieces with
    | nil =>
      have hline : Text.unlines (literalLines [piece]) =
          "        " ++ (literal piece ++ (";" ++ ['\n'])) := by
        rw [literalLines, Text.unlines_cons, Text.unlines_nil]
        simp only [List.append_assoc]
      rw [hline, hindent, quotedSize_literal_append, hclose]
      rfl
    | cons next pieces =>
      rw [literalLines, Text.unlines_cons, List.append_assoc, hindent, quotedSize_literal_append,
        hnewline]
      exact List.cons_ne_nil next pieces

/-- Between the quotes of a statement stand the escapes of its pieces. -/
theorem quotedSize_append_lines (stage : Stage) (pieces : List Text) :
    quotedSize .blank (Text.unlines (append stage pieces).lines) =
      Text.utf8Size (pieces.flatten.flatMap escape) := by
  have hopen (u : Text) :
      quotedSize .blank ("    " ++ field stage ++ " +=" ++ '\n' :: u) = quotedSize .blank u := by
    have hline : quotedSize .blank ("    " ++ field stage ++ " +=" ++ ['\n']) = 0 ∧
        (run .blank ("    " ++ field stage ++ " +=" ++ ['\n'])).2 = .blank := by
      cases stage
      all_goals
        rw [field, Stage.keyword]
        repeat rw [Text.ofString_ofList]
        exact ⟨rfl, rfl⟩
    rw [List.append_cons, quotedSize_append, hline.1, hline.2, Nat.zero_add]
  rw [lines, Text.unlines_cons, hopen, quotedSize_literalLines]

end Statement

end Code

namespace Definition

open Code Statement

theorem unlines_statement_isInfix {s : VariantShader} {stage : Stage} {group : List Text}
    (h : group ∈ bodyGroups s stage) (settings : Settings) :
    Text.unlines (append stage group).lines <:+: text s settings := by
  have hgroup : (append stage group).lines <:+:
      (bodyGroups s stage).flatMap fun group => (append stage group).lines := by
    rw [List.flatMap_def]
    apply List.infix_of_mem_flatten
    exact List.mem_map_of_mem h
  exact (Text.unlines_isInfix hgroup).trans (unlines_bodyGroups_isInfix s stage settings)

/-- A body that fits into one statement is one statement. -/
theorem bodyGroups_of_utf8Size_le {s : VariantShader} {stage : Stage}
    (hne : (s.stageText stage).body ≠ [])
    (hsize : Text.utf8Size (s.stageText stage).body.flatten ≤ statementLimit) :
    bodyGroups s stage = [bodyPieces (s.stageText stage).body] := by
  rw [bodyGroups_eq_pack]
  apply Packing.pack_of_total_le (mt bodyPieces_eq_nil_iff.1 hne)
  rwa [Packing.total_eq_sum, ← Text.utf8Size_flatten, flatten_bodyPieces]

end Definition

/-- A statement of the body has at most 65536 bytes between its quotes, for any shader. It has more
    than 65535 exactly if it holds 16384 bytes of the body that are all written in octal digits. -/
theorem quotedSize_statement_gt_iff (s : VariantShader) (stage : Stage) (settings : Settings)
    {group : List Text} (h : group ∈ Definition.bodyGroups s stage) :
    let code := Text.unlines (Code.Statement.append stage group).lines
    code <:+: Definition.text s settings ∧
    Cpp.quotedSize .blank code ≤ 65536 ∧
    (65535 < Cpp.quotedSize .blank code ↔ Text.utf8Size group.flatten = 16384 ∧
      ∀ c ∈ group.flatten, Code.isOctalEscaped c = true) := by
  intro code
  have hraw : Text.utf8Size group.flatten ≤ 16384 := by
    rw [Text.utf8Size_flatten]
    exact (Definition.limits_of_mem_bodyGroups h).2.2
  obtain ⟨hle, hiff⟩ := Code.utf8Size_escapes group.flatten
  have hcode : Cpp.quotedSize .blank code = Text.utf8Size (group.flatten.flatMap Code.escape) :=
    Code.Statement.quotedSize_append_lines stage group
  refine ⟨Definition.unlines_statement_isInfix h settings, ?_, ?_⟩
  · rw [hcode]
    omega
  · rw [hcode, ← hiff]
    omega

/-- A capture whose fragment stage ends in 16384 control characters. -/
def controlCapture : Capture :=
  { vertex := [['v', '\n']], fragment := [['f', '\n'], List.replicate 16384 '\x01'] }

/-- In its shader they are one statement, with one byte too many between its quotes. -/
theorem quotedSize_statement_gt_of_controls :
    ∃ s group, VariantShader.ofCapture "control.glsl" controlCapture = .ok s ∧
      group ∈ Definition.bodyGroups s .fragment ∧
      65535 < Cpp.quotedSize .blank (Text.unlines (Code.Statement.append .fragment group).lines) := by
  have hok : (VariantShader.ofCapture "control.glsl" controlCapture).isOk = true := by
    decide +kernel
  rcases hshader : VariantShader.ofCapture "control.glsl" controlCapture with fault | s
  · rw [hshader] at hok
    exact absurd hok Bool.false_ne_true
  · have hlines := (VariantShader.holds_of_ofCapture hshader).lines_eq .fragment
    have hbody : (s.stageText .fragment).body = [List.replicate 16384 '\x01'] :=
      (List.cons.inj hlines).2.symm
    have hsize : Text.utf8Size (List.replicate 16384 '\x01') = 16384 := Text.utf8Size_replicate _ _
    have hgroups : Definition.bodyGroups s .fragment =
        [Code.Statement.bodyPieces (s.stageText .fragment).body] := by
      apply Definition.bodyGroups_of_utf8Size_le
      · rw [hbody]
        exact List.cons_ne_nil _ _
      · rw [hbody, List.flatten_singleton, hsize]
        rfl
    have hgroup : Code.Statement.bodyPieces (s.stageText .fragment).body ∈
        Definition.bodyGroups s .fragment := by
      rw [hgroups]
      exact List.mem_singleton_self _
    have hflatten : (Code.Statement.bodyPieces (s.stageText .fragment).body).flatten =
        List.replicate 16384 '\x01' := by
      rw [flatten_bodyPieces, hbody, List.flatten_singleton]
    obtain ⟨-, -, hiff⟩ := quotedSize_statement_gt_iff s .fragment {} hgroup
    rw [hflatten] at hiff
    refine ⟨s, _, rfl, hgroup, hiff.2 ⟨hsize, fun c hc => ?_⟩⟩
    rw [List.eq_of_mem_replicate hc]
    decide

/-! ## Literals of all statements -/

namespace Cpp

/-- The value of a token that is a literal. -/
def Token.value? : Token → Option Text
  | literal value => some value
  | _ => none

/-- The values of the literals of a text, if it is all tokens. -/
def literals? (t : Text) : Option (List Text) := (tokens? t).map (·.filterMap Token.value?)

end Cpp

namespace Code.Statement

/-- The texts of the literals of a statement. -/
def texts : Statement → List Text
  | assign _ value | appendIf _ _ value => [value]
  | append _ pieces => pieces

theorem filterMap_value?_tokens (a : Statement) :
    a.tokens.filterMap Cpp.Token.value? = a.texts := by
  cases a with
  | assign | appendIf => rfl
  | append stage pieces =>
    have hpieces : (pieces.map .literal).filterMap Cpp.Token.value? = pieces := by
      rw [List.filterMap_map]
      exact List.filterMap_some
    rw [tokens, List.filterMap_append, List.filterMap_cons_none rfl, List.filterMap_append, hpieces]
    exact List.append_nil pieces

end Code.Statement

namespace Definition

open Code Statement

variable {s : VariantShader}

/-- The texts of the literals of a stage: its prologue, the directives, the pieces of its body. -/
theorem flatMap_texts (s : VariantShader) (stage : Stage) :
    (stageStatements s stage).flatMap texts = (s.stageText stage).prologue ::
      (s.toggles.map (fun t => StageText.define t.symbol ++ ['\n']) ++
        (bodyGroups s stage).flatten) := by
  rw [stageStatements_eq, openingStatements, List.cons_append, List.flatMap_cons,
    List.flatMap_append, List.flatMap_map, List.flatMap_map, List.map_eq_flatMap,
    List.flatten_eq_flatMap]
  rfl

/-- The literals of the function, in their order. -/
theorem literals?_content (h : s.IsSound) : Cpp.literals? (content s) =
    some (Stage.all.flatMap fun stage => (stageStatements s stage).flatMap texts) := by
  have htokens : (functionTokens s).filterMap Cpp.Token.value? = (statements s).flatMap texts := by
    simp only [functionTokens, List.filterMap_cons, Cpp.Token.value?, List.filterMap_append,
      List.filterMap_flatMap, filterMap_value?_tokens, List.filterMap_nil, List.append_nil]
  rw [Cpp.literals?, tokens?_of_spells (spells_content h), Option.map_some, htokens, statements,
    List.flatMap_assoc]

theorem mem_literals_iff {values : List Text} (h : s.IsSound)
    (hvalues : Cpp.literals? (content s) = some values) (value : Text) :
    value ∈ values ↔ ∃ stage, value = (s.stageText stage).prologue ∨
      (∃ t ∈ s.toggles, value = StageText.define t.symbol ++ ['\n']) ∨
      value ∈ (bodyGroups s stage).flatten := by
  rw [literals?_content h, Option.some.injEq] at hvalues
  have hall : ∀ stage : Stage, stage ∈ Stage.all := by
    rintro (_ | _) <;> decide
  simp only [← hvalues, flatMap_texts, List.mem_flatMap, hall, true_and, List.mem_cons,
    List.mem_append, List.mem_map, @eq_comm _ value]

end Definition

theorem utf8Size_define (symbol : Text) :
    Text.utf8Size (StageText.define symbol ++ ['\n']) = symbol.utf8Size + 9 := by
  have hstart : Text.utf8Size "#define " = 8 := by
    rw [Text.ofString_ofList]
    rfl
  have hnewline : Text.utf8Size ['\n'] = 1 := rfl
  rw [StageText.define, Text.utf8Size_append, Text.utf8Size_append, hstart, hnewline]
  omega

/-- Of the literals of a definition, whatever the settings are, only a prologue or the directive of
    a symbol can be longer than 2048 bytes. None is exactly if both prologues keep to that limit and
    each symbol has at most 2039 bytes. -/
theorem literals_utf8Size_le_iff {fileName source : Text} {settings : Settings} {a : Artifacts}
    (hok : (Artifacts.ofSource fileName source settings).result = .ok a) :
    ∃ values, Cpp.literals? (Definition.content a.shader) = some values ∧
      Definition.content a.shader <:+: a.definition ∧
      (∀ value ∈ values, 2048 < value.utf8Size →
        (∃ stage, value = (a.shader.stageText stage).prologue) ∨
          ∃ t ∈ a.shader.toggles, value = StageText.define t.symbol ++ ['\n']) ∧
      ((∀ value ∈ values, value.utf8Size ≤ 2048) ↔
        (∀ stage, (a.shader.stageText stage).prologue.utf8Size ≤ 2048) ∧
          ∀ t ∈ a.shader.toggles, t.symbol.utf8Size ≤ 2039) := by
  obtain ⟨hshader, hfiles⟩ := Artifacts.ofSource_eq_ok hok
  have hsound := VariantShader.isSound_of_ofSource hshader
  have hvalues := Definition.literals?_content hsound
  have hmem := Definition.mem_literals_iff hsound hvalues
  have hpiece : ∀ stage, ∀ piece ∈ (Definition.bodyGroups a.shader stage).flatten,
      piece.utf8Size ≤ 2048 := by
    intro stage piece hpiece
    rw [Definition.flatten_bodyGroups] at hpiece
    exact Code.Statement.utf8Size_le_of_mem_bodyPieces hpiece
  refine ⟨_, hvalues, ?_, ?_, ?_, ?_⟩
  · rw [hfiles]
    exact unlines_isInfix_frameLines settings _ _ _
  · intro value hvalue hlong
    obtain ⟨stage, hprologue | hdirective | hbody⟩ := (hmem value).1 hvalue
    · exact .inl ⟨stage, hprologue⟩
    · exact .inr hdirective
    · exact absurd (hpiece stage value hbody) (Nat.not_le.2 hlong)
  · intro hlimit
    refine ⟨fun stage => hlimit _ ((hmem _).2 ⟨stage, .inl rfl⟩), fun t ht => ?_⟩
    have hdirective := hlimit _ ((hmem _).2 ⟨.vertex, .inr (.inl ⟨t, ht, rfl⟩)⟩)
    rw [utf8Size_define] at hdirective
    omega
  · rintro ⟨hprologue, hsymbol⟩ value hvalue
    obtain ⟨stage, rfl | ⟨t, ht, rfl⟩ | hbody⟩ := (hmem value).1 hvalue
    · exact hprologue stage
    · have hsize := hsymbol t ht
      rw [utf8Size_define]
      omega
    · exact hpiece stage value hbody

/-- A source whose vertex stage begins with a line of 2050 bytes. -/
def longSource : Text :=
  "#shader vertex\n" ++ List.replicate 2049 'a' ++ "\n#shader fragment\nf\n"

/-- Its definition has a literal that is longer than the limit. -/
theorem literals_utf8Size_gt_of_long :
    ∃ a values, (Artifacts.ofSource "long.glsl" longSource {}).result = .ok a ∧
      Cpp.literals? (Definition.content a.shader) = some values ∧
      ∃ value ∈ values, 2048 < value.utf8Size := by
  have hsize : ((Artifacts.ofSource "long.glsl" longSource {}).result.toOption.map
      fun a => a.shader.vertex.prologue.utf8Size) = some 2050 := by
    decide +kernel
  obtain ⟨a, hok, hprologue⟩ := Outcome.exists_of_toOption_map_eq_some hsize
  obtain ⟨values, hvalues, -, -, hiff⟩ := literals_utf8Size_le_iff hok
  refine ⟨a, values, hok, hvalues, by_contra fun hnone => ?_⟩
  have hlimit : ∀ value ∈ values, value.utf8Size ≤ 2048 := fun value hvalue =>
    Nat.not_lt.1 fun hlong => hnone ⟨value, hvalue, hlong⟩
  have hvertex : a.shader.vertex.prologue.utf8Size ≤ 2048 := (hiff.1 hlimit).1 .vertex
  rw [hprologue] at hvertex
  exact absurd hvertex (by decide)

end ShaderVariants
