import ShaderVariants.Code.Statement
import ShaderVariants.Proofs.Generated.Members

/-!
# Statements as C++

Each statement of the function is a statement of C++, whose literals hold the text that
it was made for: several literals in a row are one.
-/

namespace ShaderVariants.Code.Statement

open Cpp

variable {accessor value : Text} {stage : Stage} {pieces : List Text} {s : Statement}
  {rest : List Token}

/-- The tokens of the field of a stage. -/
def fieldTokens (stage : Stage) : List Token := [.word "sources", .mark ".", .word stage.keyword]

def tokens : Statement → List Token
  | assign stage value => fieldTokens stage ++ [.mark "=", .literal value, .mark ";"]
  | appendIf accessor stage value =>
    [.word "if", .mark "(", .word (Member.getterName accessor), .mark "(", .mark ")", .mark ")",
      .mark "\x7b"] ++ fieldTokens stage ++
      [.mark "+=", .literal value, .mark ";", .mark "\x7d"]
  | append stage pieces =>
    fieldTokens stage ++ .mark "+=" :: (pieces.map .literal ++ [.mark ";"])

def asCpp : Statement → Stmt
  | assign stage value => .assign ⟨["sources", stage.keyword], .set, .text value⟩
  | appendIf accessor stage value =>
    .branch (.call (Member.getterName accessor))
      ⟨["sources", stage.keyword], .append, .text value⟩ none
  | append stage pieces =>
    .assign ⟨["sources", stage.keyword], .append, .text pieces.flatten⟩

/-- The accessor is a name of C++, and there is a literal to append. -/
def IsSound : Statement → Prop
  | assign .. => True
  | appendIf accessor .. => IsWhole accessor
  | append _ pieces => pieces ≠ []

/-! ## Spelling -/

theorem spells_semicolon : Spells (";" ++ ['\n']) [.mark ";"] := by
  repeat rw [Text.ofString_ofList]
  exact (rfl : run _ _ = _)

theorem spells_field (stage : Stage) {t : Text} {o : List Token} (ht : Ends t) (h : Spells t o) :
    Spells (field stage ++ t) (fieldTokens stage ++ o) := by
  have hopen : Spells "sources." [.word "sources", .mark "."] := by
    rw [Text.ofString_ofList, Text.ofString_ofList, Text.ofString_ofList]
    exact (rfl : run _ _ = _)
  have hkeyword : IsWhole stage.keyword := by
    cases stage
    all_goals exact isWhole_fixed (by decide)
  rw [field, List.append_assoc]
  exact hopen.append (h.word hkeyword ht)

theorem spells_assign (stage : Stage) (value : Text) :
    Spells (Text.unlines (assign stage value).lines) (assign stage value).tokens := by
  have hindent : Spells "    " [] := Spells.spaces (by decide)
  have hset : Spells " = " [.mark "="] := by
    repeat rw [Text.ofString_ofList]
    exact (rfl : run _ _ = _)
  have hfield := spells_field stage ((ends_fixed rfl rfl).append _)
    (hset.append ((Spells.literal value).append spells_semicolon))
  simpa only [lines, tokens, Text.unlines_cons, Text.unlines_nil, List.append_assoc,
    List.cons_append, List.nil_append] using hindent.append hfield

theorem spells_appendIf (haccessor : IsWhole accessor) (stage : Stage) (value : Text) :
    Spells (Text.unlines (appendIf accessor stage value).lines)
      (appendIf accessor stage value).tokens := by
  have hcut : ("    if (Get" : Text) = "    if (" ++ "Get" := by
    repeat rw [Text.ofString_ofList]
    rfl
  have hopen : Spells "    if (" [.word "if", .mark "("] := by
    repeat rw [Text.ofString_ofList]
    exact (rfl : run _ _ = _)
  have hcall : Spells ("()) \x7b" ++ ['\n']) [.mark "(", .mark ")", .mark ")", .mark "\x7b"] := by
    repeat rw [Text.ofString_ofList]
    exact (rfl : run _ _ = _)
  have hindent : Spells "        " [] := Spells.spaces (by decide)
  have happend : Spells " += " [.mark "+="] := by
    repeat rw [Text.ofString_ofList]
    exact (rfl : run _ _ = _)
  have hclose : Spells (";" ++ '\n' :: ("    \x7d" ++ ['\n'])) [.mark ";", .mark "\x7d"] := by
    repeat rw [Text.ofString_ofList]
    exact (rfl : run _ _ = _)
  have hfield := spells_field stage ((ends_fixed rfl rfl).append _)
    (happend.append ((Spells.literal value).append hclose))
  have hbody := hcall.append (hindent.append hfield)
  have hname := hbody.word (Member.isWhole_getterName haccessor)
    (((ends_fixed rfl rfl).append _).append _)
  simpa only [lines, tokens, hcut, Member.getterName, Text.unlines_cons, Text.unlines_nil,
    List.append_assoc, List.cons_append, List.nil_append] using hopen.append hname

theorem spells_literalLines (h : pieces ≠ []) :
    Spells (Text.unlines (literalLines pieces)) (pieces.map .literal ++ [.mark ";"]) := by
  induction pieces with
  | nil => exact absurd rfl h
  | cons piece pieces ih =>
    have hindent : Spells "        " [] := Spells.spaces (by decide)
    have hpiece := hindent.append (Spells.literal piece)
    cases pieces with
    | nil =>
      simpa only [literalLines, Text.unlines_cons, Text.unlines_nil, List.map_cons, List.map_nil,
        List.append_assoc, List.cons_append, List.nil_append] using hpiece.append spells_semicolon
    | cons next pieces =>
      simpa only [literalLines, Text.unlines_cons, List.map_cons, List.append_assoc,
        List.cons_append, List.nil_append] using
        hpiece.append (Spells.newline.append (ih (List.cons_ne_nil next pieces)))

theorem spells_append (stage : Stage) (h : pieces ≠ []) :
    Spells (Text.unlines (append stage pieces).lines) (append stage pieces).tokens := by
  have hindent : Spells "    " [] := Spells.spaces (by decide)
  have happend : Spells (" +=" ++ ['\n']) [.mark "+="] := by
    repeat rw [Text.ofString_ofList]
    exact (rfl : run _ _ = _)
  have hfield := spells_field stage (((ends_fixed rfl rfl).append _).append _)
    (happend.append (spells_literalLines h))
  simpa only [lines, tokens, Text.unlines_cons, List.append_assoc, List.cons_append,
    List.nil_append] using hindent.append hfield

theorem IsSound.spells (h : s.IsSound) : Spells (Text.unlines s.lines) s.tokens := by
  cases s with
  | assign stage value => exact spells_assign stage value
  | appendIf accessor stage value => exact spells_appendIf h stage value
  | append stage pieces => exact spells_append stage h

/-! ## Reading -/

theorem isPlain_sources : Reader.IsPlain "sources" := by
  simp [Reader.IsPlain]

/-- Literals in a row are one text. -/
theorem expr_literals (value : Text) (pieces : List Text) (rest : List Token) :
    Reader.expr ((value :: pieces).map .literal ++ .mark ";" :: rest) =
      some (.text (value :: pieces).flatten, .mark ";" :: rest) :=
  Reader.binary_of_part ((Reader.factor_literal value).trans (Reader.operand_text value pieces))
    (by simp [Operator.ofMark?])

theorem assignment_append (stage : Stage) (value : Text) (pieces : List Text)
    (rest : List Token) :
    Reader.assignment (fieldTokens stage ++ .mark "+=" ::
      ((value :: pieces).map .literal ++ .mark ";" :: rest)) =
        some (⟨["sources", stage.keyword], .append, .text (value :: pieces).flatten⟩, rest) :=
  Reader.assignment_of (Reader.target_field stage.keyword) (by simp [AssignOp.ofMark?])
    (expr_literals value pieces rest)

theorem reads_assign (stage : Stage) (value : Text) (rest : List Token) :
    Reader.stmt ((assign stage value).tokens ++ rest) =
      some ((assign stage value).asCpp, rest) := by
  have hvalue := expr_literals value [] rest
  rw [List.flatten_singleton] at hvalue
  exact Reader.stmt_assign isPlain_sources (Reader.assignment_of
    (Reader.target_field stage.keyword) (by simp [AssignOp.ofMark?]) hvalue)

theorem reads_appendIf (accessor : Text) (stage : Stage) (value : Text)
    (hrest : Reader.keyword "else" rest = none) :
    Reader.stmt ((appendIf accessor stage value).tokens ++ rest) =
      some ((appendIf accessor stage value).asCpp, rest) := by
  have hname := Member.isName_getterName accessor
  have happend := assignment_append stage value [] (.mark "\x7d" :: rest)
  rw [List.flatten_singleton] at happend
  exact Reader.stmt_branch
    (Reader.expr_of_word (Reader.operand_call hname) (by simp [Operator.ofMark?]))
    (Reader.block_of happend) hrest

theorem reads_append (stage : Stage) (h : pieces ≠ []) (rest : List Token) :
    Reader.stmt ((append stage pieces).tokens ++ rest) =
      some ((append stage pieces).asCpp, rest) := by
  obtain ⟨value, pieces, rfl⟩ := List.exists_cons_of_ne_nil h
  simp only [tokens, List.append_assoc, List.cons_append, List.nil_append]
  exact Reader.stmt_assign isPlain_sources (assignment_append stage value pieces rest)

theorem IsSound.reads (h : s.IsSound) (hrest : Reader.keyword "else" rest = none) :
    Reader.stmt (s.tokens ++ rest) = some (s.asCpp, rest) := by
  cases s with
  | assign stage value => exact reads_assign stage value rest
  | appendIf accessor stage value => exact reads_appendIf accessor stage value hrest
  | append stage pieces => exact reads_append stage h rest

/-- A statement begins with a word, and not with `else`. -/
theorem opens (s : Statement) (rest : List Token) :
    Reader.mark "\x7d" (s.tokens ++ rest) = none ∧
      Reader.keyword "else" (s.tokens ++ rest) = none := by
  cases s <;> simp [tokens, fieldTokens]

end ShaderVariants.Code.Statement
