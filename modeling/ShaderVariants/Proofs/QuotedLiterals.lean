import ShaderVariants.Proofs.Generated.Lines
import ShaderVariants.Proofs.Lines

/-!
# Literals between their quotes

A literal ends at its own closing quote, whatever stands behind it, so it can be read at
the start of any text. A text of several literals is measured by what stands between their
quotes, which for each of them is its text with the escapes.
-/

namespace ShaderVariants

namespace Cpp

variable {s next : LexState} {t u : Text}

/-! ## Reading a literal at the start of a text -/

/-- Reads on in a literal up to its closing quote: the value, and the text behind the literal. -/
def literalRest? (s : LexState) : Text → Option (Text × Text)
  | [] => none
  | c :: t =>
    match step s c with
    | ([], next) => literalRest? next t
    | (.literal value :: _, _) => some (value, t)
    | _ => none

/-- Reads a literal at the start of a text: its value, and the text behind it. -/
def literal? : Text → Option (Text × Text)
  | '"' :: t => literalRest? (.literal []) t
  | _ => none

/-- An octal escape takes up to three digits, and no more. -/
example : literal? ['"', '\\', '6', '1', '\\', '0', '6', '1', '1', '"', ';'] =
    some (['1', '1', '1'], [';']) := by decide

theorem literalRest?_append (h : run s t = ([], next)) (u : Text) :
    literalRest? s (t ++ u) = literalRest? next u := by
  induction t generalizing s with
  | nil =>
    obtain rfl := congrArg Prod.snd h
    rfl
  | cons c t ih =>
    rw [run, Prod.mk.injEq, List.append_eq_nil_iff] at h
    obtain ⟨⟨hfirst, hrest⟩, hnext⟩ := h
    have hstep : step s c = ([], (step s c).2) := Prod.ext hfirst rfl
    rw [List.cons_append, literalRest?, hstep]
    exact ih (Prod.ext hrest hnext)

/-! ## Bytes between quotes -/

/-- The reader is between the quotes of a literal. -/
def LexState.isQuoted : LexState → Bool
  | literal _ | escape _ | octal .. => true
  | _ => false

/-- The bytes of a text that stand between the quotes of its literals. -/
def quotedSize (s : LexState) : Text → Nat
  | [] => 0
  | c :: t =>
    let next := (step s c).2
    (if s.isQuoted && next.isQuoted then c.utf8Size else 0) + quotedSize next t

theorem quotedSize_append (s : LexState) (t u : Text) :
    quotedSize s (t ++ u) = quotedSize s t + quotedSize (run s t).2 u := by
  induction t generalizing s with
  | nil => exact (Nat.zero_add _).symm
  | cons c t ih => rw [List.cons_append, quotedSize, quotedSize, run, ih, Nat.add_assoc]

theorem run_broken (t : Text) : run .broken t = ([], .broken) := by
  induction t with
  | nil => rfl
  | cons c t ih => exact run_cons rfl ih

theorem isQuoted_literalStep (value : Text) (c : Char) :
    (literalStep value c).1 ≠ [] ∨ (literalStep value c).2.isQuoted ∨
      (literalStep value c).2 = .broken := by
  unfold literalStep
  split_ifs <;> simp [LexState.isQuoted]

/-- A reader leaves a literal with the literal as a token, or for good. -/
theorem isQuoted_step (h : s.isQuoted) (c : Char) :
    (step s c).1 ≠ [] ∨ (step s c).2.isQuoted ∨ (step s c).2 = .broken := by
  cases s with
  | literal value => exact isQuoted_literalStep value c
  | escape value =>
    simp only [step]
    split_ifs
    · exact .inr (.inl rfl)
    · split
      · exact .inr (.inl rfl)
      · exact .inr (.inr rfl)
  | octal value more code =>
    simp only [step]
    split_ifs
    · exact .inr (.inl rfl)
    · exact isQuoted_literalStep _ c
    · exact .inr (.inr rfl)
  | _ => exact absurd h Bool.false_ne_true

/-- All of a text that stays in a literal stands between quotes. -/
theorem quotedSize_of_run (hs : s.isQuoted) (h : run s t = ([], next)) (hnext : next.isQuoted) :
    quotedSize s t = t.utf8Size := by
  induction t generalizing s with
  | nil => rfl
  | cons c t ih =>
    rw [run, Prod.mk.injEq, List.append_eq_nil_iff] at h
    obtain ⟨⟨hfirst, hrest⟩, hlast⟩ := h
    have hrun : run (step s c).2 t = ([], next) := Prod.ext hrest hlast
    rcases isQuoted_step hs c with hne | hquoted | hbroken
    · exact absurd hfirst hne
    · rw [quotedSize, Text.utf8Size_cons, ih hquoted hrun]
      simp only [hs, hquoted, Bool.and_self, if_true]
    · rw [hbroken, run_broken] at hrun
      obtain rfl := congrArg Prod.snd hrun
      exact absurd hnext Bool.false_ne_true

theorem InLiteral.isQuoted {value : Text} (h : InLiteral value s) : s.isQuoted := by
  cases s with
  | literal | octal => rfl
  | _ => exact h.elim

theorem literal_append (t u : Text) :
    Code.literal t ++ u = '"' :: (t.flatMap Code.escape ++ '"' :: u) := by
  rw [Code.literal, List.cons_append, List.cons_append, List.append_assoc, List.singleton_append]

/-- Between the quotes of a literal stand the escapes of its text. -/
theorem quotedSize_literal_append (t u : Text) :
    quotedSize .blank (Code.literal t ++ u) =
      Text.utf8Size (t.flatMap Code.escape) + quotedSize .blank u := by
  obtain ⟨s, hrun, h⟩ := run_escapes (s := .literal []) rfl t
  have hopen : quotedSize .blank ('"' :: (t.flatMap Code.escape ++ '"' :: u)) =
      quotedSize (.literal []) (t.flatMap Code.escape ++ '"' :: u) := Nat.zero_add _
  have hclose : quotedSize s ('"' :: u) = quotedSize .blank u := by
    rw [quotedSize, step_quote h]
    simp [LexState.isQuoted]
  rw [literal_append, hopen, quotedSize_append, hrun, quotedSize_of_run rfl hrun h.isQuoted, hclose]

end Cpp

/-- In front of any text, the literal of a text is read as that text and ends where the other text
    begins. It has no control character of ASCII, so it is one line. -/
theorem literal?_literal_append (t rest : Text) :
    Cpp.literal? (Code.literal t ++ rest) = some (t, rest) ∧
      (∀ c ∈ Code.literal t, isAsciiControl c = false) ∧
      (Code.literal t).lines = [Code.literal t] := by
  refine ⟨?_, fun _ => Code.isAsciiControl_of_mem_literal, ?_⟩
  · obtain ⟨s, hrun, h⟩ := Cpp.run_escapes (s := .literal []) rfl t
    have hclose : Cpp.literalRest? s ('"' :: rest) = some (t, rest) := by
      rw [Cpp.literalRest?, Cpp.step_quote h]
      rfl
    rw [Cpp.literal_append, Cpp.literal?, Cpp.literalRest?_append hrun, hclose]
  · apply Text.lines_of_isOpen
    refine ⟨List.cons_ne_nil _ _, ?_⟩
    exact (Code.lacks_literal t).newline_notMem

end ShaderVariants
