import ShaderVariants.Proofs.Cpp.Token

/-!
# Spelling

A text spells tokens when the reader finds exactly them in it and has nothing begun
behind it. Texts in a row then spell their tokens in a row, so the tokens of a line
follow from those of its parts: a part is fixed, a name, or a literal.
-/

namespace ShaderVariants.Cpp

variable {t t₁ t₂ w : Text} {o o₁ o₂ : List Token}

/-- The text is these tokens. -/
def Spells (t : Text) (tokens : List Token) : Prop := run .blank t = (tokens, .blank)

/-- The text is one word by itself. -/
def IsWhole (w : Text) : Prop := w ≠ [] ∧ ∀ c ∈ w, isIdentifierPart c = true

/-- The text goes on behind a word as something else. -/
def Ends (t : Text) : Prop := ∃ c u, t = c :: u ∧ isIdentifierPart c = false

theorem Ends.append (h : Ends t₁) (t₂ : Text) : Ends (t₁ ++ t₂) := by
  obtain ⟨c, u, rfl, hc⟩ := h
  exact ⟨c, u ++ t₂, rfl, hc⟩

/-- A fixed word is checked character by character. -/
theorem isWhole_fixed {s : String} (h : s.toList ≠ [] ∧ s.toList.all isIdentifierPart = true) :
    IsWhole s := by
  rw [IsWhole, Text.ofString_eq_toList]
  exact ⟨h.1, List.all_eq_true.1 h.2⟩

theorem ends_fixed {s : String} {c : Char} {u : Text} (h : s.toList = c :: u)
    (hc : isIdentifierPart c = false) : Ends s := by
  rw [Text.ofString_eq_toList]
  exact ⟨c, u, h, hc⟩

theorem IsWhole.append (h₁ : IsWhole t₁) (h₂ : ∀ c ∈ t₂, isIdentifierPart c = true) :
    IsWhole (t₁ ++ t₂) := by
  refine ⟨fun h => h₁.1 (List.append_eq_nil_iff.1 h).1, fun c hc => ?_⟩
  rcases List.mem_append.1 hc with hc | hc
  · exact h₁.2 c hc
  · exact h₂ c hc

/-- A token that ends at the next character stands in front of the tokens from there on. -/
theorem run_of_step_ends {s : LexState} {token : Token} {c : Char} {u : Text}
    (hstep : step s c = (token :: (start c).1, (start c).2)) (h : Spells (c :: u) o) :
    run s (c :: u) = (token :: o, .blank) := by
  rw [Spells, run] at h
  rw [run, hstep]
  obtain ⟨hfirst, hlast⟩ := Prod.mk.inj h
  refine Prod.ext ?_ hlast
  exact congrArg (token :: ·) hfirst

namespace Spells

theorem nil : Spells [] [] := rfl

theorem newline : Spells ['\n'] [] := rfl

theorem append (h₁ : Spells t₁ o₁) (h₂ : Spells t₂ o₂) : Spells (t₁ ++ t₂) (o₁ ++ o₂) :=
  run_append h₁ h₂

/-- A word ends where the text behind it goes on as something else. -/
theorem word (hw : IsWhole w) (ht : Ends t) (h : Spells t o) : Spells (w ++ t) (.word w :: o) := by
  obtain ⟨c, u, rfl, hc⟩ := ht
  have hstep : step (.word w) c = (.word w :: (start c).1, (start c).2) := by
    rw [step, if_neg (by rw [hc]; exact Bool.false_ne_true)]
  exact run_append (run_blank_word hw.1 hw.2) (run_of_step_ends hstep h)

/-- The mark between the parts of a path ends where a word begins. -/
theorem scope (ht : ∃ c u, t = c :: u ∧ isIdentifierPart c = true) (h : Spells t o) :
    Spells (':' :: ':' :: t) (.mark "::" :: o) := by
  obtain ⟨c, u, rfl, hc⟩ := ht
  have hoperator : isOperatorChar c = false := by
    rw [Bool.eq_false_iff]
    intro h
    simp only [isOperatorChar, Bool.or_eq_true, beq_iff_eq] at h
    rcases h with (((((rfl | rfl) | rfl) | rfl) | rfl) | rfl) | rfl
    all_goals exact absurd hc (by decide)
  have hstep : step (.operator [':', ':']) c = (.mark "::" :: (start c).1, (start c).2) := by
    rw [step, if_neg (by rw [hoperator]; exact Bool.false_ne_true), Text.ofString_eq_toList]
    rfl
  have hcolons : run .blank [':', ':'] = ([], .operator [':', ':']) := rfl
  exact run_append hcolons (run_of_step_ends hstep h)

theorem spaces {s : String} (h : s.toList.all (· == ' ') = true) : Spells s [] := by
  rw [Text.ofString_eq_toList]
  generalize s.toList = t at h ⊢
  induction t with
  | nil => exact nil
  | cons c t ih =>
    obtain ⟨hc, ht⟩ := Bool.and_eq_true_iff.1 h
    obtain rfl : c = ' ' := eq_of_beq hc
    have hspace : Spells [' '] [] := rfl
    exact hspace.append (ih ht)

theorem literal (value : Text) : Spells (Code.literal value) [.literal value] :=
  run_literal value

/-- A directive or a comment to the end of its line spells nothing. -/
theorem skipped (hopen : run .blank t₁ = ([], .skip)) (hline : '\n' ∉ t₂)
    (hlast : t₂.getLast? ≠ some '\\') : Spells (t₁ ++ t₂ ++ ['\n']) [] := by
  rw [List.append_assoc]
  exact run_append hopen (run_skip_line hline hlast)

/-- A comment that its last characters close spells nothing. -/
theorem comment (hopen : run .blank t₁ = ([], .comment .block))
    (hbody : ¬closeMark <:+: t₂ ++ ['*']) : Spells (t₁ ++ (t₂ ++ closeMark)) [] :=
  run_append hopen (run_comment_closeMark hbody)

/-- The tokens of lines are those of each line. -/
theorem unlines {α : Type} {l : List α} {lines : α → List Text} {tokens : α → List Token}
    (h : ∀ a ∈ l, Spells (Text.unlines (lines a)) (tokens a)) :
    Spells (Text.unlines (l.flatMap lines)) (l.flatMap tokens) := by
  induction l with
  | nil => exact nil
  | cons a l ih =>
    rw [List.flatMap_cons, List.flatMap_cons, Text.unlines_append]
    exact (h a List.mem_cons_self).append (ih fun b hb => h b (List.mem_cons_of_mem a hb))

end Spells

end ShaderVariants.Cpp
