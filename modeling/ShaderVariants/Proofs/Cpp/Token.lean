import ShaderVariants.Code.Literal
import ShaderVariants.Identifier
import ShaderVariants.Proofs.Cpp.Comments

/-!
# Tokens of C++ text

A reader goes through a text character by character and keeps what it has begun:
a word, an operator, a comment, a string literal. It is a state machine, so the
tokens of two texts in a row are those of the first and then those of the second,
read from where the first one ended. A literal is read to its value. Directives
and comments say nothing of what the code does: a directive and a comment behind
`//` are skipped to the end of the line, a comment behind `/*` to its first `*/`.
-/

namespace ShaderVariants.Cpp

inductive Token where
  /-- A name, a keyword or a number. -/
  | word (w : Text)
  | mark (m : Text)
  /-- A string literal, by its value. -/
  | literal (value : Text)
deriving DecidableEq, Repr

/-- The character is part of an operator. -/
def isOperatorChar (c : Char) : Bool :=
  c == '+' || c == '|' || c == '&' || c == '!' || c == '<' || c == '=' || c == ':'

/-- The character is a mark by itself. -/
def isSingleMark (c : Char) : Bool :=
  c == '{' || c == '}' || c == '(' || c == ')' || c == ';' || c == '.' || c == '~'

def isOctalDigit (c : Char) : Bool := 48 ≤ c.toNat && c.toNat < 56

/-- The character that a simple escape stands for. -/
def simpleEscape? (c : Char) : Option Char :=
  if c = '\\' then some '\\'
  else if c = '"' then some '"'
  else if c = '\'' then some '\''
  else if c = '?' then some '?'
  else if c = 'n' then some '\n'
  else if c = 'r' then some '\r'
  else if c = 't' then some '\t'
  else if c = 'a' then some '\x07'
  else if c = 'b' then some '\x08'
  else if c = 'f' then some '\x0c'
  else if c = 'v' then some '\x0b'
  else none

/-- What the reader has begun and not ended. -/
inductive LexState where
  | blank
  | word (w : Text)
  | operator (m : Text)
  | slash
  /-- In a directive or a comment, up to the end of the line. -/
  | skip
  /-- The same behind a backslash, which joins the next line to this one. -/
  | splice
  /-- In a comment up to the mark that closes it. -/
  | comment (place : Comment.Place)
  | literal (value : Text)
  | escape (value : Text)
  /-- In an octal escape that stands for `code` so far and may take `more` digits. -/
  | octal (value : Text) (more code : Nat)
  | broken
deriving DecidableEq, Repr

/-- The step from a place where nothing is begun. -/
def start (c : Char) : List Token × LexState :=
  if isIdentifierPart c then ([], .word [c])
  else if isOperatorChar c then ([], .operator [c])
  else if isSingleMark c then ([.mark [c]], .blank)
  else if c = '"' then ([], .literal [])
  else if c = '/' then ([], .slash)
  else if c = '#' then ([], .skip)
  else if c = ' ' ∨ c = '\n' then ([], .blank)
  else ([], .broken)

/-- The step within a literal. -/
def literalStep (value : Text) (c : Char) : List Token × LexState :=
  if c = '"' then ([.literal value], .blank)
  else if c = '\\' then ([], .escape value)
  else if c = '\n' then ([], .broken)
  else ([], .literal (value ++ [c]))

/-- The step within a comment that a mark closes. -/
def commentStep (place : Comment.Place) (c : Char) : LexState :=
  match (Comment.step place c).2 with
  | .code => .blank
  | next => .comment next

/-- One character: the tokens that it ends and what is begun behind it. An octal escape is a
    character of ASCII or else no character by itself. -/
def step : LexState → Char → List Token × LexState
  | .blank, c => start c
  | .word w, c =>
    if isIdentifierPart c then ([], .word (w ++ [c])) else (.word w :: (start c).1, (start c).2)
  | .operator m, c =>
    if isOperatorChar c then ([], .operator (m ++ [c])) else (.mark m :: (start c).1, (start c).2)
  | .slash, c =>
    if c = '/' then ([], .skip) else if c = '*' then ([], .comment .block) else ([], .broken)
  | .skip, c => if c = '\n' then ([], .blank) else if c = '\\' then ([], .splice) else ([], .skip)
  | .splice, c => if c = '\\' then ([], .splice) else ([], .skip)
  | .comment place, c => ([], commentStep place c)
  | .literal value, c => literalStep value c
  | .escape value, c =>
    if isOctalDigit c then ([], .octal value 2 (c.toNat - 48))
    else
      match simpleEscape? c with
      | some v => ([], .literal (value ++ [v]))
      | none => ([], .broken)
  | .octal value more code, c =>
    if more ≠ 0 ∧ isOctalDigit c then ([], .octal value (more - 1) (8 * code + (c.toNat - 48)))
    else if code < 128 then literalStep (value ++ [Char.ofNat code]) c
    else ([], .broken)
  | .broken, _ => ([], .broken)

/-- The tokens that a text ends, and what is begun behind it. -/
def run (s : LexState) : Text → List Token × LexState
  | [] => ([], s)
  | c :: t => ((step s c).1 ++ (run (step s c).2 t).1, (run (step s c).2 t).2)

/-- The tokens of a text, if it is all tokens. -/
def tokens? (t : Text) : Option (List Token) :=
  match run .blank (t ++ ['\n']) with
  | (tokens, .blank) => some tokens
  | _ => none

/-! ## Runs -/

variable {s s₁ s₂ : LexState} {t t₁ t₂ : Text} {o₁ o₂ : List Token}

theorem run_cons {c : Char} (h₁ : step s c = (o₁, s₁)) (h₂ : run s₁ t = (o₂, s₂)) :
    run s (c :: t) = (o₁ ++ o₂, s₂) := by
  rw [run, h₁, h₂]

theorem run_append (h₁ : run s t₁ = (o₁, s₁)) (h₂ : run s₁ t₂ = (o₂, s₂)) :
    run s (t₁ ++ t₂) = (o₁ ++ o₂, s₂) := by
  induction t₁ generalizing s o₁ with
  | nil =>
    rw [run, Prod.mk.injEq] at h₁
    obtain ⟨rfl, rfl⟩ := h₁
    exact h₂
  | cons c t₁ ih =>
    rw [run, Prod.mk.injEq] at h₁
    obtain ⟨rfl, hs⟩ := h₁
    rw [List.cons_append, run, ih (Prod.ext rfl hs), List.append_assoc]

/-- A word goes on as long as its characters do. -/
theorem run_word {u w : Text} (hw : ∀ c ∈ w, isIdentifierPart c = true) :
    run (.word u) w = ([], .word (u ++ w)) := by
  induction w generalizing u with
  | nil => rw [run, List.append_nil]
  | cons c w ih =>
    have hc : step (.word u) c = ([], .word (u ++ [c])) := by
      rw [step, if_pos (hw c List.mem_cons_self)]
    rw [run, hc, ih fun d hd => hw d (List.mem_cons_of_mem c hd), List.append_assoc]
    rfl

/-- A word begins where nothing is begun. -/
theorem run_blank_word {w : Text} (hne : w ≠ []) (hw : ∀ c ∈ w, isIdentifierPart c = true) :
    run .blank w = ([], .word w) := by
  obtain ⟨c, w, rfl⟩ := List.exists_cons_of_ne_nil hne
  have hc : step .blank c = ([], .word [c]) := by
    rw [step, start, if_pos (hw c List.mem_cons_self)]
  exact run_cons hc (run_word fun d hd => hw d (List.mem_cons_of_mem c hd))

theorem run_skip (hs : s = .skip ∨ s = .splice) (ht : '\n' ∉ t) :
    run s t = ([], .skip) ∨ run s t = ([], .splice) := by
  induction t generalizing s with
  | nil => rcases hs with rfl | rfl <;> simp [run]
  | cons c t ih =>
    have hc : c ≠ '\n' := fun h => ht (h ▸ List.mem_cons_self)
    have hstep : step s c = ([], .skip) ∨ step s c = ([], .splice) := by
      by_cases hb : c = '\\' <;> rcases hs with rfl | rfl <;> simp [step, hc, hb]
    have hrest := fun s' hs' => ih (s := s') hs' fun h => ht (List.mem_cons_of_mem c h)
    rcases hstep with h | h
    · exact (hrest .skip (.inl rfl)).imp (run_cons h) (run_cons h)
    · exact (hrest .splice (.inr rfl)).imp (run_cons h) (run_cons h)

/-- What is skipped ends with its line, unless a backslash joins the next line to it. -/
theorem run_skip_line (ht : '\n' ∉ t) (hlast : t.getLast? ≠ some '\\') :
    run .skip (t ++ ['\n']) = ([], .blank) := by
  rcases List.eq_nil_or_concat t with rfl | ⟨u, c, rfl⟩
  · rfl
  · rw [List.concat_eq_append] at ht hlast ⊢
    have hc : c ≠ '\\' := fun h => hlast (by simp [h])
    have hn : c ≠ '\n' := fun h => ht (by simp [h])
    have hu : '\n' ∉ u := fun h => ht (List.mem_append_left _ h)
    have hend : ∀ s', s' = .skip ∨ s' = .splice → run s' [c, '\n'] = ([], .blank) := by
      rintro s' (rfl | rfl) <;> simp [run, step, hc, hn]
    rw [List.append_assoc]
    rcases run_skip (.inl rfl) hu with h | h
    · exact run_append h (hend _ (.inl rfl))
    · exact run_append h (hend _ (.inr rfl))

/-! ## Comments -/

/-- Within a comment the reader of tokens goes where the reader of comments goes. -/
theorem run_comment {p : Comment.Place}
    (h : ∀ u, u <+: t → Comment.InBlock (Comment.run p u).2) :
    run (.comment p) t = ([], .comment (Comment.run p t).2) := by
  induction t generalizing p with
  | nil => rfl
  | cons c t ih =>
    have hnext : Comment.InBlock (Comment.step p c).2 := h [c] (List.prefix_append [c] t)
    have hstep : step (.comment p) c = ([], .comment (Comment.step p c).2) := by
      rw [step, commentStep]
      rcases hnext with heq | heq <;> rw [heq]
    refine run_cons hstep (ih fun u hu => ?_)
    exact h (c :: u) (List.cons_prefix_cons.2 ⟨rfl, hu⟩)

/-- The first mark closes the comment. -/
theorem run_comment_closeMark (h : ¬closeMark <:+: t ++ ['*']) :
    run (.comment .block) (t ++ closeMark) = ([], .blank) := by
  have hbegun : ∀ u, u <+: t → Comment.InBlock (Comment.run .block u).2 := by
    intro u hu
    have hmark : ¬closeMark <:+: u := fun hmark =>
      h (hmark.trans (hu.trans (List.prefix_append t ['*'])).isInfix)
    obtain ⟨p, hp, hrun⟩ := Comment.run_inBlock (.inl rfl) nofun hmark
    rw [hrun]
    exact hp
  have hclose : run (.comment (Comment.run .block t).2) closeMark = ([], .blank) := by
    rcases hbegun t List.prefix_rfl with heq | heq <;> rw [heq] <;> rfl
  exact run_append (run_comment hbegun) hclose

/-! ## Literals -/

/-- The reader is in a literal that has this value so far. -/
def InLiteral (value : Text) : LexState → Prop
  | .literal v => v = value
  | .octal v more code => more = 0 ∧ code < 128 ∧ v ++ [Char.ofNat code] = value
  | _ => False

theorem step_of_inLiteral {value : Text} (h : InLiteral value s) (c : Char) :
    step s c = literalStep value c := by
  cases s with
  | literal v =>
    obtain rfl : v = value := h
    rfl
  | octal v more code =>
    obtain ⟨rfl, hcode, rfl⟩ := h
    simp [step, hcode]
  | _ => exact h.elim

theorem step_backslash {value : Text} (h : InLiteral value s) :
    step s '\\' = ([], .escape value) := by
  rw [step_of_inLiteral h]
  rfl

theorem step_quote {value : Text} (h : InLiteral value s) :
    step s '"' = ([.literal value], .blank) := by
  rw [step_of_inLiteral h]
  rfl

/-- A backslash and a letter stand for one character. -/
theorem run_simple_escape {value : Text} (h : InLiteral value s) {c v : Char}
    (ho : isOctalDigit c = false) (hv : simpleEscape? c = some v) :
    run s ['\\', c] = ([], .literal (value ++ [v])) := by
  have hc : step (.escape value) c = ([], .literal (value ++ [v])) := by
    simp [step, ho, hv]
  exact run_cons (step_backslash h) (run_cons hc rfl)

theorem octal_digitChar {n : Nat} (h : n < 8) :
    isOctalDigit n.digitChar = true ∧ n.digitChar.toNat - 48 = n := by
  revert n
  decide

/-- An octal digit that an escape takes. -/
theorem step_octal_digit (value : Text) (more code : Nat) {n : Nat} (hn : n < 8) :
    step (.octal value (more + 1) code) n.digitChar = ([], .octal value more (8 * code + n)) := by
  obtain ⟨hdigit, hvalue⟩ := octal_digitChar hn
  rw [step, if_pos ⟨Nat.succ_ne_zero more, hdigit⟩, hvalue, Nat.add_sub_cancel]

/-- Three octal digits stand for the character with that number. -/
theorem run_octal_escape {value : Text} (h : InLiteral value s) {n : Nat} (hn : n < 128) :
    run s ('\\' :: Text.octal3 n) = ([], .octal value 0 n) := by
  have h₁ : n / 64 % 8 < 8 := Nat.mod_lt _ (by decide)
  have h₂ : n / 8 % 8 < 8 := Nat.mod_lt _ (by decide)
  have h₃ : n % 8 < 8 := Nat.mod_lt _ (by decide)
  have hcode : 8 * (8 * (n / 64 % 8) + n / 8 % 8) + n % 8 = n := by omega
  have hfirst : step (.escape value) (n / 64 % 8).digitChar =
      ([], .octal value 2 (n / 64 % 8)) := by
    obtain ⟨hdigit, hvalue⟩ := octal_digitChar h₁
    rw [step, if_pos hdigit, hvalue]
  have hlast := step_octal_digit value 0 (8 * (n / 64 % 8) + n / 8 % 8) h₃
  rw [hcode] at hlast
  exact run_cons (step_backslash h) (run_cons hfirst
    (run_cons (step_octal_digit value 1 _ h₂) (run_cons hlast rfl)))

/-- An escaped character adds itself to the value. -/
theorem run_escape {value : Text} (h : InLiteral value s) (c : Char) :
    ∃ s', run s (Code.escape c) = ([], s') ∧ InLiteral (value ++ [c]) s' := by
  by_cases hplain : c = '\\' ∨ c = '"' ∨ c = '\n' ∨ c = '\r' ∨ c = '\t'
  · refine ⟨.literal (value ++ [c]), ?_, rfl⟩
    rcases hplain with rfl | rfl | rfl | rfl | rfl
    all_goals exact run_simple_escape h rfl rfl
  · simp only [not_or] at hplain
    obtain ⟨hb, hq, hn, hr, ht⟩ := hplain
    by_cases hctl : isAsciiControl c = true
    · have hlt : c.toNat < 128 := by
        simp only [isAsciiControl, Bool.or_eq_true, decide_eq_true_eq, beq_iff_eq] at hctl
        omega
      refine ⟨.octal value 0 c.toNat, ?_, rfl, hlt, by rw [Char.ofNat_toNat]⟩
      simpa [Code.escape, hb, hq, hn, hr, ht, hctl] using run_octal_escape h hlt
    · refine ⟨.literal (value ++ [c]), ?_, rfl⟩
      rw [Code.escape_of_printable (Bool.eq_false_iff.2 hctl) hq hb]
      have hstep : step s c = ([], .literal (value ++ [c])) := by
        rw [step_of_inLiteral h, literalStep, if_neg hq, if_neg hb, if_neg hn]
      exact run_cons hstep rfl

/-- Within a literal the escaped text is read back. -/
theorem run_escapes {value : Text} (h : InLiteral value s) (t : Text) :
    ∃ s', run s (t.flatMap Code.escape) = ([], s') ∧ InLiteral (value ++ t) s' := by
  induction t generalizing value s with
  | nil => exact ⟨s, rfl, by rwa [List.append_nil]⟩
  | cons c t ih =>
    obtain ⟨s₁, hrun₁, h₁⟩ := run_escape h c
    obtain ⟨s₂, hrun₂, h₂⟩ := ih h₁
    refine ⟨s₂, ?_, ?_⟩
    · rw [List.flatMap_cons]
      exact run_append hrun₁ hrun₂
    · rwa [List.append_assoc] at h₂

/-- A literal is one token with the text that it was written for. -/
theorem run_literal (t : Text) : run .blank (Code.literal t) = ([.literal t], .blank) := by
  have hopen : run .blank ['"'] = ([], .literal []) := rfl
  obtain ⟨s, hrun, h⟩ := run_escapes (s := .literal []) rfl t
  exact run_append hopen (run_append hrun (run_cons (step_quote h) rfl))

end ShaderVariants.Cpp
