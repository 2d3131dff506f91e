import Mathlib.Data.List.Chain
import ShaderVariants.Proofs.Lines

/-!
# Comments of C++ text

A comment goes from `//` to the end of its line, or from `/*` to the first `*/` behind it.
What is left without them is found by a reader that goes through the text character by
character, so what two texts in a row leave is what each of them leaves from where it
begins.
-/

namespace ShaderVariants.Cpp

/-- What closes a comment that may take several lines. -/
def closeMark : Text := ['*', '/']

/-- A text is without the mark where no slash follows a star. -/
theorem isChain_iff_closeMark {t : Text} :
    t.IsChain (fun c d => ¬(c = '*' ∧ d = '/')) ↔ ¬closeMark <:+: t := by
  rw [List.isChain_iff_forall_rel_of_append_cons_cons]
  constructor
  · rintro h ⟨before, behind, heq⟩
    rw [List.append_assoc] at heq
    exact h heq.symm ⟨rfl, rfl⟩
  · rintro h c d before behind heq ⟨rfl, rfl⟩
    refine h ⟨before, behind, ?_⟩
    rw [heq, List.append_assoc]
    rfl

theorem closeMark_notIn_of_slash_notMem {t : Text} (h : '/' ∉ t) : ¬closeMark <:+: t := by
  intro hmark
  exact h (hmark.subset (by decide))

/-- The mark comes about between two texts only where a star meets a slash. -/
theorem closeMark_notIn_append {t u : Text} (ht : ¬closeMark <:+: t) (hu : ¬closeMark <:+: u)
    (hmeet : t.getLast? ≠ some '*' ∨ u.head? ≠ some '/') : ¬closeMark <:+: t ++ u := by
  rw [← isChain_iff_closeMark] at ht hu ⊢
  apply ht.append hu
  rintro c hc d hd ⟨rfl, rfl⟩
  rcases hmeet with hne | hne
  · exact hne hc
  · exact hne hd

namespace Comment

/-- Where a reader is that tells comments from code. -/
inductive Place where
  | code
  /-- Behind a slash, which begins a comment or is code. -/
  | slash
  /-- In a comment up to the end of the line. -/
  | line
  /-- In a comment up to the mark that closes it. -/
  | block
  /-- In such a comment behind a star. -/
  | star
deriving DecidableEq, Repr

/-- One character: the code that is certain with it, and where the reader is behind it. -/
def step : Place → Char → Text × Place
  | .code, c => if c = '/' then ([], .slash) else ([c], .code)
  | .slash, c =>
    if c = '/' then ([], .line) else if c = '*' then ([], .block) else (['/', c], .code)
  | .line, c => if c = '\n' then ([c], .code) else ([], .line)
  | .block, c => if c = '*' then ([], .star) else ([], .block)
  | .star, c => if c = '/' then ([], .code) else if c = '*' then ([], .star) else ([], .block)

/-- The code of a text that is read from a place on, and where the reader is behind it. -/
def run (p : Place) : Text → Text × Place
  | [] => ([], p)
  | c :: t => ((step p c).1 ++ (run (step p c).2 t).1, (run (step p c).2 t).2)

/-- What is code after all where nothing follows. -/
def pending : Place → Text
  | .slash => ['/']
  | _ => []

end Comment

/-- The text without its comments. -/
def withoutComments (t : Text) : Text :=
  (Comment.run .code t).1 ++ Comment.pending (Comment.run .code t).2

namespace Comment

variable {p p₁ p₂ : Place} {t u before body o₁ o₂ : Text} {c : Char}

/-! ## Runs -/

theorem run_cons (h₁ : step p c = (o₁, p₁)) (h₂ : run p₁ t = (o₂, p₂)) :
    run p (c :: t) = (o₁ ++ o₂, p₂) := by
  rw [run, h₁, h₂]

theorem run_append (h₁ : run p t = (o₁, p₁)) (h₂ : run p₁ u = (o₂, p₂)) :
    run p (t ++ u) = (o₁ ++ o₂, p₂) := by
  induction t generalizing p o₁ with
  | nil =>
    obtain ⟨rfl, rfl⟩ := Prod.mk.inj h₁
    exact h₂
  | cons c t ih =>
    obtain ⟨rfl, hp⟩ := Prod.mk.inj h₁
    rw [List.cons_append, run, ih (Prod.ext rfl hp), List.append_assoc]

theorem run_code (h : '/' ∉ t) : run .code t = (t, .code) := by
  induction t with
  | nil => rfl
  | cons c t ih =>
    obtain ⟨hc, ht⟩ := List.ne_and_not_mem_of_not_mem_cons h
    have hstep : step .code c = ([c], .code) := if_neg hc.symm
    exact run_cons hstep (ih ht)

theorem run_line (h : '\n' ∉ t) : run .line t = ([], .line) := by
  induction t with
  | nil => rfl
  | cons c t ih =>
    obtain ⟨hc, ht⟩ := List.ne_and_not_mem_of_not_mem_cons h
    have hstep : step .line c = ([], .line) := if_neg hc.symm
    exact run_cons hstep (ih ht)

/-- The reader is in a comment that a mark closes. -/
def InBlock (p : Place) : Prop := p = .block ∨ p = .star

/-- Nothing leaves the comment but the mark. -/
theorem run_inBlock (hp : InBlock p) (hhead : p = .star → t.head? ≠ some '/')
    (h : ¬closeMark <:+: t) : ∃ p', InBlock p' ∧ run p t = ([], p') := by
  induction t generalizing p with
  | nil => exact ⟨p, hp, rfl⟩
  | cons c t ih =>
    have ht : ¬closeMark <:+: t := fun hmark => h (hmark.trans (List.suffix_cons c t).isInfix)
    by_cases hc : c = '*'
    · have hstep : step p c = ([], .star) := by
        rcases hp with rfl | rfl <;> simp [step, hc]
      have hnext : t.head? ≠ some '/' := by
        intro hslash
        obtain ⟨rest, rfl⟩ := List.head?_eq_some_iff.1 hslash
        exact h ⟨[], rest, by rw [hc]; rfl⟩
      obtain ⟨p', hp', hrun⟩ := ih (.inr rfl) (fun _ => hnext) ht
      exact ⟨p', hp', run_cons hstep hrun⟩
    · have hstep : step p c = ([], .block) := by
        rcases hp with rfl | rfl
        · exact if_neg hc
        · have hslash : c ≠ '/' := fun heq => hhead rfl (congrArg some heq)
          simp [step, hslash, hc]
      obtain ⟨p', hp', hrun⟩ := ih (.inl rfl) nofun ht
      exact ⟨p', hp', run_cons hstep hrun⟩

/-- The first mark closes the comment. -/
theorem run_block_closeMark (h : ¬closeMark <:+: body ++ ['*']) :
    run .block (body ++ closeMark) = ([], .code) := by
  have hbody : ¬closeMark <:+: body := fun hmark => h (hmark.trans (List.prefix_append _ _).isInfix)
  obtain ⟨p, hp, hrun⟩ := run_inBlock (.inl rfl) nofun hbody
  have hclose : run p closeMark = ([], .code) := by
    rcases hp with rfl | rfl <;> rfl
  exact run_append hrun hclose

/-- Every character of the code stands in the text, but a slash may come from before it. -/
theorem mem_of_mem_run (hc : c ≠ '/') (h : c ∈ (run p t).1) : c ∈ t := by
  induction t generalizing p with
  | nil => exact absurd h List.not_mem_nil
  | cons d t ih =>
    have hstep : ∀ e ∈ (step p d).1, e = '/' ∨ e = d := by
      intro e he
      cases p <;> simp only [step] at he <;> split_ifs at he <;> simp_all
    rcases List.mem_append.1 h with h | h
    · rcases hstep c h with heq | rfl
      · exact absurd heq hc
      · exact List.mem_cons_self
    · exact List.mem_cons_of_mem d (ih h)

/-! ## Lines -/

/-- No comment goes on behind the text. -/
def IsOver (t : Text) : Prop := ¬InBlock (run .code t).2

theorem isOver_of_run (h : run .code t = (o₁, p)) (hp : ¬InBlock p) : IsOver t := by
  rw [IsOver, h]
  exact hp

/-- A line behind which no comment goes on leaves a line. -/
theorem run_of_isOver (h : IsOver t) :
    run .code (t ++ ['\n']) = (withoutComments t ++ ['\n'], .code) := by
  have hnewline : ∀ p, ¬InBlock p → run p ['\n'] = (pending p ++ ['\n'], .code) := by
    intro p hp
    cases p with
    | code | slash | line => rfl
    | block => exact absurd (.inl rfl) hp
    | star => exact absurd (.inr rfl) hp
  rw [withoutComments, List.append_assoc]
  exact run_append rfl (hnewline _ h)

theorem isOver_of_slash_notMem (h : '/' ∉ t) : IsOver t := isOver_of_run (run_code h) nofun

theorem run_lineComment (hbefore : '/' ∉ before) (hbody : '\n' ∉ body) :
    run .code (before ++ '/' :: '/' :: body) = (before, .line) := by
  have hopen : run .code ('/' :: '/' :: body) = ([], .line) := run_line hbody
  have hrun := run_append (run_code hbefore) hopen
  rwa [List.append_nil] at hrun

theorem isOver_lineComment (hbefore : '/' ∉ before) (hbody : '\n' ∉ body) :
    IsOver (before ++ '/' :: '/' :: body) :=
  isOver_of_run (run_lineComment hbefore hbody) nofun

theorem run_blockComment (hbefore : '/' ∉ before) (hbody : ¬closeMark <:+: body ++ ['*']) :
    run .code (before ++ '/' :: '*' :: (body ++ closeMark)) = (before, .code) := by
  have hopen : run .code ('/' :: '*' :: (body ++ closeMark)) = ([], .code) :=
    run_block_closeMark hbody
  have hrun := run_append (run_code hbefore) hopen
  rwa [List.append_nil] at hrun

end Comment

/-! ## Texts without their comments -/

variable {t u before body : Text} {ls : List Text}

theorem withoutComments_append {o : Text} (h : Comment.run .code t = (o, .code)) (u : Text) :
    withoutComments (t ++ u) = o ++ withoutComments u := by
  rw [withoutComments, Comment.run_append h rfl, List.append_assoc]
  rfl

/-- The lines of a text may be taken one by one where no comment goes over their ends. -/
theorem withoutComments_unlines (h : ∀ l ∈ ls, Comment.IsOver l) :
    withoutComments (Text.unlines ls) = Text.unlines (ls.map withoutComments) := by
  induction ls with
  | nil => rfl
  | cons l ls ih =>
    obtain ⟨hl, hls⟩ := List.forall_mem_cons.1 h
    have hcut : Text.unlines (l :: ls) = (l ++ ['\n']) ++ Text.unlines ls := by
      rw [Text.unlines_cons, List.append_assoc]
      rfl
    rw [hcut, withoutComments_append (Comment.run_of_isOver hl), ih hls, List.map_cons,
      Text.unlines_cons, List.append_assoc]
    rfl

theorem newline_notMem_withoutComments (h : '\n' ∉ t) : '\n' ∉ withoutComments t := by
  intro hmem
  rcases List.mem_append.1 hmem with hmem | hmem
  · exact h (Comment.mem_of_mem_run (by decide) hmem)
  · revert hmem
    cases (Comment.run .code t).2 <;> decide

theorem withoutComments_lineComment (hbefore : '/' ∉ before) (hbody : '\n' ∉ body) :
    withoutComments (before ++ '/' :: '/' :: body) = before := by
  rw [withoutComments, Comment.run_lineComment hbefore hbody]
  exact List.append_nil before

theorem withoutComments_blockComment (hbefore : '/' ∉ before)
    (hbody : ¬closeMark <:+: body ++ ['*']) (u : Text) :
    withoutComments (before ++ '/' :: '*' :: (body ++ closeMark) ++ u) =
      before ++ withoutComments u :=
  withoutComments_append (Comment.run_blockComment hbefore hbody) u

/-- The star that opens a comment is no part of the mark that closes it. -/
example : withoutComments ['a', '/', '*', '/', '*', '/', 'b'] = ['a', 'b'] := by decide

/-- A character is found first in one place only. -/
theorem eq_of_first_eq {c : Char} {t' u' : Text} (ht : c ∉ t) (ht' : c ∉ t')
    (h : t ++ c :: u = t' ++ c :: u') : t = t' ∧ u = u' := by
  rcases List.append_eq_append_iff.1 h with ⟨between, rfl, hrest⟩ | ⟨between, rfl, hrest⟩
  all_goals
    cases between with
    | nil => simp_all
    | cons d between =>
      obtain ⟨rfl, -⟩ := List.cons.inj hrest
      simp at ht ht'

/-- The first comment of the text is closed by the last characters of the text and not before. -/
def ClosesAtEnd (t : Text) : Prop :=
  ∃ before body, t = before ++ '/' :: '*' :: (body ++ closeMark) ∧ '/' ∉ before ∧
    ¬closeMark <:+: body ++ ['*']

theorem closesAtEnd_iff (hbefore : '/' ∉ before) :
    ClosesAtEnd (before ++ '/' :: '*' :: (body ++ closeMark)) ↔
      ¬closeMark <:+: body ++ ['*'] := by
  constructor
  · rintro ⟨before', body', heq, hbefore', hbody'⟩
    obtain ⟨-, hrest⟩ := eq_of_first_eq hbefore hbefore' heq
    rw [(List.append_left_inj closeMark).1 (List.cons.inj hrest).2]
    exact hbody'
  · intro hbody
    exact ⟨before, body, rfl, hbefore, hbody⟩

end ShaderVariants.Cpp
