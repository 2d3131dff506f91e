import ShaderVariants.Text.Lines

/-!
# Cuts into lines

A list of lines is the cut of a text exactly when every line but the last is closed by
its newline and no newline stands anywhere else. Lines taken out of a cut are a cut
again.
-/

namespace ShaderVariants.Text

variable {l u t : Text} {ls ls' : List Text}

/-- The line ends in its newline and has no other. -/
def IsClosed (l : Text) : Prop := ∃ u, l = u ++ ['\n'] ∧ '\n' ∉ u

/-- The line has no newline. -/
def IsOpen (l : Text) : Prop := l ≠ [] ∧ '\n' ∉ l

/-- All lines are lines, and only the last may be open. -/
structure IsCut (ls : List Text) : Prop where
  pairwise : ls.Pairwise fun l _ => IsClosed l
  isClosed_or_isOpen : ∀ l ∈ ls, IsClosed l ∨ IsOpen l

theorem IsClosed.newline_mem (h : IsClosed l) : '\n' ∈ l := by
  obtain ⟨u, rfl, -⟩ := h
  exact List.mem_append_right u List.mem_cons_self

theorem IsClosed.not_isOpen (h : IsClosed l) : ¬IsOpen l := fun hopen => hopen.2 h.newline_mem

theorem IsClosed.cons (h : IsClosed l) {c : Char} (hc : c ≠ '\n') : IsClosed (c :: l) := by
  obtain ⟨u, rfl, hu⟩ := h
  refine ⟨c :: u, rfl, fun hmem => ?_⟩
  rcases List.mem_cons.1 hmem with heq | hmem
  · exact hc heq.symm
  · exact hu hmem

theorem IsOpen.cons (h : IsOpen l) {c : Char} (hc : c ≠ '\n') : IsOpen (c :: l) := by
  refine ⟨List.cons_ne_nil c l, fun hmem => ?_⟩
  rcases List.mem_cons.1 hmem with heq | hmem
  · exact hc heq.symm
  · exact h.2 hmem

namespace IsCut

theorem nil : IsCut [] := ⟨List.Pairwise.nil, fun _ h => absurd h List.not_mem_nil⟩

theorem singleton (h : IsClosed l ∨ IsOpen l) : IsCut [l] := by
  refine ⟨List.pairwise_singleton _ l, fun m hm => ?_⟩
  rw [List.mem_singleton] at hm
  exact hm ▸ h

theorem cons (h : IsCut ls) (hl : IsClosed l) : IsCut (l :: ls) := by
  refine ⟨List.pairwise_cons.2 ⟨fun _ _ => hl, h.pairwise⟩, fun m hm => ?_⟩
  rcases List.mem_cons.1 hm with rfl | hm
  · exact .inl hl
  · exact h.isClosed_or_isOpen m hm

theorem tail (h : IsCut (l :: ls)) : IsCut ls :=
  ⟨(List.pairwise_cons.1 h.pairwise).2,
    fun m hm => h.isClosed_or_isOpen m (List.mem_cons_of_mem l hm)⟩

theorem head_isClosed (h : IsCut (l :: ls)) (hne : ls ≠ []) : IsClosed l := by
  obtain ⟨m, ls, rfl⟩ := List.exists_cons_of_ne_nil hne
  exact (List.pairwise_cons.1 h.pairwise).1 m List.mem_cons_self

/-- Closed lines may stand in front of a cut. -/
theorem append (h : IsCut ls') (hls : ∀ l ∈ ls, IsClosed l) : IsCut (ls ++ ls') := by
  induction ls with
  | nil => exact h
  | cons l ls ih =>
    exact (ih fun m hm => hls m (List.mem_cons_of_mem l hm)).cons (hls l List.mem_cons_self)

/-- Lines taken out of a cut in their order are a cut. -/
theorem sublist (h : IsCut ls) (hsub : ls'.Sublist ls) : IsCut ls' :=
  ⟨h.pairwise.sublist hsub, fun l hl => h.isClosed_or_isOpen l (hsub.subset hl)⟩

end IsCut

/-- The lines of a text are a cut. -/
theorem isCut_lines (t : Text) : IsCut t.lines := by
  induction t with
  | nil => exact IsCut.nil
  | cons c t ih =>
    rw [lines]
    by_cases hc : c = '\n'
    · rw [if_pos hc, hc]
      exact ih.cons ⟨[], rfl, List.not_mem_nil⟩
    · rw [if_neg hc]
      split
      · refine IsCut.singleton (.inr ⟨List.cons_ne_nil c [], fun hmem => ?_⟩)
        exact hc (List.mem_singleton.1 hmem).symm
      · next line rest hlines =>
        rw [hlines] at ih
        cases rest with
        | nil =>
          exact IsCut.singleton ((ih.isClosed_or_isOpen line List.mem_cons_self).imp
            (fun h => h.cons hc) (fun h => h.cons hc))
        | cons next rest =>
          exact ih.tail.cons ((ih.head_isClosed (List.cons_ne_nil next rest)).cons hc)

theorem lines_append_newline (hu : '\n' ∉ u) (t : Text) :
    lines (u ++ '\n' :: t) = (u ++ ['\n']) :: lines t := by
  induction u with
  | nil => rw [List.nil_append, lines, if_pos rfl, List.nil_append]
  | cons c u ih =>
    have hc : c ≠ '\n' := fun heq => hu (heq ▸ List.mem_cons_self)
    rw [List.cons_append, lines, if_neg hc, ih fun hmem => hu (List.mem_cons_of_mem c hmem)]
    rfl

theorem lines_of_isOpen (h : IsOpen l) : lines l = [l] := by
  obtain ⟨hne, hl⟩ := h
  induction l with
  | nil => exact absurd rfl hne
  | cons c l ih =>
    have hc : c ≠ '\n' := fun heq => hl (heq ▸ List.mem_cons_self)
    cases l with
    | nil => rw [lines, if_neg hc, lines]
    | cons d l =>
      rw [lines, if_neg hc, ih (List.cons_ne_nil d l) fun hmem => hl (List.mem_cons_of_mem c hmem)]

/-- A cut is the cut of its text. -/
theorem IsCut.lines_flatten (h : IsCut ls) : lines ls.flatten = ls := by
  induction ls with
  | nil => rfl
  | cons l ls ih =>
    rw [List.flatten_cons]
    rcases h.isClosed_or_isOpen l List.mem_cons_self with ⟨u, rfl, hu⟩ | hopen
    · rw [List.append_assoc, List.singleton_append, lines_append_newline hu, ih h.tail]
    · cases ls with
      | nil => rw [List.flatten_nil, List.append_nil, lines_of_isOpen hopen]
      | cons m ls =>
        exact absurd hopen (h.head_isClosed (List.cons_ne_nil m ls)).not_isOpen

end ShaderVariants.Text
